import DebugClient.Memory.Rendering
import DebugClient.Reply.Literal

/-!
From a variable reported at a stop to the values that it consists of.
-/

namespace DebugClient

/-- A local or an argument as reported at a stop. -/
structure Observation where
  name : Text
  type : Text
  address : Option Nat
  size : Option Nat
  frame : Nat
  literal : Literal
  deriving Repr

mutual
/-- A literal on one line. -/
def Literal.render : Literal → Text
  | .scalar text => text
  | .pointer target => Numeral.address target
  | .fields members => '{' :: commaSeparated (Literal.renderFields members) ++ ['}']
  | .elements items => '[' :: commaSeparated (Literal.renderElements items) ++ [']']

def Literal.renderFields : List (Text × Literal) → List Text
  | [] => []
  | (name, literal) :: members =>
    (name ++ " = ".toList ++ literal.render) :: Literal.renderFields members

def Literal.renderElements : List Literal → List Text
  | [] => []
  | literal :: literals => literal.render :: Literal.renderElements literals
end

mutual
/-- The data that a literal stands for. An array inside a struct or another array has no address of
    its own to group its elements by, so it is kept as text. -/
def Literal.data (location : Location) : Literal → ValueData
  | .scalar text => .scalar text
  | .pointer target => .pointer target
  | .fields members => .fields (Literal.fieldValues location members)
  | .elements items => .scalar (Literal.render (.elements items))

def Literal.fieldValues (location : Location) : List (Text × Literal) → List Value
  | [] => []
  | (name, literal) :: members =>
    (Value.fresh name [] location).assign (literal.data location) ::
      Literal.fieldValues location members
end

namespace Observation
open Text Numeral

/-- The element type and the length in the first dimension of an array type: `char [4][2]` is four
    times `char [2]`. -/
def splitArrayType? (type : Text) : Option (Text × Nat) :=
  match type.dropWhile (· ≠ '[') with
  | [] => none
  | _ :: t =>
    match t.dropWhile (· ≠ ']') with
    | [] => none
    | _ :: rest =>
      (decimal? largest64 (trim (t.takeWhile (· ≠ ']')))).map fun length =>
        let head := trimEnd (type.takeWhile (· ≠ '['))
        (if rest.head? = some '[' then head ++ ' ' :: rest else head ++ rest, length)

/-- The element type and the length of an array of which so many elements were printed. The
    declared length counts unless more were printed. -/
def arrayShape (type : Text) (printed : Nat) : Text × Nat :=
  match splitArrayType? type with
  | some (element, declared) => if printed ≤ declared then (element, declared) else (type, printed)
  | none => (type, printed)

/-- The elements of an array, each at its own address. -/
def elementValues (observation : Observation) (type : Text) (start : Nat)
    (stride length : Nat) (elements : List Literal) : List Value :=
  let location := .stack observation.frame
  elements.zipIdx.map fun (element, index) =>
    Value.assign (element.data location)
      { Value.fresh observation.name type location with
        address := some (start + index * stride)
        size := some stride
        slot := some { start, index, length } }

/-- The variable as a single value. -/
def wholeValue (observation : Observation) : Value :=
  let location := .stack observation.frame
  Value.assign (observation.literal.data location)
    { Value.fresh observation.name observation.type location with
      address := observation.address, size := observation.size }

/-- The values that the variable consists of: one for each printed element of an array whose
    address and size are known and whose length divides its size, and a single one otherwise. As
    the distance of the elements follows from the declared length, the elements of a print that was
    cut short still stand at their real addresses. -/
def values (observation : Observation) : List Value :=
  match observation.literal, observation.address, observation.size with
  | .elements elements, some start, some size =>
    let (type, length) := arrayShape observation.type elements.length
    if 0 < length ∧ size % length = 0 then
      observation.elementValues type start (size / length) length elements
    else [observation.wholeValue]
  | _, _, _ => [observation.wholeValue]

end Observation
end DebugClient
