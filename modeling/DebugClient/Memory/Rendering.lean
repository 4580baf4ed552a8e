import DebugClient.Memory.Value
import DebugClient.Text.Numeral

/-!
Values as text. A struct takes a block of lines; the members of one array, wherever they stand in
a list of values, are gathered on one line.
-/

namespace DebugClient
open Text

/-- Stands for the data of a value that was never assigned. -/
def garbage : Text := "<garbage>".toList

/-- Items with commas between them. -/
def commaSeparated (items : List Text) : Text := ", ".toList.intercalate items

/-- Two spaces for each level. -/
def indentation (depth : Nat) : Text := List.replicate (2 * depth) ' '

mutual
/-- Data on one line. -/
def ValueData.render : ValueData → Text
  | .uninitialized => garbage
  | .scalar text => text
  | .pointer target => Numeral.address target
  | .fields fields => '{' :: commaSeparated (Value.renderFields fields) ++ ['}']

def Value.renderFields : List Value → List Text
  | [] => []
  | ⟨name, _, _, _, _, _, data, _⟩ :: fields =>
    (name ++ " = ".toList ++ data.render) :: Value.renderFields fields
end

namespace Value

/-- The name, and the type where it is known. -/
def label (value : Value) : Text :=
  if value.type.isEmpty then value.name else value.name ++ " (".toList ++ value.type ++ [')']

/-- Members of the array that starts at an address, by ascending index. -/
def arrayMembers (start : Nat) (values : List Value) : List Value :=
  (values.filter fun value => value.slot.any (·.start == start)).mergeSort fun a b =>
    (a.slot.elim 0 (·.index)) ≤ (b.slot.elim 0 (·.index))

/-- The line for the array that starts at an address, labelled by its first member. -/
def renderArray (depth : Nat) (start : Nat) (values : List Value) : Text :=
  let members := arrayMembers start values
  match members with
  | [] => []
  | first :: _ =>
    indentation depth ++ first.label ++ ": [".toList ++
      commaSeparated (members.map (·.data.render)) ++ "]\n".toList

mutual
/-- The lines for one value. -/
def renderAt (depth : Nat) : Value → Text
  | ⟨name, type, address, size, location, slot, .fields fields, history⟩ =>
    let head := label ⟨name, type, address, size, location, slot, .uninitialized, history⟩
    indentation depth ++ head ++ ":\n".toList ++ indentation depth ++ ['{', '\n'] ++
      renderRest (depth + 1) fields [] fields ++ indentation depth ++ ['}', '\n']
  | value => indentation depth ++ value.label ++ ": ".toList ++ value.data.render ++ ['\n']

/-- The lines for the rest of a list of values, when the arrays with the given starts have been
    rendered already. -/
def renderRest (depth : Nat) (all : List Value) (rendered : List Nat) : List Value → Text
  | [] => []
  | value :: values =>
    match value.slot with
    | none => renderAt depth value ++ renderRest depth all rendered values
    | some slot =>
      if slot.start ∈ rendered then renderRest depth all rendered values
      else renderArray depth slot.start all ++
        renderRest depth all (slot.start :: rendered) values
end

/-- The lines for a list of values: a block for each that is no array member, and one line for each
    array, at the place of its first member. -/
def renderList (depth : Nat) (values : List Value) : Text := renderRest depth values [] values

def describe (value : Value) : Text := value.renderAt 0

end Value
end DebugClient
