import DebugClient.Json.Record

/-!
Events of the memory log, which an instrumented target writes as one JSON object a line:

    {"kind": "store", "site": 2, "addr": "0x5004", "n": 4, "bytes": "0a000000"}
-/

namespace DebugClient

inductive MemlogEvent where
  | alloc (site : Nat) (address : Text) (length : Nat)
  | store (site : Nat) (address : Text) (length : Nat) (bytes : Text)
  | localVariable (site : Nat) (name : Text)
  deriving DecidableEq, Repr

namespace MemlogEvent
open Json

inductive Kind where
  | alloc
  | store
  | localVariable
  deriving DecidableEq, Repr

def kindOf? (name : Text) : Option Kind :=
  if name = "alloc".toList then some .alloc
  else if name = "store".toList then some .store
  else if name = "local".toList then some .localVariable
  else none

/-- A value, as far as events have a use for it. -/
inductive Content where
  | text (t : Text)
  | natural (n : Nat)
  | other
  deriving DecidableEq, Repr

/-- Brackets that may be nested inside the brackets of an event. -/
def nestingRoom : Nat := 126

/-- Any value. It has to be readable, even if it turns out to have no use. -/
def content (t : Text) : Except Fault (Content × Text) :=
  match skipSpace t with
  | '"' :: t => (stringRest t).map fun (s, t) => (.text s, t)
  | c :: t =>
    if c.isDigit || c == '-' then
      (number (c :: t)).map fun
        | (.natural n, t) => (.natural n, t)
        | (.other, t) => (.other, t)
    else (skipValue (.readable nestingRoom) (c :: t)).map fun t => (.other, t)
  | [] => .error .truncated

def kind (t : Text) : Except Fault (Kind × Text) := do
  let (name, t) ← string t
  match kindOf? name with
  | some kind => .ok (kind, t)
  | none => .error .malformed

/-- An event while it is being read. What a field means is known only when the kind is. -/
structure Parts where
  kind : Option Kind := none
  contents : List (Text × Content) := []
  deriving DecidableEq, Repr

def member (name : Text) (parts : Parts) (t : Text) : Except Fault (Parts × Text) :=
  if name = "kind".toList then
    if parts.kind.isSome then .error .malformed
    else do
      let (kind, t) ← kind (← colon t)
      .ok ({ parts with kind := some kind }, t)
  else do
    let (content, t) ← content (← colon t)
    .ok ({ parts with contents := parts.contents ++ [(name, content)] }, t)

/-- The contents of a field, which may be given once at most. -/
def fieldContent? (name : String) (contents : List (Text × Content)) : Option (Option Content) :=
  match contents.filter fun (other, _) => other = name.toList with
  | [] => some none
  | [(_, content)] => some (some content)
  | _ => none

def Content.text? : Content → Option Text
  | .text t => some t
  | _ => none

/-- A natural number up to `limit`. -/
def Content.natural? (limit : Nat) : Content → Option Nat
  | .natural n => if n ≤ limit then some n else none
  | _ => none

def neededText? (name : String) (contents : List (Text × Content)) : Option Text := do
  (← (← fieldContent? name contents)).text?

def neededNatural? (name : String) (limit : Nat) (contents : List (Text × Content)) :
    Option Nat := do
  (← (← fieldContent? name contents)).natural? limit

/-- An event from its parts. Only the name of a local may be missing. -/
def ofParts? (parts : Parts) : Option MemlogEvent := do
  let contents := parts.contents
  let site ← neededNatural? "site" Numeral.largest32 contents
  match ← parts.kind with
  | .alloc =>
    some (.alloc site (← neededText? "ptr" contents)
      (← neededNatural? "n" Numeral.largest64 contents))
  | .store =>
    some (.store site (← neededText? "addr" contents)
      (← neededNatural? "n" Numeral.largest64 contents) (← neededText? "bytes" contents))
  | .localVariable =>
    match ← fieldContent? "name" contents with
    | none => some (.localVariable site [])
    | some name => some (.localVariable site (← name.text?))

/-- The names of the fields in the order in which a list gives them. -/
def fieldOrder : Kind → List Text
  | .alloc => ["site".toList, "ptr".toList, "n".toList]
  | .store => ["site".toList, "addr".toList, "n".toList, "bytes".toList]
  | .localVariable => ["site".toList, "name".toList]

/-- An event as an object, or as a list that begins with its kind. -/
def readParts (t : Text) : Except Fault (Parts × Text) :=
  match skipSpace t with
  | '{' :: t => members member (t.length + 1) true {} t
  | '[' :: t => do
    match ← nextElement true t with
    | none => .error .malformed
    | some t =>
      let (kind, t) ← kind t
      let (contents, t) ← elements content (t.length + 1) false t
      let names := fieldOrder kind
      if contents.length ≤ names.length then
        .ok ({ kind := some kind, contents := names.zip contents }, t)
      else .error .malformed
  | _ => .error .malformed

/-- The event on a line; none on a blank or malformed one. -/
def ofLine? (line : Text) : Option MemlogEvent :=
  match document readParts (Text.trim line) with
  | .ok parts => ofParts? parts
  | .error _ => none

end MemlogEvent
end DebugClient
