import DebugClient.Json.Skip

/-!
Records in JSON: an object with the fields in any order, or a list with the fields in the order
they are declared in. An object may have further fields, which are skipped, but a declared one at
most once; a list may be shorter only by fields that can be omitted.
-/

namespace DebugClient.Json

/-- The fault of a value that is not of the type asked for. Strings, numbers and words are read
    before they are found to be wrong, lists and objects are not. -/
def mismatch (t : Text) : Fault :=
  let faultOf {α : Type} : Except Fault α → Fault
    | .error fault => fault
    | .ok _ => .malformed
  match t with
  | 'n' :: t => faultOf (word "ull".toList t)
  | 't' :: t => faultOf (word "rue".toList t)
  | 'f' :: t => faultOf (word "alse".toList t)
  | '"' :: t => faultOf (stringRest t)
  | c :: t => if c.isDigit || c == '-' then faultOf (number (c :: t)) else .malformed
  | [] => .malformed

/-- A natural number up to `limit`. -/
def natural (limit : Nat) (t : Text) : Except Fault (Nat × Text) :=
  match skipSpace t with
  | [] => .error .truncated
  | c :: t =>
    if c.isDigit || c == '-' then
      match number (c :: t) with
      | .ok (.natural n, t) => if n ≤ limit then .ok (n, t) else .error .malformed
      | .ok (.other, _) => .error .malformed
      | .error fault => .error fault
    else .error (mismatch (c :: t))

def string (t : Text) : Except Fault (Text × Text) :=
  match skipSpace t with
  | [] => .error .truncated
  | '"' :: t => stringRest t
  | t => .error (mismatch t)

/-- A value or `null`. -/
def optional {α : Type} (read : Text → Except Fault (α × Text)) (t : Text) :
    Except Fault (Option α × Text) :=
  match skipSpace t with
  | 'n' :: t => do .ok (none, ← word "ull".toList t)
  | t => do
    let (a, t) ← read t
    .ok (some a, t)

def colon (t : Text) : Except Fault Text :=
  match skipSpace t with
  | [] => .error .truncated
  | ':' :: t => .ok t
  | _ => .error .malformed

/-- Where the next element of a list begins, or nothing at the end of the list. -/
def nextElement (first : Bool) (t : Text) : Except Fault (Option Text) :=
  match skipSpace t with
  | [] => .error .truncated
  | ']' :: _ => .ok none
  | c :: t =>
    if first then .ok (some (c :: t))
    else if c = ',' then
      match skipSpace t with
      | [] => .error .truncated
      | ']' :: _ => .error .malformed
      | t => .ok (some t)
    else .error .malformed

/-- The bracket behind the last element. -/
def listEnd (t : Text) : Except Fault Text :=
  match skipSpace t with
  | [] => .error .truncated
  | ']' :: t => .ok t
  | _ => .error .malformed

/-- Elements of a list until its end, each of which takes at least one character. -/
def elements {α : Type} (read : Text → Except Fault (α × Text)) :
    Nat → Bool → Text → Except Fault (List α × Text)
  | 0, _, _ => .error .malformed
  | rounds + 1, first, t => do
    match ← nextElement first t with
    | none => .ok ([], ← listEnd t)
    | some t =>
      let (a, t) ← read t
      let (others, t) ← elements read rounds false t
      .ok (a :: others, t)

def list {α : Type} (read : Text → Except Fault (α × Text)) (t : Text) :
    Except Fault (List α × Text) :=
  match skipSpace t with
  | [] => .error .truncated
  | '[' :: t => elements read (t.length + 1) true t
  | t => .error (mismatch t)

/-- Members of an object until its end. `member` takes in the member with a given name, from the
    colon on. -/
def members {σ : Type} (member : Text → σ → Text → Except Fault (σ × Text)) :
    Nat → Bool → σ → Text → Except Fault (σ × Text)
  | 0, _, _, _ => .error .malformed
  | rounds + 1, first, state, t =>
    let afterQuote (t : Text) : Except Fault (σ × Text) := do
      let (name, t) ← stringRest t
      let (state, t) ← member name state t
      members member rounds false state t
    match skipSpace t with
    | [] => .error .truncated
    | '}' :: t => .ok (state, t)
    | ',' :: t =>
      if first then .error .malformed
      else match skipSpace t with
        | [] => .error .truncated
        | '"' :: t => afterQuote t
        | _ => .error .malformed
    | '"' :: t => if first then afterQuote t else .error .malformed
    | _ => .error .malformed

/-- Where a field may be missing. -/
inductive Presence where
  /-- Nowhere. -/
  | needed
  /-- In an object, but not in a list. -/
  | nullable
  /-- In an object, and in a list if all fields behind it are missing as well. -/
  | defaulted
  deriving DecidableEq, Repr

/-- A field of a record: reading it gives the change that it makes to the record. -/
structure Field (α : Type) where
  name : Text
  presence : Presence
  read : Text → Except Fault ((α → α) × Text)

/-- A field from a reader of its value. -/
def Field.of {α β : Type} (name : String) (presence : Presence)
    (read : Text → Except Fault (β × Text)) (set : β → α → α) : Field α where
  name := name.toList
  presence
  read t := (read t).map fun (b, t) => (set b, t)

/-- A record while it is being read, with the names of the fields that have been read. -/
structure Draft (α : Type) where
  value : α
  present : List Text := []

/-- The fields in the order declared, as elements of a list. -/
def fieldList {α : Type} : List (Field α) → Bool → α → Text → Except Fault (α × Text)
  | [], _, value, t => do .ok (value, ← listEnd t)
  | field :: fields, first, value, t => do
    match ← nextElement first t with
    | some t =>
      let (change, t) ← field.read t
      fieldList fields false (change value) t
    | none =>
      if (field :: fields).all (·.presence = .defaulted) then .ok (value, ← listEnd t)
      else .error .malformed

/-- A member of a record's object. -/
def fieldMember {α : Type} (fields : List (Field α)) (name : Text) (draft : Draft α) (t : Text) :
    Except Fault (Draft α × Text) :=
  match fields.find? (·.name = name) with
  | some field =>
    if name ∈ draft.present then .error .malformed
    else do
      let (change, t) ← field.read (← colon t)
      .ok ({ value := change draft.value, present := name :: draft.present }, t)
  | none => do .ok (draft, ← skipValue .form (← colon t))

/-- A record; fields that are missing are as in `initial`. -/
def record {α : Type} (fields : List (Field α)) (initial : α) (t : Text) :
    Except Fault (α × Text) :=
  match skipSpace t with
  | [] => .error .truncated
  | '[' :: t => fieldList fields true initial t
  | '{' :: t => do
    let (draft, t) ← members (fieldMember fields) (t.length + 1) true { value := initial } t
    if fields.all fun field => field.presence ≠ .needed || draft.present.contains field.name then
      .ok (draft.value, t)
    else .error .malformed
  | t => .error (mismatch t)

/-- A whole text that holds one value. -/
def document {α : Type} (read : Text → Except Fault (α × Text)) (t : Text) : Except Fault α := do
  let (a, t) ← read t
  if (skipSpace t).isEmpty then .ok a else .error .malformed

end DebugClient.Json
