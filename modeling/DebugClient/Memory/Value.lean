import DebugClient.Text.Basic

/-!
Values of the target program, each with what it held before.
-/

namespace DebugClient

/-- Where a value lives. -/
inductive Location where
  /-- A frame of the call stack, the outermost one being number 0. -/
  | stack (frame : Nat)
  | heap
  deriving DecidableEq, Repr

/-- A place in an array, whatever the element there holds. -/
structure ArraySlot where
  start : Nat
  index : Nat
  length : Nat
  deriving DecidableEq, Repr

mutual
/-- What a value holds. -/
inductive ValueData where
  | uninitialized
  | scalar (text : Text)
  | pointer (target : Nat)
  /-- The fields of a struct, which belong to it. -/
  | fields (fields : List Value)

/-- A value of the target. -/
structure Value where
  name : Text
  /-- Empty while the type is unknown. -/
  type : Text
  address : Option Nat
  size : Option Nat
  location : Location
  slot : Option ArraySlot
  data : ValueData
  /-- What the value held before, the latest first. -/
  history : List ValueData
end

instance : Inhabited ValueData := ⟨.uninitialized⟩

namespace Value

/-- A value that has not been assigned yet. -/
def fresh (name type : Text) (location : Location) : Value :=
  { name, type, address := none, size := none, location, slot := none, data := .uninitialized
    history := [] }

instance : Inhabited Value := ⟨fresh [] [] .heap⟩

def isUninitialized (value : Value) : Bool :=
  match value.data with
  | .uninitialized => true
  | _ => false

/-- The fields of a struct; other values have none. -/
def fields (value : Value) : List Value :=
  match value.data with
  | .fields fields => fields
  | _ => []

/-- Put new data into the value and remember the old. -/
def assign (data : ValueData) (value : Value) : Value :=
  { value with data, history := value.data :: value.history }

/-- Undo the latest assignment, if there was one. -/
def rollback (value : Value) : Value :=
  match value.history with
  | [] => value
  | previous :: earlier => { value with data := previous, history := earlier }

@[simp] theorem rollback_assign (data : ValueData) (value : Value) :
    (value.assign data).rollback = value := by
  cases value
  rfl

end Value

/-! Whether two values are the same, histories included, can be decided. -/

mutual
def ValueData.decEq : (a b : ValueData) → Decidable (a = b)
  | .uninitialized, .uninitialized => isTrue rfl
  | .scalar s, .scalar t => if h : s = t then isTrue (h ▸ rfl) else isFalse (by simp [h])
  | .pointer m, .pointer n => if h : m = n then isTrue (h ▸ rfl) else isFalse (by simp [h])
  | .fields fs, .fields gs =>
    match Value.decEqList fs gs with
    | isTrue h => isTrue (h ▸ rfl)
    | isFalse h => isFalse (by simp [h])
  | .uninitialized, .scalar _ | .uninitialized, .pointer _ | .uninitialized, .fields _
  | .scalar _, .uninitialized | .scalar _, .pointer _ | .scalar _, .fields _
  | .pointer _, .uninitialized | .pointer _, .scalar _ | .pointer _, .fields _
  | .fields _, .uninitialized | .fields _, .scalar _ | .fields _, .pointer _ => isFalse (by simp)

def Value.decEq : (a b : Value) → Decidable (a = b)
  | ⟨name, type, address, size, location, slot, data, history⟩,
    ⟨name', type', address', size', location', slot', data', history'⟩ =>
    if h : name = name' ∧ type = type' ∧ address = address' ∧ size = size' ∧
        location = location' ∧ slot = slot' then
      match ValueData.decEq data data', ValueData.decEqList history history' with
      | isTrue hdata, isTrue hhistory => isTrue (by simp [h, hdata, hhistory])
      | isFalse hdata, _ => isFalse (by simp [hdata])
      | _, isFalse hhistory => isFalse (by simp [hhistory])
    else isFalse (by
      intro heq
      injection heq
      exact h ⟨‹_›, ‹_›, ‹_›, ‹_›, ‹_›, ‹_›⟩)

def Value.decEqList : (xs ys : List Value) → Decidable (xs = ys)
  | [], [] => isTrue rfl
  | [], _ :: _ | _ :: _, [] => isFalse (by simp)
  | x :: xs, y :: ys =>
    match Value.decEq x y, Value.decEqList xs ys with
    | isTrue hx, isTrue hxs => isTrue (hx ▸ hxs ▸ rfl)
    | isFalse hx, _ => isFalse (by simp [hx])
    | _, isFalse hxs => isFalse (by simp [hxs])

def ValueData.decEqList : (xs ys : List ValueData) → Decidable (xs = ys)
  | [], [] => isTrue rfl
  | [], _ :: _ | _ :: _, [] => isFalse (by simp)
  | x :: xs, y :: ys =>
    match ValueData.decEq x y, ValueData.decEqList xs ys with
    | isTrue hx, isTrue hxs => isTrue (hx ▸ hxs ▸ rfl)
    | isFalse hx, _ => isFalse (by simp [hx])
    | _, isFalse hxs => isFalse (by simp [hxs])
end

instance : DecidableEq ValueData := ValueData.decEq

instance : DecidableEq Value := Value.decEq

end DebugClient
