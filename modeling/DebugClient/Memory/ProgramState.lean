import DebugClient.Memory.AddressMap
import DebugClient.Memory.Rendering
import DebugClient.Reply.Backtrace

/-!
The stack and heap of the target, as far as they have been observed.

A value is kept for the whole session under the number it got when it was first recorded. When a
frame is popped its locals stay, but they no longer own their addresses: the next call that uses
the same piece of stack starts with values of its own.
-/

namespace DebugClient

/-- A frame of the call stack. -/
structure Frame where
  name : Text
  /-- The place in the call stack, the outermost frame first. -/
  index : Nat
  values : List Nat := []
  deriving DecidableEq, Repr

structure ProgramState where
  /-- Outermost first. -/
  frames : List Frame := []
  values : Array Value := #[]
  /-- The owner of each address. -/
  byAddress : AddressMap Nat := .empty
  /-- The owners that live on the heap. -/
  heap : AddressMap Nat := .empty
  /-- Heap blocks: from the start of each to its length in bytes. -/
  allocations : AddressMap Nat := .empty
  deriving DecidableEq

namespace ProgramState

instance : Inhabited ProgramState := ⟨{}⟩

/-! The call stack. -/

def pushFrame (name : Text) (state : ProgramState) : ProgramState :=
  { state with frames := state.frames ++ [{ name, index := state.frames.length }] }

/-- Take its address from a value, if the value owns it. -/
def disown (id : Nat) (state : ProgramState) : ProgramState :=
  match state.values[id]?.bind (·.address) with
  | some address =>
    if state.byAddress.find? address = some id then
      { state with byAddress := state.byAddress.erase address }
    else state
  | none => state

/-- Leave the innermost frame. -/
def popFrame (state : ProgramState) : ProgramState :=
  match state.frames.getLast? with
  | none => state
  | some frame =>
    frame.values.foldl (fun state id => state.disown id)
      { state with frames := state.frames.dropLast }

def popFrames : Nat → ProgramState → ProgramState
  | 0, state => state
  | n + 1, state => popFrames n state.popFrame

def currentFrame? (state : ProgramState) : Option Frame := state.frames.getLast?

/-- The values of a frame, in the order they were attached. -/
def frameValues (frame : Nat) (state : ProgramState) : List Value :=
  match state.frames[frame]? with
  | some frame => frame.values.filterMap fun id => state.values[id]?
  | none => []

/-- How many frames, from the outermost on, have the given names. -/
def sharedFrames : List Frame → List Text → Nat
  | frame :: frames, name :: names =>
    if frame.name = name then sharedFrames frames names + 1 else 0
  | _, _ => 0

/-- Make the stack match a backtrace: the frames from the first difference on are left, and the
    rest of the backtrace is entered. -/
def syncFrames (backtrace : List StackFrame) (state : ProgramState) : ProgramState :=
  let names := backtrace.reverse.map (·.function)
  let shared := sharedFrames state.frames names
  (names.drop shared).foldl (fun state name => state.pushFrame name)
    (state.popFrames (state.frames.length - shared))

/-! Looking values up. -/

def idAt? (address : Nat) (state : ProgramState) : Option Nat :=
  state.byAddress.find? address

def valueAt? (address : Nat) (state : ProgramState) : Option Value :=
  (state.idAt? address).bind fun id => state.values[id]?

def heapValues (state : ProgramState) : List Value :=
  state.heap.values.filterMap fun id => state.values[id]?

/-! Recording and observing values. -/

def modifyValue (id : Nat) (change : Value → Value) (state : ProgramState) : ProgramState :=
  { state with values := state.values.modify id change }

/-- Change the value that owns an address. -/
def modifyAt (address : Nat) (change : Value → Value) (state : ProgramState) : ProgramState :=
  match state.idAt? address with
  | some id => state.modifyValue id change
  | none => state

/-- A frame after a value has come to live at a location. -/
def Frame.adopt (id : Nat) (location : Location) (frame : Frame) : Frame :=
  if location = .stack frame.index then
    if id ∈ frame.values then frame else { frame with values := frame.values ++ [id] }
  else { frame with values := frame.values.filter (· ≠ id) }

/-- List a value where its location says, and nowhere else. -/
def attach (id : Nat) (state : ProgramState) : ProgramState :=
  match state.values[id]? with
  | none => state
  | some value =>
    let heap := match value.address with
      | none => state.heap
      | some address =>
        if value.location = .heap then state.heap.insert address id else state.heap.erase address
    { state with heap, frames := state.frames.map (Frame.adopt id value.location) }

/-- Record a value. One that is already known at the same address is replaced. -/
def recordValue (value : Value) (state : ProgramState) : Nat × ProgramState :=
  match value.address.bind fun address => state.idAt? address with
  | some id => (id, (state.modifyValue id fun _ => value).attach id)
  | none =>
    let id := state.values.size
    let byAddress := match value.address with
      | some address => state.byAddress.insert address id
      | none => state.byAddress
    (id, { state with byAddress, values := state.values.push value }.attach id)

/-- The value that an observed one may be another sight of: the owner of its address or, without an
    address, the value of the same name in its frame that is no array member. -/
def findExisting? (value : Value) (state : ProgramState) : Option Nat :=
  match value.address, value.location with
  | some address, _ => state.idAt? address
  | none, .heap => none
  | none, .stack frame =>
    state.frames[frame]?.bind fun frame => frame.values.find? fun id =>
      state.values[id]?.any fun known => known.name = value.name ∧ known.slot.isNone

/-- A known value after another sight of it: new data is assigned, so that its history grows, and
    its type is learnt if it was unknown. -/
def updated (known seen : Value) : Value :=
  let known := if known.data = seen.data then known else known.assign seen.data
  if known.type.isEmpty then { known with type := seen.type } else known

/-- Take note of a value seen at a stop. Another variable at a known address replaces the old
    one. -/
def observe (value : Value) (state : ProgramState) : Nat × ProgramState :=
  match state.findExisting? value with
  | none => state.recordValue value
  | some id =>
    match state.values[id]? with
    | none => state.recordValue value
    | some known =>
      if known.name = value.name ∧ known.location = value.location then
        (id, (state.modifyValue id fun known => updated known value).attach id)
      else state.recordValue value

/-! Heap blocks. -/

def recordAllocation (start : Nat) (length : Nat) (state : ProgramState) : ProgramState :=
  { state with allocations := state.allocations.insert start length }

def allocationLength? (start : Nat) (state : ProgramState) : Option Nat :=
  state.allocations.find? start

/-- The start of the block that contains an address. Only the block that starts nearest below it is
    asked, and no block reaches the last address of all. -/
def allocationContaining? (address : Nat) (state : ProgramState) : Option Nat :=
  match state.allocations.floor? address with
  | some (start, length) =>
    if address < min (start + length) Numeral.largest64 then some start else none
  | none => none

/-! Undoing and describing. -/

/-- Undo the latest assignment at an address; gives the value as it is then. -/
def rollbackAt (address : Nat) (state : ProgramState) : Option Value × ProgramState :=
  let state := state.modifyAt address Value.rollback
  (state.valueAt? address, state)

/-- A title between two rules. -/
def heading (title : Text) : Text :=
  let rule := List.replicate 72 '='
  rule ++ ['\n'] ++ title ++ ['\n'] ++ rule ++ ['\n']

def describeFrame (state : ProgramState) (frame : Frame) : Text :=
  "\nStack Frame (".toList ++ Numeral.decimal frame.index ++ "): ".toList ++ frame.name ++ ['\n'] ++
    Value.renderList 1 (state.frameValues frame.index)

/-- The whole state as text. -/
def describe (state : ProgramState) : Text :=
  heading "STACK:".toList ++ state.frames.flatMap state.describeFrame ++
    '\n' :: heading "HEAP:".toList ++ Value.renderList 0 state.heapValues

end ProgramState
end DebugClient
