import DebugClient.Memlog.Event
import DebugClient.Memory.ProgramState

/-!
What an event of the memory log does to the picture of the target.
-/

namespace DebugClient
open Text Numeral

namespace Memlog

/-- An address in the log: hexadecimal behind `0x` or `0X`. -/
def address? (t : Text) : Option Nat :=
  match trim t with
  | '0' :: 'x' :: digits | '0' :: 'X' :: digits => hex? largest64 digits
  | _ => none

/-- Bytes from two digits each. -/
def decodeHex? : Text → Option (List Nat)
  | [] => some []
  | [_] => none
  | c :: d :: t => do
    let byte ← hex? 255 [c, d]
    let bytes ← decodeHex? t
    some (byte :: bytes)

/-- The number that bytes give, the lowest first. -/
def littleEndian (bytes : List Nat) : Nat := bytes.foldr (fun byte high => byte + 256 * high) 0

/-- What a store of `length` bytes leaves behind: a number if there are up to eight of them, and
    the digits themselves otherwise. -/
def storedData? (bytes : Text) (length : Nat) : Option ValueData := do
  let raw ← decodeHex? bytes
  if length ≤ 8 ∧ raw.length = length then some (.scalar (decimal (littleEndian raw)))
  else some (.scalar ('0' :: 'x' :: bytes.map Char.toLower))

/-- The type of so many bytes. -/
def unsignedType (length : Nat) : Text :=
  if length = 1 ∨ length = 2 ∨ length = 4 ∨ length = 8 then 'u' :: decimal (length * 8)
  else "byte[".toList ++ decimal length ++ [']']

/-- A value on the heap, named for its address. -/
def heapValue (address length : Nat) : Value :=
  { Value.fresh ('*' :: Numeral.address address) (unsignedType length) .heap with
    address := some address, size := some length }

/-- The place of a store among stores of the same length that fill the block. -/
def slotIn (start blockLength address length : Nat) : ArraySlot :=
  { start, index := (address - start) / length, length := max (blockLength / length) 1 }

end Memlog

namespace ProgramState
open Memlog

/-- Apply one event; gives the value that it touched, if any. A block is a value of its own until
    something is stored at its start. -/
def applyMemlog (event : MemlogEvent) (state : ProgramState) : Option Nat × ProgramState :=
  match event with
  | .alloc _ pointer length =>
    match address? pointer with
    | none => (none, state)
    | some address =>
      let (id, state) :=
        (state.recordAllocation address length).recordValue (heapValue address length)
      (some id, state)
  | .store _ pointer length bytes =>
    match address? pointer, storedData? bytes length with
    | some address, some data =>
      match state.idAt? address with
      | some id =>
        (some id, state.modifyValue id fun value =>
          if value.data = data then value else value.assign data)
      | none =>
        match state.allocationContaining? address with
        | none => (none, state)
        | some start =>
          let value := heapValue address length
          let value :=
            if length = 0 then value
            else
              let blockLength := (state.allocationLength? start).getD length
              { value with slot := some (slotIn start blockLength address length) }
          let (id, state) := state.recordValue (value.assign data)
          (some id, state)
    | _, _ => (none, state)
  | .localVariable .. => (none, state)

end ProgramState
end DebugClient
