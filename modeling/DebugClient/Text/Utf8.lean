import DebugClient.Text.Basic

/-!
UTF-8, one byte at a time. A sequence that is not a character is one fault, however many of its
bytes could still have begun a character; the byte that broke it off may begin the next.
-/

namespace DebugClient.Utf8

/-- What a stretch of bytes stands for. -/
inductive Decoded where
  | char (c : Char)
  | fault
  deriving DecidableEq, Repr

/-- Where the decoder stands between two bytes. -/
inductive State where
  | start
  /-- Inside a character: how many of its bytes have been read and what they contribute, how many
      are missing behind the next one, and the bounds of the next one. -/
  | inside (read code missing low high : Nat)
  deriving DecidableEq, Repr

/-- A byte that begins a character. -/
def first (b : Nat) : List Decoded × State :=
  if b < 0x80 then ([.char (Char.ofNat b)], .start)
  else if 0xC2 ≤ b ∧ b ≤ 0xDF then ([], .inside 1 (b - 0xC0) 0 0x80 0xBF)
  else if b = 0xE0 then ([], .inside 1 0 1 0xA0 0xBF)
  else if b = 0xED then ([], .inside 1 0xD 1 0x80 0x9F)
  else if 0xE1 ≤ b ∧ b ≤ 0xEF then ([], .inside 1 (b - 0xE0) 1 0x80 0xBF)
  else if b = 0xF0 then ([], .inside 1 0 2 0x90 0xBF)
  else if 0xF1 ≤ b ∧ b ≤ 0xF3 then ([], .inside 1 (b - 0xF0) 2 0x80 0xBF)
  else if b = 0xF4 then ([], .inside 1 4 2 0x80 0x8F)
  else ([.fault], .start)

def step (state : State) (b : Nat) : List Decoded × State :=
  match state with
  | .start => first b
  | .inside read code missing low high =>
    if low ≤ b ∧ b ≤ high then
      let code := code * 64 + (b - 0x80)
      match missing with
      | 0 => ([.char (Char.ofNat code)], .start)
      | missing + 1 => ([], .inside (read + 1) code missing 0x80 0xBF)
    else
      let (out, state) := first b
      (.fault :: out, state)

def run : State → List UInt8 → List Decoded × State
  | state, [] => ([], state)
  | state, b :: bytes =>
    let (out, state) := step state b.toNat
    let (others, state) := run state bytes
    (out ++ others, state)

/-- A character, or U+FFFD for a fault. -/
def Decoded.toChar : Decoded → Char
  | .char c => c
  | .fault => '\uFFFD'

/-- The text that the bytes encode. -/
def decode? (bytes : List UInt8) : Option Text :=
  match run .start bytes with
  | (out, .start) => if .fault ∈ out then none else some (out.map Decoded.toChar)
  | (_, .inside ..) => none

/-- How many bytes of an unfinished character have been read. -/
def State.bytesRead : State → Nat
  | .start => 0
  | .inside read .. => read

/-- Decode the bytes that have come in so far; gives the text and the bytes to keep for later. An
    unfinished character at the end waits for more. But if the bytes hold a fault, all of them are
    decoded, and an unfinished character is a fault as well. -/
def decodeArrived (bytes : List UInt8) : Text × List UInt8 :=
  let (out, state) := run .start bytes
  if .fault ∈ out then
    let out := if state = .start then out else out ++ [.fault]
    (out.map Decoded.toChar, [])
  else (out.map Decoded.toChar, bytes.drop (bytes.length - state.bytesRead))

/-- The lines of an encoded text. No byte of a longer character is a line feed or a carriage
    return. -/
def lines (bytes : List UInt8) : List (List UInt8) :=
  Text.linesOfPieces 13 (Text.pieces (· == 10) bytes)

def encode (t : Text) : List UInt8 := t.flatMap String.utf8EncodeChar

end DebugClient.Utf8
