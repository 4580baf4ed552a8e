import DebugClient.Text.Numeral
import DebugClient.Reply.Entry
import DebugClient.Reply.Unrecognised

/-!
Backtraces, one frame a line and the innermost first:

    #1  0x000055555555513d in helper (x=1) at main.c:7

The arguments end at the last closing parenthesis of the line, whatever they look like inside.
-/

namespace DebugClient

/-- One line of a backtrace. -/
structure StackFrame where
  function : Text
  index : Nat
  file : Option Text := none
  line : Option Nat := none
  deriving DecidableEq, Repr

namespace Backtrace
open Text CharClass Numeral

/-- `FILE:LINE` cut at its last colon that has a digit behind it and a file name before it. -/
def splitPosition? : Text → Option (Text × Text)
  | [] => none
  | c :: t =>
    match splitPosition? t with
    | some (file, line) => some (c :: file, line)
    | none =>
      match t with
      | ':' :: d :: rest => if isDigit d then some ([c], (d :: rest).takeWhile isDigit) else none
      | _ => none

/-- The file and the digits of the line in ` at FILE:LINE`. -/
def position? (t : Text) : Option (Text × Text) := do
  let t ← skip? isBlank t
  let t ← after? "at".toList t
  let t ← skip? isBlank t
  splitPosition? (t.takeWhile (!isBlank ·))

/-- The frame on a line, if there is one. A frame number beyond 64 bits makes it no frame; a line
    number beyond 32 bits is left out. -/
def frame? (line : Text) : Option StackFrame := do
  let t ← after? "#".toList (trimStart line)
  let (digits, t) ← run? isDigit t
  let t ← skip? isBlank t
  let (function, t) ← Entry.read? t
  let (_, tail) ← splitLast? ')' t
  let index ← decimal? largest64 digits
  let position := position? tail
  some {
    function, index
    file := position.map (·.1)
    line := position.bind fun (_, digits) => decimal? largest32 digits }

def frames (reply : Text) : List StackFrame := (lines reply).filterMap frame?

/-- The frames of a reply, innermost first; lines that are not frames are passed over. -/
def read (reply : Text) : Except Unrecognised (List StackFrame) :=
  Unrecognised.stackFrames.unlessEmpty (frames reply)

end Backtrace
end DebugClient
