import DebugClient.Text.Basic

/-!
The output of the command in flight. Part of it may have been handed out for display already; what
has been handed out is never handed out again.
-/

namespace DebugClient

/-- Output so far: the part handed out, and the part held back behind it. -/
structure CarryBuffer where
  streamed : Text := []
  held : Text := []
  deriving DecidableEq, Repr

namespace CarryBuffer
open Text

def text (carry : CarryBuffer) : Text := carry.streamed ++ carry.held

def isEmpty (carry : CarryBuffer) : Bool := carry.text.isEmpty

def push (chunk : Text) (carry : CarryBuffer) : CarryBuffer :=
  { carry with held := carry.held ++ chunk }

@[simp] theorem text_push (chunk : Text) (carry : CarryBuffer) :
    (carry.push chunk).text = carry.text ++ chunk := by
  simp [push, text]

/-- Hand out what is held up to byte `stop` of the text. Nothing is handed out if that place has
    been passed or lies inside a character. -/
def takeUnstreamed (stop : Nat) (carry : CarryBuffer) : Option Text × CarryBuffer :=
  let stop := min stop (byteLength carry.text)
  let start := byteLength carry.streamed
  if stop ≤ start then (none, carry)
  else match splitAtByte? (stop - start) carry.held with
    | some (out, held) => (some out, { streamed := carry.streamed ++ out, held })
    | none => (none, carry)

/-- The text in front of byte `stop`, as the output of the command. The buffer it leaves is the
    empty one. -/
def finish (stop : Nat) (carry : CarryBuffer) : Text × CarryBuffer :=
  (takeBytes stop carry.text, {})

/-- Drop all output. -/
def clear (_ : CarryBuffer) : CarryBuffer := {}

end CarryBuffer
end DebugClient
