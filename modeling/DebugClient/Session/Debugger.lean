import DebugClient.Text.Basic

/-!
The debugger at the other end of a session.
-/

namespace DebugClient

/-- What a debugger does when a line reaches it. -/
structure Reaction where
  /-- What it puts out, its prompt included. -/
  output : List UInt8 := []
  /-- Whether it exits after that. -/
  closes : Bool := false
  /-- What the target has appended to the memory log before. -/
  memlog : List UInt8 := []
  /-- How long it is at that, in nanoseconds. -/
  duration : Nat := 0
  deriving DecidableEq, Repr

/-- How a debugger behaves, its states being in `σ`. -/
structure Debugger (σ : Type) where
  /-- What it does when it starts. -/
  greet : σ → Reaction × σ
  /-- What it does when it has received a line. -/
  answer : Text → σ → Reaction × σ
  /-- Whether it leaves a line until somebody waits. -/
  lingers : Text → σ → Bool := fun _ _ => false

end DebugClient
