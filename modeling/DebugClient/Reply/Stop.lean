import DebugClient.Text.Numeral
import DebugClient.Reply.Entry

/-!
What a reply says about where the target stopped: the source line, the functions entered on the
way, and whether the target is still there.
-/

namespace DebugClient.Stop
open Text CharClass Numeral

/-- The number at the front of a source line shown by the debugger. -/
def lineNumber? (line : Text) : Option Nat := do
  let (digits, rest) ← run? isDigit line
  let next ← rest.head?
  if isBlank next then decimal? largest32 digits else none

/-- The line stopped at: the last numbered one, as earlier ones usually belong to library code. -/
def stoppedLine (reply : Text) : Option Nat := ((lines reply).filterMap lineNumber?).getLast?

/-- Names of the functions entered, in order. -/
def callSites (reply : Text) : List Text :=
  (lines reply).filterMap fun line => (Entry.read? line).map (·.1)

/-- A character without its case. The long s is a form of `s`. -/
def foldCase (c : Char) : Char := if c = 'ſ' then 's' else c.toLower

/-- Notices of the target's end that have no variable part. -/
def exitPhrases : List Text :=
  ["program exited normally", "exited with code", "exited normally", "not being run"].map
    String.toList

/-- Whether the text begins with `process NUMBER) exited`. -/
def beginsProcessExit (t : Text) : Bool :=
  ((after? "process ".toList t).bind fun t => (skip? isDigit t).bind fun t =>
    after? ") exited".toList t).isSome

def processExitIn : Text → Bool
  | [] => false
  | c :: t => beginsProcessExit (c :: t) || processExitIn t

/-- Whether the reply says, in any letter case, that the target has ended. -/
def announcesExit (reply : Text) : Bool :=
  let folded := reply.map foldCase
  processExitIn folded || exitPhrases.any fun phrase => occursIn phrase folded

end DebugClient.Stop
