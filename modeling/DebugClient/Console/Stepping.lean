import DebugClient.Console.Command
import DebugClient.Reply.Catalogue
import DebugClient.Reply.Stop

/-!
Stepping over calls into functions that do not belong to the target.

A `step` that lands in such a function is hidden and followed by a hidden `finish`. If that leads
back to the line that the step started from, a visible `next` goes past the call; if it leads
anywhere else, its own output is shown.
-/

namespace DebugClient

inductive StepState where
  | idle
  /-- A `finish` is on its way to leave a function entered from the line `finishFrom`. -/
  | awaitingSkipDecision (finishFrom : Option Nat)
  deriving DecidableEq, Repr

/-- What is to be done about a response. -/
structure StepOutcome where
  /-- Hide the response. -/
  suppress : Bool := false
  /-- Show the response although its command was not meant for display. -/
  reveal : Bool := false
  followUp : Option Command := none
  deriving DecidableEq, Repr

namespace StepState
open Stop

/-- Whether the reply enters a function that is not in the catalogue. -/
def entersUnknown (catalogue : Catalogue) (reply : Text) : Bool :=
  (callSites reply).any fun name => !catalogue.contains name

/-- Decide about the reply to a command of the given kind. -/
def observe (kind : CommandKind) (reply : Text) (catalogue : Catalogue) :
    StepState → StepOutcome × StepState
  | .idle =>
    if kind = .step ∧ entersUnknown catalogue reply then
      ({ suppress := true, followUp := some (.ofText "finish".toList false) },
        .awaitingSkipDecision (stoppedLine reply))
    else ({}, .idle)
  | .awaitingSkipDecision finishFrom =>
    if stoppedLine reply = finishFrom then
      ({ followUp := some (.ofText "next".toList true) }, .idle)
    else ({ reveal := true }, .idle)

end StepState
end DebugClient
