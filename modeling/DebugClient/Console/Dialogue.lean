import DebugClient.Console.Channel
import DebugClient.Console.Stepping

/-!
The dialogue with the debugger: all that changes when output arrives or a command is given, with no
regard to how bytes travel.
-/

namespace DebugClient

structure Dialogue where
  channel : Channel
  steps : StepState := .idle
  catalogue : Catalogue := {}
  /-- Whether the target has ended since it was last run. -/
  exited : Bool := false
  deriving DecidableEq, Repr

namespace Dialogue
open Text

def attached (detector : PromptDetector) : Dialogue := { channel := .attached detector }

/-- A dialogue without a debugger. -/
def detached (detector : PromptDetector) : Dialogue := { channel := .detached detector }

def isRunning (dialogue : Dialogue) : Bool := dialogue.channel.isRunning

def isIdle (dialogue : Dialogue) : Bool := dialogue.channel.isIdle

/-- Give a command in the foreground: it is refused if another one is in flight. -/
def submit (command : Command) (ticket : Option Nat) (dialogue : Dialogue) :
    Except SessionError Unit × Dialogue :=
  match dialogue.channel.issue command ticket with
  | (.ok (), channel) =>
    (.ok (), { dialogue with
      channel, exited := if command.kind = .run then false else dialogue.exited })
  | (.error e, channel) => (.error e, { dialogue with channel })

/-- Give a command in the background: it waits for its turn. -/
def enqueue (command : Command) (dialogue : Dialogue) : Except SessionError Unit × Dialogue :=
  if dialogue.isRunning then
    let (result, channel) := (dialogue.channel.enqueue command).dispatchNext
    (result.map fun _ => (), { dialogue with channel })
  else (.error .notRunning, dialogue)

/-- The target has ended: nothing waits for it any longer. -/
def markExited (dialogue : Dialogue) : Dialogue :=
  { dialogue with exited := true, steps := .idle, channel := dialogue.channel.clearQueue }

/-- A list of functions replaces the catalogue, even one with no entry. -/
def refreshCatalogue (response : Response) (dialogue : Dialogue) : Dialogue :=
  if response.command.kind = .infoFunctions then
    { dialogue with catalogue := (Catalogue.read response.text).toOption.getD {} }
  else dialogue

/-- Whether a completed response is shown as a whole. -/
def showsWhole (outcome : StepOutcome) (response : Response) : Bool :=
  !outcome.suppress &&
    (outcome.reveal || (response.command.kind = .step && response.display))

/-- The response, marked by whether it was displayed. -/
def decideDisplay (outcome : StepOutcome) (response : Response) : Response :=
  { response with
    display := if outcome.suppress then false else outcome.reveal || response.display }

/-- Let the next background command have the slot. If it cannot be written the debugger is gone. -/
def dispatchNext (dialogue : Dialogue) : Dialogue :=
  match dialogue.channel.dispatchNext with
  | (.ok _, channel) => { dialogue with channel }
  | (.error _, channel) => { dialogue with channel := channel.terminate }

/-- A command has completed: what of its output is shown now, and what follows from it. -/
def complete (completion : Completion) (dialogue : Dialogue) : List Text × Dialogue :=
  let dialogue := dialogue.refreshCatalogue completion.response
  let (outcome, steps) := dialogue.steps.observe completion.response.command.kind
    completion.response.text dialogue.catalogue
  let dialogue := { dialogue with steps }
  let shown := completion.tail.toList ++
    (if showsWhole outcome completion.response then [completion.response.text] else [])
  let dialogue :=
    if Stop.announcesExit completion.response.text then dialogue.markExited
    else match outcome.followUp with
      | some command => { dialogue with channel := dialogue.channel.enqueue command }
      | none => dialogue
  let response := decideDisplay outcome completion.response
  let channel := dialogue.channel.respond { completion with response }
  (shown, { dialogue with channel }.dispatchNext)

/-- Take in a chunk of output; gives the texts to be shown. White space that nobody waits for is
    what remains of a prompt. -/
def onOutput (chunk : Text) (dialogue : Dialogue) : List Text × Dialogue :=
  let (fed, channel) := dialogue.channel.feed chunk
  let dialogue := { dialogue with channel }
  match fed with
  | .unsolicited text =>
    if (trim text).isEmpty then ([], dialogue)
    else ([text], if Stop.announcesExit text then dialogue.markExited else dialogue)
  | .pending text => (text.toList, dialogue)
  | .complete completion => dialogue.complete completion

/-- Give up on the command in flight, all that waits behind it and any skip in progress. -/
def abort (dialogue : Dialogue) : Option Command × Dialogue :=
  let (command, channel) := dialogue.channel.abort
  (command, { dialogue with channel, steps := .idle })

/-- The debugger's output has closed. -/
def onClosed (dialogue : Dialogue) : Dialogue :=
  { dialogue with channel := dialogue.channel.terminate, steps := .idle }

end Dialogue
end DebugClient
