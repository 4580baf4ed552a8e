import DebugClient.Proofs.Console.Slot

/-!
Runs of a dialogue, with a chronicle of what can be seen of them: which commands took the slot and how
they left it, which background commands were accepted and which were dropped, and why.
-/

namespace DebugClient

/-- What may happen to a dialogue. -/
inductive Stimulus where
  | submit (command : Command) (ticket : Option Nat)
  | enqueue (command : Command)
  | output (chunk : Text)
  | abort
  | close
  /-- From now on writing to the debugger works, or it fails. -/
  | allowWriting (accepting : Bool)
  deriving DecidableEq, Repr

/-- How a command leaves the slot. -/
inductive Departure where
  | completed
  | aborted
  | terminated
  deriving DecidableEq, Repr

/-- Why a background command is dropped. -/
inductive DropCause where
  | exited
  | aborted
  | terminated
  | unwritten
  deriving DecidableEq, Repr

/-- What can be noted of a run. -/
inductive Event where
  /-- A command took the slot in the foreground. -/
  | submitted (command : Command)
  /-- A command took the slot from the queue. -/
  | dispatched (command : Command)
  /-- The command in the slot left it. -/
  | left (departure : Departure)
  /-- A background command was accepted. -/
  | accepted (command : Command)
  | dropped (command : Command) (cause : DropCause)
  /-- The debugger was given up. -/
  | closed
  deriving DecidableEq, Repr

namespace Event

/-- The command that took the slot. -/
def taker? : Event → Option Command
  | .submitted command | .dispatched command => some command
  | _ => none

/-- The background command that was accepted. -/
def accepted? : Event → Option Command
  | .accepted command => some command
  | _ => none

/-- The background command whose waiting ended. -/
def settled? : Event → Option Command
  | .dispatched command | .dropped command _ => some command
  | _ => none

end Event

namespace Dialogue

def allowWriting (accepting : Bool) (dialogue : Dialogue) : Dialogue :=
  { dialogue with channel := { dialogue.channel with
      outlet := dialogue.channel.outlet.map fun outlet => { outlet with accepting } } }

def perform : Stimulus → Dialogue → Dialogue
  | .submit command ticket, dialogue => (dialogue.submit command ticket).2
  | .enqueue command, dialogue => (dialogue.enqueue command).2
  | .output chunk, dialogue => (dialogue.onOutput chunk).2
  | .abort, dialogue => dialogue.abort.2
  | .close, dialogue => dialogue.onClosed
  | .allowWriting accepting, dialogue => dialogue.allowWriting accepting

/-- What becomes of the commands waiting when the oldest of them could not be written. -/
def lossEvents : List Command → List Event
  | [] => []
  | command :: others => .dropped command .unwritten :: others.map (.dropped · .terminated)

/-- What is noted when the free slot has been offered to the commands waiting. -/
def dispatchEvents (waiting : List Command) (after : Channel) : List Event :=
  match after.inFlight with
  | some flight => [.dispatched flight.command]
  | none => if after.isRunning then [] else lossEvents waiting ++ [.closed]

/-- What is noted when a response has completed. -/
def settleEvents (response : Response) (dialogue : Dialogue) : List Event :=
  if Stop.announcesExit response.text then dialogue.channel.queue.map (.dropped · .exited)
  else (dialogue.verdict response).1.followUp.toList.map .accepted

/-- What can be noted of a stimulus. -/
def events (stimulus : Stimulus) (dialogue : Dialogue) : List Event :=
  match stimulus with
  | .submit command ticket =>
    match (dialogue.submit command ticket).1 with
    | .ok _ => [.submitted command]
    | .error _ => []
  | .enqueue command =>
    match (dialogue.enqueue command).1 with
    | .ok _ => .accepted command ::
      if dialogue.channel.inFlight.isNone then
        dispatchEvents (dialogue.channel.queue ++ [command]) (dialogue.enqueue command).2.channel
      else []
    | .error _ => []
  | .output chunk =>
    match (dialogue.channel.feed chunk).1 with
    | .unsolicited text =>
      if Stop.announcesExit text then dialogue.channel.queue.map (.dropped · .exited) else []
    | .pending _ => []
    | .complete completion =>
      .left .completed :: (settleEvents completion.response dialogue ++
        dispatchEvents (dialogue.waitingAfter completion.response)
          (dialogue.onOutput chunk).2.channel)
  | .abort =>
    (dialogue.channel.inFlight.toList.map fun _ => .left .aborted) ++
      dialogue.channel.queue.map (.dropped · .aborted)
  | .close =>
    (dialogue.channel.inFlight.toList.map fun _ => .left .terminated) ++
      dialogue.channel.queue.map (.dropped · .terminated) ++ [.closed]
  | .allowWriting _ => []

/-- A chunk that completes a command is noted with what follows from the response, and with what has
    the slot then. -/
theorem events_of_complete {chunk awaited : Text} {completion : Completion} {dialogue : Dialogue}
    (hfeed : (dialogue.channel.feed chunk).1 = .complete completion)
    (hafter : (dialogue.onOutput chunk).2 =
      ((dialogue.vacate awaited).settle completion).dispatchNext) :
    dialogue.events (.output chunk) = .left .completed ::
      (settleEvents completion.response (dialogue.vacate awaited) ++
        dispatchEvents ((dialogue.vacate awaited).settle completion).channel.queue
          ((dialogue.vacate awaited).settle completion).dispatchNext.channel) := by
  simp only [events, hfeed, hafter, settleEvents, settle, waitingAfter, verdict_vacate]
  rfl

end Dialogue

/-- What it takes that a stimulus of a dialogue has a command dropped for this cause. -/
def DropCause.Explained (stimulus : Stimulus) (dialogue : Dialogue) (command : Command) :
    DropCause → Prop
  | .exited => ∃ chunk text, stimulus = .output chunk ∧ Stop.announcesExit text = true ∧
    ((dialogue.channel.feed chunk).1 = .unsolicited text ∨
      ∃ completion, (dialogue.channel.feed chunk).1 = .complete completion ∧
        completion.response.text = text)
  | .aborted => stimulus = .abort
  | .terminated => stimulus = .close ∨ ∃ oldest, .dropped oldest .unwritten ∈ dialogue.events stimulus
  | .unwritten => command.kind ≠ .startup ∧
    ∃ outlet, dialogue.channel.outlet = some outlet ∧ outlet.accepting = false

/-- What has been written to the debugger; once it is gone, what had been written by then. -/
def Channel.sentFrom (before : Text) (channel : Channel) : Text :=
  (channel.outlet.map (·.written)).getD before

/-- A run so far. -/
structure Chronicle where
  dialogue : Dialogue
  events : List Event := []
  /-- All that has been written to the debugger, also when it is gone. -/
  sent : Text := []
  deriving DecidableEq, Repr

namespace Chronicle

def next (stimulus : Stimulus) (chronicle : Chronicle) : Chronicle :=
  let dialogue := chronicle.dialogue.perform stimulus
  { dialogue
    events := chronicle.events ++ chronicle.dialogue.events stimulus
    sent := dialogue.channel.sentFrom chronicle.sent }

/-- The run of these stimuli, from a debugger newly attached. -/
def ofStimuli (detector : PromptDetector) (stimuli : List Stimulus) : Chronicle :=
  stimuli.foldl (fun chronicle stimulus => chronicle.next stimulus) { dialogue := .attached detector }

@[simp] theorem ofStimuli_append_singleton (detector : PromptDetector) (stimuli : List Stimulus)
    (stimulus : Stimulus) :
    ofStimuli detector (stimuli ++ [stimulus]) = (ofStimuli detector stimuli).next stimulus := by
  simp [ofStimuli]

end Chronicle

end DebugClient
