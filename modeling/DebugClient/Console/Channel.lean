import DebugClient.Console.Carry
import DebugClient.Console.Command
import DebugClient.Console.Error
import DebugClient.Console.Prompt

/-!
The channel to the debugger: one command in flight at a time, background commands waiting behind it
in the order they came, and the framing of the debugger's output into responses.

Whoever waits for an answer holds a ticket. A ticket is answered when its command completes, or
when the debugger is gone; a command that is aborted leaves its ticket without an answer.
-/

namespace DebugClient

/-- The debugger's input. -/
structure Outlet where
  /-- What has been written and not yet been collected. -/
  written : Text := []
  /-- Whether writing works at the moment. -/
  accepting : Bool := true
  deriving DecidableEq, Repr

/-- What becomes of a ticket. -/
inductive Answer where
  | completed (response : Response)
  | terminated
  deriving DecidableEq, Repr

structure InFlight where
  command : Command
  ticket : Option Nat := none
  deriving DecidableEq, Repr

structure Channel where
  /-- Nothing once the debugger is gone. -/
  outlet : Option Outlet
  detector : PromptDetector
  carry : CarryBuffer := {}
  inFlight : Option InFlight := none
  queue : List Command := []
  /-- The part of the last prompt that was recognised before it arrived. -/
  awaited : Text := []
  /-- Answers given, in order. -/
  answers : List (Nat × Answer) := []
  deriving DecidableEq, Repr

/-- A command whose prompt has been seen. -/
structure Completion where
  response : Response
  /-- Output for display that has not been handed out yet. -/
  tail : Option Text
  ticket : Option Nat
  deriving DecidableEq, Repr

/-- What a chunk of output amounts to. -/
inductive Feed where
  /-- Nothing was in flight. -/
  | unsolicited (text : Text)
  /-- The prompt is still to come; the text can be displayed now. -/
  | pending (text : Option Text)
  | complete (completion : Completion)
  deriving DecidableEq, Repr

namespace Channel
open Text

def attached (detector : PromptDetector) : Channel := { outlet := some {}, detector }

/-- A channel without a debugger. -/
def detached (detector : PromptDetector) : Channel := { outlet := none, detector }

def isRunning (channel : Channel) : Bool := channel.outlet.isSome

def isIdle (channel : Channel) : Bool := channel.inFlight.isNone && channel.queue.isEmpty

/-- What a command writes. -/
def line (command : Command) : Text :=
  if command.kind = .startup then [] else command.text ++ ['\n']

/-- Put a command into the free slot. A startup command writes nothing, so it cannot fail to be
    written. -/
def issue (command : Command) (ticket : Option Nat) (channel : Channel) :
    Except SessionError Unit × Channel :=
  match channel.inFlight, channel.outlet with
  | some current, _ => (.error (.busy current.command.text), channel)
  | none, none => (.error .notRunning, channel)
  | none, some outlet =>
    let channel := { channel with carry := {} }
    if command.kind ≠ .startup ∧ !outlet.accepting then (.error .io, channel)
    else
      (.ok (), { channel with
        outlet := some { outlet with written := outlet.written ++ line command }
        inFlight := some { command, ticket } })

/-- Put a command at the end of the background queue. -/
def enqueue (command : Command) (channel : Channel) : Channel :=
  { channel with queue := channel.queue ++ [command] }

def clearQueue (channel : Channel) : Channel := { channel with queue := [] }

/-- Issue the oldest background command if the slot is free. A command that cannot be issued has
    left the queue all the same. -/
def dispatchNext (channel : Channel) : Except SessionError (Option Command) × Channel :=
  match channel.inFlight, channel.queue with
  | some _, _ | none, [] => (.ok none, channel)
  | none, command :: queue =>
    match issue command none { channel with queue } with
    | (.ok (), channel) => (.ok (some command), channel)
    | (.error e, channel) => (.error e, channel)

/-- How many characters two texts begin with in common. -/
def sharedLength : Text → Text → Nat
  | c :: s, d :: t => if c = d then sharedLength s t + 1 else 0
  | _, _ => 0

/-- Drop the part of a chunk that finishes the prompt recognised last. Output that differs from
    what was awaited ends the waiting. -/
def skipAwaited (chunk : Text) (channel : Channel) : Text × Channel :=
  let shared := sharedLength channel.awaited chunk
  (chunk.drop shared, { channel with
    awaited := if shared = chunk.length then channel.awaited.drop shared else [] })

/-- Whether output is handed out as it arrives. That of a `step` is not, as it may have to be
    hidden once it is complete. -/
def streams (command : Command) : Bool := command.display && command.kind ≠ .step

/-- Take in a chunk of output. -/
def feed (chunk : Text) (channel : Channel) : Feed × Channel :=
  let (chunk, channel) := channel.skipAwaited chunk
  match channel.inFlight with
  | none => (.unsolicited chunk, channel)
  | some { command, ticket } =>
    let carry := channel.carry.push chunk
    match channel.detector.promptMatch? carry.text with
    | some found =>
      let (tail, carry) :=
        if streams command then carry.takeUnstreamed found.start else (none, carry)
      let (text, carry) := carry.finish found.start
      (.complete { response := { command, text, display := command.display }, tail, ticket },
        { channel with carry, awaited := found.awaited, inFlight := none })
    | none =>
      if streams command then
        let stop := byteLength carry.text - channel.detector.pendingTail carry.text
        let (out, carry) := carry.takeUnstreamed stop
        (.pending out, { channel with carry })
      else (.pending none, { channel with carry })

def answer (ticket : Option Nat) (answer : Answer) (channel : Channel) : Channel :=
  match ticket with
  | some ticket => { channel with answers := channel.answers ++ [(ticket, answer)] }
  | none => channel

/-- Hand a response to whoever waits for it. -/
def respond (completion : Completion) (channel : Channel) : Channel :=
  channel.answer completion.ticket (.completed completion.response)

/-- Drop the command in flight and all that waits behind it. -/
def abort (channel : Channel) : Option Command × Channel :=
  (channel.inFlight.map (·.command),
    { channel with carry := {}, awaited := [], queue := [], inFlight := none })

/-- The debugger is gone: whoever waits is told so. -/
def terminate (channel : Channel) : Channel :=
  answer (channel.inFlight.bind (·.ticket)) .terminated
    { channel with outlet := none, carry := {}, awaited := [], queue := [], inFlight := none }

end Channel
end DebugClient
