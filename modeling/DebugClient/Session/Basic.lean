import DebugClient.Config
import DebugClient.Console.Dialogue
import DebugClient.Memory.ProgramState
import DebugClient.Session.Debugger
import DebugClient.Session.FileStore
import DebugClient.Text.Utf8

/-!
A session with a debugger: commands are given and answered, and the picture of the target is kept.

The debugger answers what has been written to it before anything else happens, except that it may leave
a line until somebody waits. Time passes while somebody waits, as much as the debugger takes for its
answers; all answers that are waited for at one go share one limit. A command whose prompt has not come
when all has been answered never gets one: waiting for it lasts until the limit or, without a limit,
until the debugger is killed.
-/

namespace DebugClient

/-- Where a session runs. -/
structure Machine (σ : Type) where
  debugger : Debugger σ
  /-- Start a program with arguments; gives the state that it starts in. -/
  launch? : Text → List Text → Option σ
  /-- The current directory. -/
  directory : List Text
  files : FileStore

structure Session (σ : Type) where
  machine : Machine σ
  config : Config
  /-- The state of the debugger. -/
  peer : σ
  /-- Where the debugger runs. -/
  workingDirectory : List Text
  dialogue : Dialogue
  /-- How long the debugger has been at the first line on its way to it, in nanoseconds. -/
  spent : Nat := 0
  /-- Bytes of a character that has not arrived as a whole. -/
  undecoded : List UInt8 := []
  program : ProgramState := {}
  /-- Whether anybody listens to the output. -/
  listening : Bool := false
  /-- Output for display, as far as somebody listened to it. -/
  shown : Array Text := #[]

/-- Something done in a session; what has happened stays so when it fails. -/
abbrev Action (σ : Type) := ExceptT SessionError (StateM (Session σ))

namespace Session
variable {σ : Type}

def files (session : Session σ) : FileStore := session.machine.files

def setFiles (files : FileStore) (session : Session σ) : Session σ :=
  { session with machine := { session.machine with files } }

/-! Output of the debugger. -/

/-- Most bytes that are read at a time. -/
def readLimit : Nat := 4096

/-- The pieces in which bytes are read. -/
def reads (bytes : List UInt8) : List (List UInt8) :=
  match bytes with
  | [] => []
  | b :: rest => (b :: rest).take readLimit :: reads ((b :: rest).drop readLimit)
termination_by bytes.length
decreasing_by
  simp only [readLimit, List.length_drop, List.length_cons]
  omega

/-- Show texts to whoever listens. -/
def emit (shown : List Text) (session : Session σ) : Session σ :=
  if session.listening then { session with shown := session.shown ++ shown.toArray } else session

/-- Take in what one read has given. -/
def receive (session : Session σ) (bytes : List UInt8) : Session σ :=
  let (text, undecoded) := Utf8.decodeArrived (session.undecoded ++ bytes)
  let session := { session with undecoded }
  if text.isEmpty then session
  else
    let (shown, dialogue) := session.dialogue.onOutput text
    { session with dialogue }.emit shown

/-- Take in what the debugger does. -/
def react (reaction : Reaction) (session : Session σ) : Session σ :=
  let session := match session.config.memlogPath with
    | some name =>
      if reaction.memlog.isEmpty then session
      else session.setFiles <|
        session.files.append session.workingDirectory name reaction.memlog
    | none => session
  let session := (reads reaction.output).foldl receive session
  if reaction.closes then { session with dialogue := session.dialogue.onClosed } else session

/-! Input of the debugger. -/

/-- The first line on its way to the debugger. -/
def nextLine? (session : Session σ) : Option (Text × Session σ) :=
  session.dialogue.channel.outlet.bind fun outlet =>
    match outlet.written.dropWhile (· ≠ '\n') with
    | [] => none
    | _ :: written =>
      let channel := { session.dialogue.channel with outlet := some { outlet with written } }
      some (outlet.written.takeWhile (· ≠ '\n'),
        { session with dialogue := { session.dialogue with channel } })

/-- Let the debugger answer the lines on their way to it, up to a number of them, when so much time has
    passed. It may leave a line unless somebody waits. Whoever waits takes answers up to the limit only;
    the debugger is left at its line then. -/
def exchange (waits : Session σ → Bool) : Nat → Nat → Session σ → Session σ
  | 0, _, session => session
  | n + 1, elapsed, session =>
    match session.nextLine? with
    | none => session
    | some (line, next) =>
      let (reaction, peer) := session.machine.debugger.answer line session.peer
      let answered := { next with peer, spent := 0 }.react reaction
      if waits session then
        let finished := elapsed + (reaction.duration - session.spent)
        if session.config.inTime finished then exchange waits n finished answered
        else { session with spent := session.spent + (session.config.limit?.getD 0 - elapsed) }
      else if session.machine.debugger.lingers line session.peer then session
      else exchange waits n elapsed answered

/-- Lines that a command can bring about: its own, and the `finish` and the `next` that a `step`
    may be followed by. -/
def linesOf (command : Command) : Nat :=
  (Channel.line command).count '\n' + (if command.kind = .step then 2 else 0)

/-- No more lines than this will reach the debugger before the dialogue comes to rest. -/
def outstandingLines (dialogue : Dialogue) : Nat :=
  (dialogue.channel.outlet.elim 0 fun outlet => outlet.written.count '\n') +
    (dialogue.channel.inFlight.elim 0 fun current =>
      if current.command.kind = .step then 2 else 0) +
    (if dialogue.steps = .idle then 0 else 1) +
    dialogue.channel.queue.foldl (fun lines command => lines + linesOf command) 0

/-- Let the debugger answer as long as it does. -/
def settle (waits : Session σ → Bool) (session : Session σ) : Session σ :=
  exchange waits (outstandingLines session.dialogue) 0 session

/-! Actions. -/

/-- Whether the answer to the command that has been given is still to come. -/
def awaitsAnswer (session : Session σ) : Bool := session.dialogue.channel.answers.isEmpty

/-- Kill the debugger. -/
def kill (session : Session σ) : Session σ :=
  { session with dialogue := session.dialogue.onClosed }

/-- Take away the answer to the command that has been given. -/
def takeAnswer (session : Session σ) : Session σ :=
  { session with
    dialogue := { session.dialogue with channel := { session.dialogue.channel with answers := [] } } }

/-- Give up waiting. Without a limit nobody does, and the wait lasts until the debugger is killed. -/
def timeOut {α : Type} : Action σ α := fun session =>
  match session.config.timeout? with
  | some limit => (.error (.timeout limit), { session with dialogue := session.dialogue.abort.2 })
  | none => (.error .sessionTerminated, session.kill.takeAnswer)

/-- Read the answer to the command that has been given. -/
def awaitAnswer : Action σ Response := fun session =>
  match session.dialogue.channel.answers with
  | (_, .completed response) :: _ => (.ok response, session.takeAnswer)
  | (_, .terminated) :: _ => (.error .sessionTerminated, session.takeAnswer)
  | [] => timeOut session

/-- Give a command in the foreground. -/
def submit (command : Command) : Action σ Unit := fun session =>
  let (result, dialogue) := session.dialogue.submit command (some 0)
  (result, { session with dialogue })

/-- Give a command and wait for its response. It fails rather than wait for another command. -/
def issueCommand (command : Command) : Action σ Response := do
  submit command
  modify (settle awaitsAnswer)
  awaitAnswer

def issue (text : Text) (display : Bool) : Action σ Response :=
  issueCommand (.ofText text display)

def sendForeground (text : Text) : Action σ Response := issue text true

/-- Give a command that waits for its turn. -/
def enqueue (text : Text) (display : Bool) : Action σ Unit := fun session =>
  let (result, dialogue) := session.dialogue.enqueue (.ofText text display)
  (result, { session with dialogue }.settle fun _ => false)

/-- Wait until no command is in flight or waiting. -/
def waitIdle : Action σ Unit := fun session =>
  let session := session.settle fun session => !session.dialogue.isIdle
  if !session.dialogue.isRunning then (.error .sessionTerminated, session)
  else if session.dialogue.isIdle then (.ok (), session)
  else timeOut session

/-- Whether the target has ended since it was last run. -/
def hasExited : Action σ Bool := return (← get).dialogue.exited

def modifyProgram (change : ProgramState → ProgramState) : Action σ Unit :=
  modify fun session => { session with program := change session.program }

/-- Undo the latest assignment at an address. -/
def rollbackAt (address : Nat) : Action σ (Option Value) := fun session =>
  let (value, program) := session.program.rollbackAt address
  (.ok value, { session with program })

/-- Take in how the debugger greets, if that comes in time. -/
def greeted (session : Session σ) : Session σ :=
  let (reaction, peer) := session.machine.debugger.greet session.peer
  if session.config.inTime reaction.duration then { session with peer }.react reaction
  else { session with peer }

/-- Wait for the first prompt, and give the commands that a session begins with. -/
def begin : Action σ Unit := do
  submit .startup
  modify greeted
  let _ ← awaitAnswer
  for text in (← get).config.startupCommands do
    let _ ← issue text false

/-- Start a session. Where it fails the machine is given back as it has become. -/
def start (machine : Machine σ) (executable : Text) (directory : Text) (config : Config) :
    Except (SessionError × FileStore) (Session σ) :=
  let spawned := do
    let workingDirectory ← machine.files.directory? machine.directory directory
    let peer ← machine.launch? config.debugger (config.debuggerArguments ++ [executable])
    some (workingDirectory, peer)
  match spawned with
  | none => .error (.spawnFailed config.debugger, machine.files)
  | some (workingDirectory, peer) =>
    let session : Session σ :=
      { machine, config, peer, workingDirectory
        dialogue := .attached (.ofSentinels config.sentinels) }
    match begin session with
    | (.ok (), session) => .ok session
    | (.error e, session) => .error (e, session.files)

end Session
end DebugClient
