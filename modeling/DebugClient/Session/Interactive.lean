import DebugClient.Session.Input
import DebugClient.Session.Recording

/-!
Interactive sessions: lines are read and carried out one after the other, and a stop is recorded
after each command that moves the target.
-/

namespace DebugClient

/-- What a terminal shows. -/
structure Terminal where
  out : Array Text := #[]
  err : Array Text := #[]
  deriving DecidableEq, Repr

namespace Terminal

def print (t : Text) (terminal : Terminal) : Terminal := { terminal with out := terminal.out.push t }

def complain (t : Text) (terminal : Terminal) : Terminal :=
  { terminal with err := terminal.err.push t }

end Terminal

/-- An interactive session. -/
structure Interactive (σ : Type) where
  recording : Recording σ
  terminal : Terminal := {}

namespace Interactive
variable {σ : Type}

def print (t : Text) (interactive : Interactive σ) : Interactive σ :=
  { interactive with terminal := interactive.terminal.print t }

def complain (t : Text) (interactive : Interactive σ) : Interactive σ :=
  { interactive with terminal := interactive.terminal.complain t }

/-- Move what the session has shown to the terminal. -/
def flush (interactive : Interactive σ) : Interactive σ :=
  let session := interactive.recording.session
  { recording := { interactive.recording with session := { session with shown := #[] } }
    terminal := { interactive.terminal with out := interactive.terminal.out ++ session.shown } }

/-- Do something that may show output. -/
def perform {α : Type} (action : RecordingAction σ α) (interactive : Interactive σ) :
    Except SessionError α × Interactive σ :=
  let (result, recording) := action interactive.recording
  (result, { interactive with recording }.flush)

/-- Record a stop unless the target has ended; what keeps it from being recorded is reported. -/
def recordMove : RecordingAction σ (Option SessionError) := fun recording =>
  let (_, recording) := Recording.inSession Session.waitIdle recording
  if recording.session.dialogue.exited then (.ok none, recording)
  else match Recording.recordStop recording with
    | (.ok _, recording) => (.ok none, recording)
    | (.error e, recording) => (.ok (some e), recording)

/-- Carry out a command for the debugger. Commands that are still waiting go first. -/
def command (text : Text) : RecordingAction σ (Option SessionError) := do
  Recording.inSession Session.waitIdle
  let response ← Recording.inSession (Session.sendForeground text)
  if Input.movesTarget response.command.kind then recordMove else pure none

/-- An error, marked as such. -/
def errorLine (e : SessionError) : Text := "❌ ".toList ++ e.message ++ ['\n']

/-- Carry out a line; tells whether to go on. -/
def handle (input : Input) (interactive : Interactive σ) : Bool × Interactive σ :=
  let session := interactive.recording.session
  match input with
  | .quit => (false, interactive)
  | .state => (true, interactive.print session.program.describe)
  | .catalogue =>
    (true, interactive.print
      (['\n'].intercalate session.dialogue.catalogue.names ++ ['\n']))
  | .undo address =>
    match interactive.perform (Recording.inSession (Session.rollbackAt address)) with
    | (.ok (some value), interactive) => (true, interactive.print value.describe)
    | (_, interactive) =>
      (true, interactive.complain
        ("❌ Nothing recorded at ".toList ++ Numeral.address address ++ ['\n']))
  | .invalid reason => (true, interactive.complain ("❓ ".toList ++ reason ++ ['\n']))
  | .debugger text =>
    if text.isEmpty then (true, interactive)
    else match interactive.perform (command text) with
      | (.ok none, interactive) => (true, interactive)
      | (.ok (some e), interactive) => (true, interactive.complain (errorLine e))
      | (.error .sessionTerminated, interactive) | (.error .notRunning, interactive) =>
        (false, interactive.complain "🚪 Debugger exited\n".toList)
      | (.error e, interactive) => (true, interactive.complain (errorLine e))

/-- Carry out lines until one of them ends the session. A line that is not text is a failure. -/
def handleAll : List (List UInt8) → Interactive σ → Bool × Interactive σ
  | [], interactive => (true, interactive)
  | line :: lines, interactive =>
    match Utf8.decode? line with
    | none => (false, interactive)
    | some line =>
      match interactive.handle (.read line) with
      | (true, interactive) => handleAll lines (interactive.complain "> ".toList)
      | (false, interactive) => (true, interactive)

def greeting : Text :=
  "\nCommands: any debugger command, :state, :undo <addr>, :catalogue, :quit\n> ".toList

/-- Run a session on the lines of an input; tells whether all of it could be read. -/
def run (input : List UInt8) (terminal : Terminal) (session : Session σ) :
    Bool × Interactive σ :=
  let session := { session with listening := true }
  handleAll (Utf8.lines input) { recording := { session }, terminal := terminal.complain greeting }

end Interactive
end DebugClient
