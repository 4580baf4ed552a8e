import DebugClient.Session.AutoRun
import DebugClient.Session.Interactive

/-!
The command line: what the arguments mean, and what the program does.
-/

namespace DebugClient

/-- What the arguments ask for. -/
structure Arguments where
  executable : Text := []
  directory : Option Text := none
  config : Option Text := none
  auto : Bool := false
  snapshots : Option Text := none
  memlog : Option Text := none
  verbose : Bool := false
  deriving DecidableEq, Repr

namespace Arguments

def usage : Text :=
  ("usage: visual-debugger <executable> [--cwd DIR] [--config FILE] [--auto] " ++
    "[--snapshots FILE] [--memlog FILE] [--verbose]").toList

/-- What an option with a value sets. -/
def setter? (option : Text) : Option (Text → Arguments → Arguments) :=
  if option = "--cwd".toList then some fun v arguments => { arguments with directory := some v }
  else if option = "--config".toList then
    some fun v arguments => { arguments with config := some v }
  else if option = "--snapshots".toList then
    some fun v arguments => { arguments with snapshots := some v }
  else if option = "--memlog".toList then
    some fun v arguments => { arguments with memlog := some v }
  else none

/-- Read arguments from the left; the executable is the one that is no option. The first mistake is
    reported. -/
def readFrom (executable : Option Text) (arguments : Arguments) :
    List Text → Except Text Arguments
  | [] =>
    match executable with
    | some executable => .ok { arguments with executable }
    | none => .error usage
  | argument :: rest =>
    match setter? argument with
    | some set =>
      match rest with
      | value :: rest => readFrom executable (set value arguments) rest
      | [] => .error (argument ++ " needs a value".toList)
    | none =>
      if argument = "--auto".toList then readFrom executable { arguments with auto := true } rest
      else if argument = "--verbose".toList ∨ argument = "-v".toList then
        readFrom executable { arguments with verbose := true } rest
      else if (Text.after? "--".toList argument).isSome then
        .error ("unknown option ".toList ++ argument)
      else if executable.isSome then .error ("unexpected argument ".toList ++ argument)
      else readFrom (some argument) arguments rest

def read (arguments : List Text) : Except Text Arguments := readFrom none {} arguments

end Arguments

namespace CommandLine
variable {σ : Type}

/-- How the program ends. -/
structure Outcome where
  exitCode : Nat
  terminal : Terminal
  files : FileStore
  deriving DecidableEq, Repr

/-- A failure once the arguments have been understood. -/
def failure (message : Text) (terminal : Terminal) (files : FileStore) : Outcome :=
  { exitCode := 1, terminal := terminal.complain ("Error: ".toList ++ message ++ ['\n']), files }

/-- The settings: those of the file, with what the arguments say about files of their own. -/
def loadConfig (arguments : Arguments) (machine : Machine σ) : Except ConfigError Config := do
  let config ← match arguments.config with
    | some name => Config.ofFile (machine.files.read? machine.directory name)
    | none => .ok {}
  .ok { config with
    snapshotPath := arguments.snapshots.or config.snapshotPath
    memlogPath := arguments.memlog.or config.memlogPath }

/-- The line that reports a stop. -/
def stopLine (snapshot : Snapshot) : Text :=
  let line := match snapshot.currentLine with
    | some line => " line ".toList ++ Numeral.decimal line
    | none => " (no line)".toList
  '#' :: Numeral.decimal snapshot.sequence ++ line ++ ": ".toList ++
    " <- ".toList.intercalate (snapshot.frames.map (·.function)) ++ ['\n']

def runAuto (session : Session σ) : Outcome :=
  let terminal := Terminal.complain "Starting automated session...\n".toList {}
  match AutoRun.run session with
  | (.error e, session) => failure e.message terminal session.files
  | (.ok snapshots, session) =>
    let terminal := snapshots.foldl (fun terminal s => terminal.print (stopLine s)) terminal
    { exitCode := 0, terminal := terminal.print session.program.describe, files := session.files }

def runInteractive (input : List UInt8) (session : Session σ) : Outcome :=
  let terminal := Terminal.complain "Starting in interactive mode...\n".toList {}
  let (readable, interactive) := Interactive.run input terminal session
  let files := interactive.recording.session.files
  if readable then { exitCode := 0, terminal := interactive.terminal, files }
  else failure "input is not text".toList interactive.terminal files

/-- Run the program. -/
def run (arguments : List Text) (input : List UInt8) (machine : Machine σ) : Outcome :=
  match Arguments.read arguments with
  | .error message =>
    { exitCode := 2, terminal := Terminal.complain (message ++ ['\n']) {}, files := machine.files }
  | .ok arguments =>
    match loadConfig arguments machine with
    | .error e => failure e.message {} machine.files
    | .ok config =>
      match Session.start machine arguments.executable (arguments.directory.getD ['.']) config with
      | .error (e, files) => failure e.message {} files
      | .ok session =>
        if arguments.auto then runAuto session else runInteractive input session

end CommandLine
end DebugClient
