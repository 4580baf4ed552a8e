import DebugClient.Json.Record
import DebugClient.Text.Utf8

/-!
Settings of a session.
-/

namespace DebugClient

structure Config where
  debugger : Text := "gdb".toList
  debuggerArguments : List Text := ["--quiet".toList]
  /-- The prompt that is installed when the session starts. -/
  prompt : Text := "(visual-gdb) ".toList
  /-- The debugger's own prompts, which it uses before that. -/
  fallbackPrompts : List Text := ["(gdb) ".toList]
  /-- How long to wait for a response, in milliseconds. -/
  commandTimeout : Nat := 30000
  entryBreakpoint : Text := "main".toList
  maxSteps : Nat := 10000
  memlogPath : Option Text := none
  snapshotPath : Option Text := none
  logLevel : Text := "warn".toList
  deriving DecidableEq, Repr

/-- Why there are no settings. -/
inductive ConfigError where
  /-- There is no such file, or it is not text. -/
  | unreadable
  | invalid
  deriving DecidableEq, Repr

def ConfigError.message : ConfigError → Text
  | .unreadable => "could not read config file".toList
  | .invalid => "invalid config file".toList

namespace Config
open Json Numeral

/-- The settings in the order in which a list gives them. Those that are missing keep their
    defaults. -/
def fields : List (Json.Field Config) :=
  [.of "debugger" .defaulted string fun debugger config => { config with debugger },
    .of "debugger_args" .defaulted (list string) fun debuggerArguments config =>
      { config with debuggerArguments },
    .of "prompt" .defaulted string fun prompt config => { config with prompt },
    .of "fallback_prompts" .defaulted (list string) fun fallbackPrompts config =>
      { config with fallbackPrompts },
    .of "command_timeout_ms" .defaulted (natural largest64) fun commandTimeout config =>
      { config with commandTimeout },
    .of "entry_breakpoint" .defaulted string fun entryBreakpoint config =>
      { config with entryBreakpoint },
    .of "max_steps" .defaulted (natural largest64) fun maxSteps config => { config with maxSteps },
    .of "memlog_path" .defaulted (optional string) fun memlogPath config =>
      { config with memlogPath },
    .of "snapshot_path" .defaulted (optional string) fun snapshotPath config =>
      { config with snapshotPath },
    .of "log_level" .defaulted string fun logLevel config => { config with logLevel }]

def read (t : Text) : Except Fault Config := document (record fields {}) t

/-- The settings in a file. -/
def ofFile (file : Option (List UInt8)) : Except ConfigError Config :=
  match file.bind Utf8.decode? with
  | none => .error .unreadable
  | some t => (read t).mapError fun _ => .invalid

/-- The limit to waiting for a response, unless there is none. -/
def timeout? (config : Config) : Option Nat :=
  if config.commandTimeout = 0 then none else some config.commandTimeout

/-- The same limit in nanoseconds. -/
def limit? (config : Config) : Option Nat := config.timeout?.map (· * 1000000)

/-- Whether somebody who has waited so many nanoseconds still waits. -/
def inTime (config : Config) (elapsed : Nat) : Bool := config.limit?.all (elapsed < ·)

/-- All prompts to expect, the installed one first. -/
def sentinels (config : Config) : List Text := config.prompt :: config.fallbackPrompts

/-- The commands that a session begins with. The prompt is set last. -/
def startupCommands (config : Config) : List Text :=
  ["set pagination off".toList, "set confirm off".toList, "set prompt ".toList ++ config.prompt]

end Config
end DebugClient
