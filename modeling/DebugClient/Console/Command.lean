import DebugClient.Text.Basic

/-!
Commands given to the debugger, and its responses.
-/

namespace DebugClient

/-- What a command does, as far as the client cares. -/
inductive CommandKind where
  /-- Nothing is written; the command waits for the prompt behind the banner. -/
  | startup
  | step
  | next
  | finish
  | backtrace
  | infoFunctions
  | infoLocals
  | infoArgs
  | run
  | resume
  | print
  | other
  deriving DecidableEq, Repr

namespace CommandKind
open Text

/-- Commands known by their first word. -/
def verbs : List (Text × CommandKind) :=
  [("s", step), ("step", step), ("n", next), ("next", next), ("fin", finish), ("finish", finish),
    ("bt", backtrace), ("backtrace", backtrace), ("where", backtrace), ("r", run), ("run", run),
    ("c", resume), ("cont", resume), ("continue", resume), ("p", print),
    ("print", print)].map fun (verb, kind) => (verb.toList, kind)

/-- Topics of `info`, known by their first letters. -/
def ofTopic (topic : Text) : CommandKind :=
  if (after? "func".toList topic).isSome then infoFunctions
  else if (after? "lo".toList topic).isSome then infoLocals
  else if (after? "ar".toList topic).isSome then infoArgs
  else other

def classify (command : Text) : CommandKind :=
  match words command with
  | [] => startup
  | verb :: rest =>
    if verb = "i".toList ∨ verb = "info".toList then (rest.head?.map ofTopic).getD other
    else (verbs.lookup verb).getD other

end CommandKind

/-- A command, with its kind settled when it is made. -/
structure Command where
  text : Text
  kind : CommandKind
  /-- Whether the response is meant for display. -/
  display : Bool
  deriving DecidableEq, Repr

namespace Command

def ofText (text : Text) (display : Bool) : Command :=
  { text, kind := .classify text, display }

/-- Waits for the first prompt. -/
def startup : Command := { text := [], kind := .startup, display := false }

end Command

/-- What the debugger put out for a command, without the prompt that ended it. -/
structure Response where
  command : Command
  text : Text
  display : Bool
  deriving DecidableEq, Repr

end DebugClient
