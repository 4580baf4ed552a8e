import DebugClient.Text.Duration

/-!
Why a request to the debugger fails.
-/

namespace DebugClient

inductive SessionError where
  | notRunning
  | busy (command : Text)
  | spawnFailed (program : Text)
  | sessionTerminated
  | timeout (milliseconds : Nat)
  | io
  deriving DecidableEq, Repr

/-- A name between grave accents. -/
def quoteName (name : Text) : Text := '\x60' :: name ++ ['\x60']

def SessionError.message : SessionError → Text
  | .notRunning => "no debugger process is attached".toList
  | .busy command => "command ".toList ++ quoteName command ++ " is still in flight".toList
  | .spawnFailed program => "could not start debugger ".toList ++ quoteName program
  | .sessionTerminated => "debugger exited while a command was outstanding".toList
  | .timeout milliseconds => "no prompt seen after ".toList ++ Duration.render milliseconds
  | .io => "I/O error".toList

end DebugClient
