import DebugClient.Session.Debugger
import DebugClient.Text.Utf8

/-!
A debugger that follows a script: for each line a list of replies, which are given one after the
other, and the last of them again and again.
-/

namespace DebugClient

/-- How a reply ends. -/
inductive Ending where
  | prompt
  /-- The debugger exits. -/
  | close
  /-- The debugger stays silent. -/
  | hang
  deriving DecidableEq, Repr

structure ScriptedReply where
  memlog : List UInt8 := []
  output : List UInt8 := []
  ending : Ending := .prompt
  deriving DecidableEq, Repr

structure Script where
  prompt : Text := "(gdb) ".toList
  banner : ScriptedReply := {}
  replies : List (Text × List ScriptedReply) := []
  /-- The lines received so far. -/
  received : List Text := []
  deriving DecidableEq, Repr

namespace Script

def reaction (script : Script) (reply : ScriptedReply) : Reaction where
  output := reply.output ++
    (if reply.ending = .prompt then Utf8.encode script.prompt else [])
  closes := reply.ending = .close
  memlog := reply.memlog

/-- The reply to a line that has been received so many times before. -/
def replyTo (script : Script) (line : Text) (count : Nat) : ScriptedReply :=
  let replies := (script.replies.lookup line).getD []
  (replies[count]?.or replies.getLast?).getD {}

def debugger : Debugger Script where
  greet script := (script.reaction script.banner, script)
  answer line script :=
    (script.reaction (script.replyTo line (script.received.count line)),
      { script with received := line :: script.received })

end Script
end DebugClient
