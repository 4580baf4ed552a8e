import DebugClient.Json.Record
import DebugClient.Session.Basic
import DebugClient.Session.Script

/-!
Scripts in files, so that a recorded debugger can be started like any other program:

    {"banner": {"out": "GNU gdb\n"},
     "replies": [{"line": "step", "given": [{"out": "5\tx++;\n"}, {"ending": "close"}]}]}
-/

namespace DebugClient
open Json

namespace Ending

def ofName? (name : Text) : Option Ending :=
  if name = "prompt".toList then some .prompt
  else if name = "close".toList then some .close
  else if name = "hang".toList then some .hang
  else none

def read (t : Text) : Except Fault (Ending × Text) := do
  let (name, t) ← string t
  match ofName? name with
  | some ending => .ok (ending, t)
  | none => .error .malformed

end Ending

namespace ScriptedReply

def read : Text → Except Fault (ScriptedReply × Text) :=
  record
    [.of "memlog" .defaulted string fun memlog reply =>
        { reply with memlog := Utf8.encode memlog },
      .of "out" .defaulted string fun output reply => { reply with output := Utf8.encode output },
      .of "ending" .defaulted Ending.read fun ending reply => { reply with ending }]
    {}

end ScriptedReply

namespace Script

/-- A line with the replies to it. -/
def readLine : Text → Except Fault ((Text × List ScriptedReply) × Text) :=
  record
    [.of "line" .needed string fun line (_, given) => (line, given),
      .of "given" .needed (list ScriptedReply.read) fun given (line, _) => (line, given)]
    ([], [])

def read : Text → Except Fault (Script × Text) :=
  record
    [.of "prompt" .defaulted string fun prompt script => { script with prompt },
      .of "banner" .defaulted ScriptedReply.read fun banner script => { script with banner },
      .of "replies" .defaulted (list readLine) fun replies script => { script with replies }]
    {}

/-- The script in a file. -/
def ofFile? (bytes : List UInt8) : Option Script :=
  (Utf8.decode? bytes).bind fun t => (document read t).toOption

/-- A machine whose debuggers are scripts among its files. -/
def machine (directory : List Text) (files : FileStore) : Machine Script where
  debugger := debugger
  launch? program _ := (files.read? directory program).bind ofFile?
  directory := directory
  files := files

end Script
end DebugClient
