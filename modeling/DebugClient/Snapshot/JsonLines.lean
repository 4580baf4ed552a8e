import DebugClient.Json.Quote
import DebugClient.Json.Record
import DebugClient.Snapshot.Basic
import DebugClient.Text.Utf8

/-!
Snapshots in a file: one JSON object a line.
-/

namespace DebugClient
open Json Numeral

namespace Snapshot

def writeFrame (frame : StackFrame) : Text :=
  writeObject <|
    [("function_name".toList, quote frame.function), ("frame_index".toList, decimal frame.index)] ++
      (frame.file.map fun file => ("source_file".toList, quote file)).toList ++
      (frame.line.map fun line => ("source_line".toList, decimal line)).toList

/-- One line. The file and the line of a frame are left out where they are not known; the current
    line is always there. -/
def write (snapshot : Snapshot) : Text :=
  writeObject
    [("sequence".toList, decimal snapshot.sequence),
      ("frames".toList, writeList (snapshot.frames.map writeFrame)),
      ("current_line".toList, (snapshot.currentLine.map decimal).getD "null".toList)]

def readFrame : Text → Except Fault (StackFrame × Text) :=
  record
    [.of "function_name" .needed string fun function frame => { frame with function },
      .of "frame_index" .needed (natural largest64) fun index frame => { frame with index },
      .of "source_file" .defaulted (optional string) fun file frame => { frame with file },
      .of "source_line" .defaulted (optional (natural largest32)) fun line frame =>
        { frame with line }]
    { function := [], index := 0 }

def read : Text → Except Fault (Snapshot × Text) :=
  record
    [.of "sequence" .needed (natural largest64) fun sequence snapshot =>
        { snapshot with sequence },
      .of "frames" .needed (list readFrame) fun frames snapshot => { snapshot with frames },
      .of "current_line" .nullable (optional (natural largest32)) fun currentLine snapshot =>
        { snapshot with currentLine }]
    { sequence := 0, frames := [], currentLine := none }

/-- The snapshot on a line, none on a blank one. -/
def readLine (line : List UInt8) : Except Fault (Option Snapshot) :=
  match Utf8.decode? line with
  | none => .error .malformed
  | some t => if (Text.trim t).isEmpty then .ok none else (document read t).map some

/-- The snapshots in a file, up to the first line that cannot be read. -/
def readLines : List (List UInt8) → Except Fault (List Snapshot)
  | [] => .ok []
  | line :: lines => do
    let snapshot ← readLine line
    let snapshots ← readLines lines
    .ok (snapshot.toList ++ snapshots)

def ofFile (bytes : List UInt8) : Except Fault (List Snapshot) := readLines (Utf8.lines bytes)

end Snapshot

/-- The snapshots as the text of a file. -/
def SnapshotLog.write (log : SnapshotLog) : Text :=
  log.snapshots.flatMap fun snapshot => snapshot.write ++ ['\n']

end DebugClient
