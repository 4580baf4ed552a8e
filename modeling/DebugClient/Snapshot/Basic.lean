import DebugClient.Reply.Backtrace

/-!
Snapshots of the call stack, one for each stop.
-/

namespace DebugClient

structure Snapshot where
  sequence : Nat
  /-- Innermost first. -/
  frames : List StackFrame
  currentLine : Option Nat
  deriving DecidableEq, Repr

/-- The stops so far. -/
structure SnapshotLog where
  snapshots : List Snapshot := []
  /-- The number of stops whose source line is known. -/
  sequence : Nat := 0
  deriving DecidableEq, Repr

namespace SnapshotLog

/-- The line that the innermost frame stands at. -/
def currentLine (frames : List StackFrame) : Option Nat :=
  (frames.find? (·.index = 0)).bind (·.line)

/-- Record a stop. Only a stop with a known source line gets a new number. -/
def record (frames : List StackFrame) (log : SnapshotLog) : Snapshot × SnapshotLog :=
  let line := currentLine frames
  let sequence := if line.isSome then log.sequence + 1 else log.sequence
  let snapshot := { sequence, frames, currentLine := line }
  (snapshot, { snapshots := log.snapshots ++ [snapshot], sequence })

end SnapshotLog
end DebugClient
