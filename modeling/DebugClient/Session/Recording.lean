import DebugClient.Memlog.Apply
import DebugClient.Memlog.Tail
import DebugClient.Memory.Observation
import DebugClient.Reply.Locals
import DebugClient.Reply.Printed
import DebugClient.Session.Basic
import DebugClient.Snapshot.JsonLines

/-!
Recording what the target looks like each time it stops.
-/

namespace DebugClient

/-- A session with what has been recorded in it. -/
structure Recording (σ : Type) where
  session : Session σ
  log : SnapshotLog := {}
  memlog : MemlogTail := {}

/-- Something done while recording; what has been recorded stays so when it fails. -/
abbrev RecordingAction (σ : Type) := ExceptT SessionError (StateM (Recording σ))

namespace Recording
variable {σ : Type}

/-- Do something in the session. -/
def inSession {α : Type} (action : Action σ α) : RecordingAction σ α := fun recording =>
  let (result, session) := action recording.session
  (result, { recording with session })

/-- Ask for the address and the size of a variable, and take note of its values. -/
def recordLocal (frame : Nat) (observed : Local) : Action σ Unit := do
  let address ← Session.issue ("print &".toList ++ observed.name) false
  let size ← Session.issue ("print sizeof(".toList ++ observed.name ++ [')']) false
  let typed := Printed.readAddress? address.text
  let observation : Observation :=
    { name := observed.name
      type := (typed.map (·.1)).getD []
      address := typed.map (·.2)
      size := Printed.readInteger? size.text
      frame
      literal := Literal.read observed.value }
  Session.modifyProgram fun program =>
    observation.values.foldl (fun program value => (program.observe value).2) program

/-- Take note of the variables that a command lists. -/
def recordLocals (frame : Nat) (command : Text) : Action σ Unit := do
  let response ← Session.issue command false
  for observed in Locals.all response.text do
    recordLocal frame observed

/-- Apply the events that have come since the last stop. A log that cannot be read is left for the
    next one. -/
def pollMemlog : RecordingAction σ Unit := fun recording =>
  let session := recording.session
  match session.config.memlogPath with
  | none => (.ok (), recording)
  | some name =>
    match recording.memlog.poll (session.files.read? session.machine.directory name) with
    | (.error _, memlog) => (.ok (), { recording with memlog })
    | (.ok events, memlog) =>
      let program :=
        events.foldl (fun program event => (program.applyMemlog event).2) session.program
      (.ok (), { recording with memlog, session := { session with program } })

/-- Record a stop: the call stack, the arguments and locals of the innermost frame, and what has
    happened on the heap. -/
def recordStop : RecordingAction σ Snapshot := do
  let backtrace ← inSession (Session.issue "backtrace".toList false)
  let frames := Backtrace.frames backtrace.text
  inSession (Session.modifyProgram (·.syncFrames frames))
  match (← get).session.program.frames.length with
  | 0 => pure ()
  | innermost + 1 =>
    inSession (recordLocals innermost "info args".toList)
    inSession (recordLocals innermost "info locals".toList)
  pollMemlog
  modifyGet fun recording =>
    let (snapshot, log) := recording.log.record frames
    (snapshot, { recording with log })

end Recording
end DebugClient
