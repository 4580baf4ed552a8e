import DebugClient.Session.Recording

/-!
Automated runs: the target is run to its entry and stepped until it ends.
-/

namespace DebugClient
namespace AutoRun
open Recording
variable {σ : Type}

/-- Record a stop and step on, until the target has ended or enough steps have been made. A skip
    that a step brings about is over before the next stop is looked at. -/
def stepThrough : Nat → RecordingAction σ Unit
  | 0 => pure ()
  | n + 1 => do
    if ← inSession Session.hasExited then
      return ()
    let _ ← recordStop
    let _ ← inSession (Session.issue "step".toList true)
    inSession Session.waitIdle
    stepThrough n

def drive (config : Config) : RecordingAction σ Unit := do
  let _ ← inSession (Session.issue "info functions".toList false)
  let _ ← inSession (Session.issue ("break ".toList ++ config.entryBreakpoint) false)
  let _ ← inSession (Session.issue "run".toList true)
  inSession Session.waitIdle
  stepThrough config.maxSteps

/-- Write the snapshots to the file named in the settings, if one is. -/
def writeSnapshots (log : SnapshotLog) : Action σ Unit := fun session =>
  match session.config.snapshotPath with
  | none => (.ok (), session)
  | some name =>
    match session.files.write? session.machine.directory name (Utf8.encode log.write) with
    | some files => (.ok (), session.setFiles files)
    | none => (.error .io, session)

/-- Run the target automatically; gives the snapshots of its stops. A debugger that exits while a
    command is outstanding ends the run, and the stops recorded so far are kept. -/
def run : Action σ (List Snapshot) := fun session =>
  match drive session.config { session } with
  | (.ok (), recording) | (.error .sessionTerminated, recording) =>
    match writeSnapshots recording.log recording.session with
    | (.ok (), session) => (.ok recording.log.snapshots, session)
    | (.error e, session) => (.error e, session)
  | (.error e, recording) => (.error e, recording.session)

end AutoRun
end DebugClient
