import DebugClient.Proofs.Session.Reachable

/-!
An automated run as a tree: at each place a command is given, or there is a wait, and how it goes on
depends on the response and on what has been recorded. Carrying out the tree is the run, and along the
way it tells which commands are given in which state.
-/

namespace DebugClient

namespace Recording
variable {σ : Type}

/-- Put down what is known of the target and what has been recorded of it. -/
def put (program : ProgramState) (log : SnapshotLog) (memlog : MemlogTail) (recording : Recording σ) :
    Recording σ :=
  { session := { recording.session with program }, log, memlog }

end Recording

/-- What is still to be done. -/
inductive Plan (σ : Type) where
  | done
  /-- Give a command and go on with the response. -/
  | give (text : Text) (display : Bool) (next : Response → Plan σ)
  /-- Wait until no command is in flight or waiting. -/
  | wait (next : Plan σ)
  /-- Look at how things stand. -/
  | look (next : Recording σ → Plan σ)
  /-- Put something down; the debugger has no part in it. -/
  | note (program : ProgramState) (log : SnapshotLog) (memlog : MemlogTail) (next : Plan σ)

/-- A command given in the course of a recording, with how things stand before. -/
structure Turn (σ : Type) where
  before : Recording σ
  text : Text
  display : Bool

namespace Turn
variable {σ : Type}

/-- The commands that move the target. -/
def moves (text : Text) : Bool := text = "run".toList ∨ text = "step".toList

/-- What the command comes to. -/
def outcome (turn : Turn σ) : Except SessionError Response × Session σ :=
  Session.issue turn.text turn.display turn.before.session

/-- How the turn ends: behind a command that moves the target there is a wait. -/
def ending (turn : Turn σ) : Except SessionError Unit × Session σ :=
  match turn.outcome with
  | (.ok _, session) => if moves turn.text then Session.waitIdle session else (.ok (), session)
  | (.error e, session) => (.error e, session)

theorem ending_of_error {turn : Turn σ} {e : SessionError} {session : Session σ}
    (houtcome : turn.outcome = (.error e, session)) : turn.ending = (.error e, session) := by
  rw [ending, houtcome]

theorem ending_of_ok {turn : Turn σ} {response : Response} {session : Session σ}
    (houtcome : turn.outcome = (.ok response, session)) :
    turn.ending = if moves turn.text then Session.waitIdle session else (.ok (), session) := by
  rw [ending, houtcome]

end Turn

namespace Plan
variable {σ : Type}

def carryOut : Plan σ → Recording σ → Except SessionError Unit × Recording σ
  | .done, recording => (.ok (), recording)
  | .give text display next, recording =>
    match Session.issue text display recording.session with
    | (.ok response, session) => (next response).carryOut { recording with session }
    | (.error e, session) => (.error e, { recording with session })
  | .wait next, recording =>
    match Session.waitIdle recording.session with
    | (.ok (), session) => next.carryOut { recording with session }
    | (.error e, session) => (.error e, { recording with session })
  | .look next, recording => (next recording).carryOut recording
  | .note program log memlog next, recording => next.carryOut (recording.put program log memlog)

/-- The commands given, up to the first that fails. -/
def turns : Plan σ → Recording σ → List (Turn σ)
  | .done, _ => []
  | .give text display next, recording =>
    { before := recording, text, display } ::
      match Session.issue text display recording.session with
      | (.ok response, session) => (next response).turns { recording with session }
      | (.error _, _) => []
  | .wait next, recording =>
    match Session.waitIdle recording.session with
    | (.ok (), session) => next.turns { recording with session }
    | (.error _, _) => []
  | .look next, recording => (next recording).turns recording
  | .note program log memlog next, recording => next.turns (recording.put program log memlog)

/-! ### The plan of a run -/

/-- Put down the values of a variable, its address and its size having been asked for. -/
def observe (frame : Nat) (observed : Local) (address size : Response) (next : Plan σ) : Plan σ :=
  let typed := Printed.readAddress? address.text
  let observation : Observation :=
    { name := observed.name
      type := (typed.map (·.1)).getD []
      address := typed.map (·.2)
      size := Printed.readInteger? size.text
      frame
      literal := Literal.read observed.value }
  .look fun recording =>
    .note (observation.values.foldl (fun program value => (program.observe value).2)
      recording.session.program) recording.log recording.memlog next

def recordLocal (frame : Nat) (observed : Local) (next : Plan σ) : Plan σ :=
  .give ("print &".toList ++ observed.name) false fun address =>
  .give ("print sizeof(".toList ++ observed.name ++ [')']) false fun size =>
  observe frame observed address size next

def recordLocals (frame : Nat) (command : Text) (next : Plan σ) : Plan σ :=
  .give command false fun response => (Locals.all response.text).foldr (recordLocal frame) next

/-- Record the arguments and locals of the innermost frame, if there is one. -/
def recordInnermost (next : Plan σ) : Plan σ :=
  .look fun recording => match recording.session.program.frames.length with
    | 0 => next
    | innermost + 1 =>
      recordLocals innermost "info args".toList <| recordLocals innermost "info locals".toList next

def syncFrames (frames : List StackFrame) (next : Plan σ) : Plan σ :=
  .look fun recording =>
    .note (recording.session.program.syncFrames frames) recording.log recording.memlog next

/-- Put down what has come of the memory log. -/
def pollMemlog (next : Plan σ) : Plan σ :=
  .look fun recording =>
    let polled := (Recording.pollMemlog recording).2
    .note polled.session.program polled.log polled.memlog next

def recordSnapshot (frames : List StackFrame) (next : Plan σ) : Plan σ :=
  .look fun recording =>
    .note recording.session.program (recording.log.record frames).2 recording.memlog next

def recordStop (next : Plan σ) : Plan σ :=
  .give "backtrace".toList false fun backtrace =>
    let frames := Backtrace.frames backtrace.text
    syncFrames frames <| recordInnermost <| pollMemlog <| recordSnapshot frames next

def stepThrough : Nat → Plan σ
  | 0 => .done
  | n + 1 => .look fun recording =>
    if recording.session.dialogue.exited then .done
    else recordStop <| .give "step".toList true fun _ => .wait (stepThrough n)

def drive (config : Config) : Plan σ :=
  .give "info functions".toList false fun _ =>
  .give ("break ".toList ++ config.entryBreakpoint) false fun _ =>
  .give "run".toList true fun _ => .wait (stepThrough config.maxSteps)

/-! ### Carrying it out -/

section
variable {α β : Type}

/-- Carrying out the plan is doing these things, and then the rest. -/
def Follows (plan : Plan σ → Plan σ) (action : RecordingAction σ α) : Prop :=
  ∀ rest recording, (plan rest).carryOut recording = match action recording with
    | (.ok _, recording) => rest.carryOut recording
    | (.error e, recording) => (.error e, recording)

variable {plan later : Plan σ → Plan σ} {action : RecordingAction σ α} {rest : RecordingAction σ β}

theorem Follows.seq (hplan : Follows plan action) (hlater : Follows later rest) :
    Follows (fun next => plan (later next)) (action >>= fun _ => rest) := by
  intro next recording
  rw [hplan, bind_apply]
  rcases action recording with ⟨_ | _, recording⟩
  · rfl
  · exact hlater next recording

theorem Follows.carryOut_eq {next : Plan σ} {last : RecordingAction σ Unit} (hplan : Follows plan action)
    (hlast : ∀ recording, next.carryOut recording = last recording) (recording : Recording σ) :
    (plan next).carryOut recording = (action >>= fun _ => last) recording := by
  rw [hplan, bind_apply]
  rcases action recording with ⟨_ | _, recording⟩
  · rfl
  · exact hlast recording

theorem follows_give {text : Text} {display : Bool} {later : Response → Plan σ → Plan σ}
    {rest : Response → RecordingAction σ β}
    (hlater : ∀ response, Follows (later response) (rest response)) :
    Follows (fun next => .give text display fun response => later response next)
      (Recording.inSession (Session.issue text display) >>= rest) := by
  intro next recording
  rw [carryOut, bind_apply, Recording.inSession]
  rcases Session.issue text display recording.session with ⟨_ | response, session⟩
  · rfl
  · exact hlater response next { recording with session }

/-- The response to a command may make no difference. -/
theorem follows_issue (text : Text) (display : Bool) :
    Follows (σ := σ) (fun next => .give text display fun _ => next)
      (Recording.inSession (Session.issue text display)) := by
  intro next recording
  rw [carryOut, Recording.inSession]
  rcases Session.issue text display recording.session with ⟨_ | _, _⟩ <;> rfl

theorem follows_wait :
    Follows (σ := σ) .wait (Recording.inSession Session.waitIdle) := by
  intro next recording
  rw [carryOut, Recording.inSession]
  rcases Session.waitIdle recording.session with ⟨_ | _, _⟩ <;> rfl

theorem follows_look {later : Recording σ → Plan σ → Plan σ}
    {rest : Recording σ → RecordingAction σ β}
    (hlater : ∀ recording, Follows (later recording) (rest recording)) :
    Follows (fun next => .look fun recording => later recording next) (get >>= rest) :=
  fun next recording => hlater recording next recording

/-- An action that only puts something down cannot fail. -/
theorem follows_note {program : Recording σ → ProgramState} {log : Recording σ → SnapshotLog}
    {memlog : Recording σ → MemlogTail} (haction : ∀ recording, ∃ value, action recording =
      (.ok value, recording.put (program recording) (log recording) (memlog recording))) :
    Follows (fun next => .look fun recording =>
      .note (program recording) (log recording) (memlog recording) next) action := by
  intro next recording
  obtain ⟨value, hput⟩ := haction recording
  rw [carryOut, carryOut, hput]

theorem inSession_bind (action : Action σ α) (next : α → Action σ β) :
    Recording.inSession (action >>= next) =
      Recording.inSession action >>= fun value => Recording.inSession (next value) := by
  funext recording
  rw [bind_apply, Recording.inSession, bind_apply, Recording.inSession]
  rcases action recording.session with ⟨_ | _, _⟩ <;> rfl

/-- A loop is followed by one plan after the other. -/
theorem follows_forIn {each : α → Plan σ → Plan σ} {action : α → Action σ Unit} (values : List α)
    (heach : ∀ value, Follows (each value) (Recording.inSession (action value))) :
    Follows (fun next => values.foldr each next)
      (Recording.inSession (do for value in values do action value)) := by
  induction values with
  | nil => exact fun _ _ => rfl
  | cons value values ih =>
    have hsplit : (do for value in value :: values do action value : Action σ Unit) =
        (action value >>= fun _ => (do for value in values do action value)) := by
      rw [List.forIn_cons]
      simp only [bind_assoc, pure_bind]
    rw [hsplit, inSession_bind]
    exact (heach value).seq ih

end

theorem follows_recordLocal (frame : Nat) (observed : Local) : Follows (σ := σ)
    (recordLocal frame observed) (Recording.inSession (Recording.recordLocal frame observed)) := by
  rw [Recording.recordLocal, inSession_bind]
  apply follows_give
  intro address
  rw [inSession_bind]
  apply follows_give
  intro size
  exact follows_note fun _ => ⟨(), rfl⟩

theorem follows_recordLocals (frame : Nat) (command : Text) : Follows (σ := σ)
    (recordLocals frame command) (Recording.inSession (Recording.recordLocals frame command)) := by
  rw [Recording.recordLocals, inSession_bind]
  apply follows_give
  intro response
  exact follows_forIn _ (follows_recordLocal frame)

/-- Taking in the memory log has no part in the conversation. -/
theorem pollMemlog_eq (recording : Recording σ) :
    let polled := (Recording.pollMemlog recording).2
    Recording.pollMemlog recording =
      (.ok (), recording.put polled.session.program polled.log polled.memlog) := by
  dsimp only
  rw [Recording.pollMemlog]
  split
  · rfl
  · split <;> rfl

theorem follows_pollMemlog : Follows (σ := σ) pollMemlog Recording.pollMemlog :=
  follows_note fun recording => ⟨(), pollMemlog_eq recording⟩

theorem follows_recordStop : Follows (σ := σ) recordStop Recording.recordStop := by
  apply follows_give
  intro backtrace
  let frames := Backtrace.frames backtrace.text
  let record : RecordingAction σ Snapshot := modifyGet fun recording =>
    let recorded := recording.log.record frames
    (recorded.1, { recording with log := recorded.2 })
  have hsync : Follows (syncFrames frames)
      (Recording.inSession (σ := σ) (Session.modifyProgram (·.syncFrames frames))) :=
    follows_note fun _ => ⟨(), rfl⟩
  have hrecord : Follows (recordSnapshot frames) record := follows_note fun _ => ⟨_, rfl⟩
  have hrest := follows_pollMemlog.seq hrecord
  apply hsync.seq
  apply follows_look
  intro recording
  cases recording.session.program.frames.length with
  | zero => exact hrest
  | succ innermost =>
    exact (follows_recordLocals innermost _).seq ((follows_recordLocals innermost _).seq hrest)

theorem carryOut_stepThrough (n : Nat) (recording : Recording σ) :
    (stepThrough n).carryOut recording = AutoRun.stepThrough n recording := by
  induction n generalizing recording with
  | zero => rfl
  | succ n ih =>
    have hasked : Recording.inSession Session.hasExited recording =
        (.ok recording.session.dialogue.exited, recording) := rfl
    rw [stepThrough, AutoRun.stepThrough, carryOut, bind_apply, hasked]
    dsimp only
    cases recording.session.dialogue.exited with
    | true => rfl
    | false =>
      have hstep := ((follows_issue "step".toList true).seq follows_wait).carryOut_eq ih
      rw [bind_assoc] at hstep
      exact follows_recordStop.carryOut_eq hstep recording

/-- The plan is what an automated run does. -/
theorem carryOut_drive (config : Config) (recording : Recording σ) :
    (drive config).carryOut recording = AutoRun.drive config recording := by
  apply (follows_issue _ false).carryOut_eq
  apply (follows_issue _ false).carryOut_eq
  apply (follows_issue _ true).carryOut_eq
  apply follows_wait.carryOut_eq
  exact carryOut_stepThrough config.maxSteps

end Plan
end DebugClient
