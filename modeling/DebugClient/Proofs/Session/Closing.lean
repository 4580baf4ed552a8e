import DebugClient.Proofs.Session.Plan
import DebugClient.Session.Script

/-!
A debugger that exits in the course of an automated run. What has been recorded by then is kept if the
exit falls into a wait: for the answer to a command, or for the target behind `run` and `step`. If it
falls between a command that has been answered and the next one, that one is refused, the run fails and
its recordings are lost.
-/

namespace DebugClient

namespace Turn
variable {σ : Type}

/-- The debugger exits in this turn. -/
structure Closes (turn : Turn σ) : Prop where
  before : turn.before.session.dialogue.isRunning = true
  after : turn.ending.2.dialogue.isRunning = false

instance (turn : Turn σ) : Decidable turn.Closes :=
  decidable_of_iff (turn.before.session.dialogue.isRunning = true ∧
      turn.ending.2.dialogue.isRunning = false)
    ⟨fun h => ⟨h.1, h.2⟩, fun h => ⟨h.before, h.after⟩⟩

/-- The exit is noticed in this turn: by whoever waits for the answer to the command, or for the target
    behind it. -/
def IsAwaited (turn : Turn σ) : Prop := ∃ e, turn.ending.1 = .error e

instance (turn : Turn σ) : Decidable turn.IsAwaited :=
  match hending : turn.ending.1 with
  | .error e => .isTrue ⟨e, hending⟩
  | .ok _ => .isFalse fun ⟨_, herror⟩ => nomatch hending.symm.trans herror

end Turn

namespace Plan
open Session

variable {σ : Type} {plan next : Plan σ} {recording : Recording σ} {turn : Turn σ}

/-- What comes next in the conversation is a command. -/
def Gives : Plan σ → Prop
  | .give .. => True
  | .look next => ∀ recording, (next recording).Gives
  | .note _ _ _ next => next.Gives
  | .wait _ | .done => False

/-- What comes next is a wait. -/
def Waits (plan : Plan σ) : Prop := ∃ rest, plan = .wait rest

/-- Behind a command that moves the target there is a wait, behind any other the next command. -/
def Paced : Plan σ → Prop
  | .give text _ next => ∀ response, (next response).Paced ∧
    if Turn.moves text then (next response).Waits else (next response).Gives
  | .look next => ∀ recording, (next recording).Paced
  | .note _ _ _ next | .wait next => next.Paced
  | .done => True

/-! ### The pace of a run -/

theorem paced_recordLocal (frame : Nat) (observed : Local) (hgives : next.Gives)
    (hpaced : next.Paced) : (recordLocal frame observed next).Paced := by
  intro address
  rw [if_neg (by simp [Turn.moves])]
  refine ⟨?_, trivial⟩
  intro size
  rw [if_neg (by simp [Turn.moves])]
  exact ⟨fun _ => hpaced, fun _ => hgives⟩

theorem paced_recordLocals {command : Text} (frame : Nat) (hcommand : Turn.moves command = false)
    (hgives : next.Gives) (hpaced : next.Paced) : (recordLocals frame command next).Paced := by
  intro response
  rw [if_neg (by simp [hcommand])]
  dsimp only
  induction Locals.all response.text with
  | nil => exact ⟨hpaced, hgives⟩
  | cons observed locals ih => exact ⟨paced_recordLocal frame observed ih.2 ih.1, trivial⟩

theorem gives_recordInnermost (hgives : next.Gives) : (recordInnermost next).Gives := by
  intro recording
  dsimp only
  cases recording.session.program.frames.length with
  | zero => exact hgives
  | succ innermost => trivial

theorem paced_recordInnermost (hgives : next.Gives) (hpaced : next.Paced) :
    (recordInnermost next).Paced := by
  intro recording
  dsimp only
  cases recording.session.program.frames.length with
  | zero => exact hpaced
  | succ innermost =>
    have hlocals : (recordLocals innermost "info locals".toList next).Gives := trivial
    exact paced_recordLocals innermost (by decide) hlocals
      (paced_recordLocals innermost (by decide) hgives hpaced)

theorem paced_recordStop (hgives : next.Gives) (hpaced : next.Paced) : (recordStop next).Paced := by
  intro backtrace
  rw [if_neg (by decide)]
  have hrecord : (pollMemlog (recordSnapshot (Backtrace.frames backtrace.text) next)).Gives :=
    fun _ _ => hgives
  exact ⟨fun _ => paced_recordInnermost hrecord fun _ _ => hpaced,
    fun _ => gives_recordInnermost hrecord⟩

theorem paced_stepThrough (n : Nat) : (stepThrough n : Plan σ).Paced := by
  induction n with
  | zero => trivial
  | succ n ih =>
    intro recording
    dsimp only
    split
    · trivial
    · exact paced_recordStop trivial fun _ => ⟨ih, _, rfl⟩

theorem paced_drive (config : Config) : (drive config : Plan σ).Paced := by
  intro _
  rw [if_neg (by decide)]
  refine ⟨fun _ => ?_, trivial⟩
  rw [if_neg (by simp [Turn.moves])]
  refine ⟨fun _ => ?_, trivial⟩
  exact ⟨paced_stepThrough config.maxSteps, _, rfl⟩

/-! ### Turns -/

/-- What holds of the session at the start, and whatever has been done, holds before each turn. -/
theorem before_of_mem_turns {P : Session σ → Prop} (hturn : turn ∈ plan.turns recording)
    (hstart : P recording.session)
    (hissue : ∀ text display session, P session → P (issue text display session).2)
    (hwait : ∀ session, P session → P (waitIdle session).2)
    (hnote : ∀ session program, P session → P { session with program }) :
    P turn.before.session := by
  induction plan generalizing recording with
  | done => cases hturn
  | give text display next ih =>
    rw [turns] at hturn
    rcases List.mem_cons.1 hturn with rfl | hturn
    · exact hstart
    · have hafter := hissue text display _ hstart
      revert hturn hafter
      rcases issue text display recording.session with ⟨e | response, session⟩
      · intro hturn
        cases hturn
      · exact fun hturn hafter => ih response hturn hafter
  | wait next ih =>
    have hafter := hwait _ hstart
    rw [turns] at hturn
    revert hturn hafter
    rcases waitIdle recording.session with ⟨e | _, session⟩
    · intro hturn
      cases hturn
    · exact fun hturn hafter => ih hturn hafter
  | look next ih => exact ih recording hturn hstart
  | note program log memlog next ih => exact ih hturn (hnote _ program hstart)

/-- The setting of a run is the same all along. -/
theorem tidy_and_setting_of_mem_turns (hturn : turn ∈ plan.turns recording)
    (htidy : recording.session.dialogue.Tidy 0) :
    turn.before.session.dialogue.Tidy 0 ∧
      turn.before.session.setting = recording.session.setting := by
  apply before_of_mem_turns (P := fun session =>
    session.dialogue.Tidy 0 ∧ session.setting = recording.session.setting) hturn ⟨htidy, rfl⟩
  · rintro text display session ⟨htidy, hsetting⟩
    exact ⟨keeps_issueCommand _ _ htidy, (setting_issueCommand _ htidy).trans hsetting⟩
  · rintro session ⟨htidy, hsetting⟩
    exact ⟨keeps_waitIdle _ htidy, (setting_waitIdle session).trans hsetting⟩
  · exact fun _ _ hsession => hsession

/-! ### The turn in which the debugger exits -/

/-- Without a debugger the next command is refused. -/
theorem carryOut_of_gives (hgives : plan.Gives) (htidy : recording.session.dialogue.Tidy 0)
    (hgone : recording.session.dialogue.isRunning = false) : ∃ program log memlog,
    plan.carryOut recording = (.error .notRunning, recording.put program log memlog) := by
  induction plan generalizing recording with
  | give text display next _ =>
    have hrefused : issue text display recording.session = (.error .notRunning, recording.session) :=
      issueCommand_of_not_isRunning _ htidy hgone
    rw [carryOut, hrefused]
    exact ⟨recording.session.program, recording.log, recording.memlog, rfl⟩
  | look next ih => exact ih recording (hgives recording) htidy hgone
  | note program log memlog next ih =>
    have htidy' : (recording.put program log memlog).session.dialogue.Tidy 0 := htidy
    exact ih hgives htidy' hgone
  | wait => cases hgives
  | done => cases hgives

/-- If the debugger exits in a turn, the turn ends well, or it ends because of that. -/
theorem ending_of_closes (htidy : turn.before.session.dialogue.Tidy 0) (hcloses : turn.Closes) :
    (turn.ending = (.ok (), turn.ending.2) ∧ Turn.moves turn.text = false) ∨
      turn.ending = (.error .sessionTerminated, turn.ending.2) := by
  have hgone := hcloses.after
  rcases houtcome : turn.outcome with ⟨e | response, session⟩
  · rw [Turn.ending_of_error houtcome] at hgone ⊢
    have hissue :
        issueCommand (.ofText turn.text turn.display) turn.before.session = (.error e, session) :=
      houtcome
    have hresult := issueCommand_of_closes htidy hcloses.before (by rw [hissue]; exact hgone)
    rw [hissue] at hresult
    right
    simpa using hresult
  · rw [Turn.ending_of_ok houtcome] at hgone ⊢
    cases hmoves : Turn.moves turn.text with
    | false => exact .inl ⟨rfl, rfl⟩
    | true =>
      rw [hmoves] at hgone
      right
      rw [if_pos rfl]
      exact waitIdle_of_closes hgone

/-- A plan whose first turn fails goes no further. -/
theorem carryOut_of_ending_error {next : Response → Plan σ} {e : SessionError} {session : Session σ}
    (hpaced : (give turn.text turn.display next).Paced) (hending : turn.ending = (.error e, session)) :
    (give turn.text turn.display next).carryOut turn.before =
      (.error e, { turn.before with session }) := by
  rcases houtcome : turn.outcome with ⟨e' | response, given⟩
  · rw [Turn.ending_of_error houtcome] at hending
    cases hending
    rw [Turn.outcome] at houtcome
    rw [carryOut, houtcome]
  · rw [Turn.ending_of_ok houtcome] at hending
    rw [Turn.outcome] at houtcome
    rw [carryOut, houtcome]
    dsimp only
    have hnext := (hpaced response).2
    cases hmoves : Turn.moves turn.text with
    | false =>
      rw [hmoves] at hending
      cases hending
    | true =>
      rw [hmoves, if_pos rfl] at hending hnext
      obtain ⟨rest, hplan⟩ := hnext
      rw [hplan, carryOut, hending]

/-- Behind a first turn that ends well, and does not move the target, a plan goes on to the next
    command. -/
theorem carryOut_of_ending_ok {next : Response → Plan σ} {session : Session σ}
    (hpaced : (give turn.text turn.display next).Paced) (hending : turn.ending = (.ok (), session))
    (hmoves : Turn.moves turn.text = false) : ∃ rest : Plan σ, rest.Gives ∧
      (give turn.text turn.display next).carryOut turn.before =
        rest.carryOut { turn.before with session } := by
  rcases houtcome : turn.outcome with ⟨e | response, given⟩
  · rw [Turn.ending_of_error houtcome] at hending
    cases hending
  · rw [Turn.ending_of_ok houtcome, hmoves] at hending
    cases hending
    have hnext := (hpaced response).2
    rw [hmoves] at hnext
    rw [Turn.outcome] at houtcome
    rw [carryOut, houtcome]
    exact ⟨next response, hnext, rfl⟩

theorem tidy_and_setting_ending (htidy : turn.before.session.dialogue.Tidy 0) :
    turn.ending.2.dialogue.Tidy 0 ∧ turn.ending.2.setting = turn.before.session.setting := by
  have hgiven : turn.outcome.2.dialogue.Tidy 0 := keeps_issueCommand _ _ htidy
  have hsetting : turn.outcome.2.setting = turn.before.session.setting := setting_issueCommand _ htidy
  rcases houtcome : turn.outcome with ⟨e | response, session⟩
  · rw [Turn.ending_of_error houtcome]
    rw [houtcome] at hgiven hsetting
    exact ⟨hgiven, hsetting⟩
  · rw [houtcome] at hgiven hsetting
    rw [Turn.ending_of_ok houtcome]
    split
    · exact ⟨keeps_waitIdle _ hgiven, (setting_waitIdle session).trans hsetting⟩
    · exact ⟨hgiven, hsetting⟩

/-- What becomes of a plan whose first command the debugger exits on. -/
theorem carryOut_of_closes_first {next : Response → Plan σ}
    (hpaced : (give turn.text turn.display next).Paced)
    (htidy : turn.before.session.dialogue.Tidy 0) (hcloses : turn.Closes) :
    (turn.IsAwaited → (give turn.text turn.display next).carryOut turn.before =
      (.error .sessionTerminated, { turn.before with session := turn.ending.2 })) ∧
    (¬ turn.IsAwaited → ∃ program log memlog, (give turn.text turn.display next).carryOut turn.before =
      (.error .notRunning, { turn.before with session := turn.ending.2 }.put program log memlog)) := by
  rcases ending_of_closes htidy hcloses with ⟨hok, hstays⟩ | hterminated
  · have hnot : ¬ turn.IsAwaited := by
      rintro ⟨e, herror⟩
      rw [hok] at herror
      cases herror
    obtain ⟨rest, hgives, hrest⟩ := carryOut_of_ending_ok hpaced hok hstays
    refine ⟨fun hawaited => absurd hawaited hnot, fun _ => ?_⟩
    rw [hrest]
    exact carryOut_of_gives hgives (tidy_and_setting_ending htidy).1 hcloses.after
  · have hawaited : turn.IsAwaited := ⟨_, congrArg Prod.fst hterminated⟩
    exact ⟨fun _ => carryOut_of_ending_error hpaced hterminated, fun hnot => absurd hawaited hnot⟩

/-- What becomes of a plan in whose course the debugger exits. -/
theorem carryOut_of_closes (hpaced : plan.Paced) (htidy : recording.session.dialogue.Tidy 0)
    (hturn : turn ∈ plan.turns recording) (hcloses : turn.Closes) :
    (turn.IsAwaited → plan.carryOut recording =
      (.error .sessionTerminated, { turn.before with session := turn.ending.2 })) ∧
    (¬ turn.IsAwaited → ∃ program log memlog, plan.carryOut recording =
      (.error .notRunning, { turn.before with session := turn.ending.2 }.put program log memlog)) := by
  induction plan generalizing recording with
  | done => cases hturn
  | give text display next ih =>
    rw [turns] at hturn
    rcases List.mem_cons.1 hturn with rfl | hturn
    · exact carryOut_of_closes_first hpaced htidy hcloses
    · rw [carryOut]
      have hafter := keeps_issueCommand (.ofText text display) _ htidy
      change (issue text display recording.session).2.dialogue.Tidy 0 at hafter
      revert hturn hafter
      rcases issue text display recording.session with ⟨e | response, session⟩
      · intro hturn
        cases hturn
      · exact fun hturn hafter => ih response (hpaced response).1 hafter hturn
  | wait next ih =>
    have hafter := keeps_waitIdle _ htidy
    rw [turns] at hturn
    rw [carryOut]
    revert hturn hafter
    rcases waitIdle recording.session with ⟨e | _, session⟩
    · intro hturn
      cases hturn
    · exact fun hturn hafter => ih hpaced hafter hturn
  | look next ih => exact ih recording (hpaced recording) htidy hturn
  | note program log memlog next ih => exact ih hpaced htidy hturn

end Plan

namespace AutoRun
open Plan Session

variable {σ : Type} {session : Session σ} {turn : Turn σ}

/-- A debugger exits in some turn of a run. If that is awaited, the run succeeds with exactly the
    snapshots recorded before, and writes them if that is wanted and possible. If not, the run fails
    and nothing is written. -/
theorem run_of_closes (hreached : session.Reached)
    (hturn : turn ∈ (Plan.drive session.config).turns { session }) (hcloses : turn.Closes) :
    (turn.IsAwaited →
      (session.config.snapshotPath = none →
        run session = (.ok turn.before.log.snapshots, turn.ending.2)) ∧
      ∀ name, session.config.snapshotPath = some name →
        (∀ files, turn.ending.2.files.write? session.machine.directory name
            (Utf8.encode turn.before.log.write) = some files →
          run session = (.ok turn.before.log.snapshots, turn.ending.2.setFiles files)) ∧
        (turn.ending.2.files.write? session.machine.directory name
            (Utf8.encode turn.before.log.write) = none →
          run session = (.error .io, turn.ending.2))) ∧
    (¬ turn.IsAwaited → (run session).1 = .error .notRunning ∧
      (run session).2.files = turn.ending.2.files) := by
  have htidy := hreached.tidy
  obtain ⟨hbefore, hsetting⟩ := tidy_and_setting_of_mem_turns hturn htidy
  have hafter : turn.ending.2.setting = session.setting :=
    (tidy_and_setting_ending hbefore).2.trans hsetting
  have hconfig : turn.ending.2.config = session.config := congrArg (·.2.1) hafter
  have hdirectory : turn.ending.2.machine.directory = session.machine.directory :=
    congrArg (·.1.directory) hafter
  obtain ⟨hawaited, hlost⟩ := carryOut_of_closes (paced_drive session.config) htidy hturn hcloses
  rw [carryOut_drive] at hawaited hlost
  constructor
  · intro hwait
    rw [run, hawaited hwait]
    dsimp only
    rw [writeSnapshots, hconfig, hdirectory]
    refine ⟨?_, ?_⟩
    · intro hpath
      rw [hpath]
    · intro name hpath
      rw [hpath]
      dsimp only
      refine ⟨?_, ?_⟩
      · intro files hwrite
        rw [hwrite]
      · intro hwrite
        rw [hwrite]
  · intro hwait
    obtain ⟨program, log, memlog, hdrive⟩ := hlost hwait
    rw [run, hdrive]
    exact ⟨rfl, rfl⟩

/-! ### Scripted debuggers that exit -/

/-- A machine on which a debugger follows a script. -/
def scripted (script : Script) : Machine Script :=
  { debugger := Script.debugger, launch? := fun _ _ => some script, directory := [], files := {} }

/-- A session with a debugger that follows a script. -/
def scriptedSession (script : Script) (config : Config) : Session Script :=
  ((start (scripted script) "a.out".toList ['.'] config).toOption).getD
    { machine := scripted script, config, peer := script, workingDirectory := [],
      dialogue := .detached (.ofSentinels config.sentinels) }

theorem reached_scriptedSession {script : Script} {config : Config}
    (hstart : (start (scripted script) "a.out".toList ['.'] config).toOption.isSome) :
    (scriptedSession script config).Reached := by
  rw [scriptedSession]
  cases hresult : start (scripted script) "a.out".toList ['.'] config with
  | error e =>
    rw [hresult] at hstart
    cases hstart
  | ok session => exact .start hresult

def stop : Text := "#0  main () at a.c:3\n".toList

/-- The debugger exits while the first `step` is carried out: there is one stop, and it is written. -/
theorem run_of_closes_in_step :
    let session := scriptedSession
      { replies := [("backtrace".toList, [{ output := Utf8.encode stop }]),
          ("step".toList, [{ ending := .close }])] }
      { snapshotPath := some "stops".toList }
    let snapshot : Snapshot := { sequence := 1, frames := Backtrace.frames stop, currentLine := some 3 }
    (run session).1 = .ok [snapshot] ∧
      (run session).2.files.files = [(["stops".toList], Utf8.encode (snapshot.write ++ ['\n']))] := by
  intro session snapshot
  have hreached : session.Reached := reached_scriptedSession (by decide +kernel)
  have hpath : session.config.snapshotPath = some "stops".toList := by decide +kernel
  have hcourse : ∃ turn ∈ (Plan.drive session.config).turns { session }, turn.Closes ∧
      turn.IsAwaited ∧ turn.before.log.snapshots = [snapshot] ∧
      turn.ending.2.files.write? session.machine.directory "stops".toList
        (Utf8.encode turn.before.log.write) =
      some { files := [(["stops".toList], Utf8.encode (snapshot.write ++ ['\n']))] } := by
    decide +kernel
  obtain ⟨turn, hturn, hcloses, hwaits, hsnapshots, hwrite⟩ := hcourse
  obtain ⟨hawaited, -⟩ := run_of_closes hreached hturn hcloses
  obtain ⟨-, hnamed⟩ := hawaited hwaits
  obtain ⟨hwritten, -⟩ := hnamed _ hpath
  rw [hwritten _ hwrite, hsnapshots]
  exact ⟨rfl, rfl⟩

/-- The debugger answers the second `backtrace` and exits. -/
theorem snapshots_lost_between_commands :
    ¬ ∀ (session : Session Script) (turn : Turn Script), session.Reached →
      turn ∈ (Plan.drive session.config).turns { session } → turn.Closes →
      ∃ final, run session = (.ok turn.before.log.snapshots, final) := by
  intro hclaim
  let session := scriptedSession
    { replies := [("backtrace".toList, [{ output := Utf8.encode stop },
        { output := Utf8.encode (stop ++ "(gdb) ".toList), ending := .close }])] } {}
  have hreached : session.Reached := reached_scriptedSession (by decide +kernel)
  have hcourse : ∃ turn ∈ (Plan.drive session.config).turns { session }, turn.Closes := by
    decide +kernel
  obtain ⟨turn, hturn, hcloses⟩ := hcourse
  obtain ⟨final, hrun⟩ := hclaim session turn hreached hturn hcloses
  have hfails : (run session).1.toOption = none := by decide +kernel
  rw [hrun] at hfails
  cases hfails

end AutoRun
end DebugClient
