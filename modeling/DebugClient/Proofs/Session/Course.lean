import DebugClient.Proofs.Reply.Locals
import DebugClient.Proofs.Session.Closing
import DebugClient.Proofs.Session.Responsive

/-!
The course of an automated run with a debugger that answers every line. The run is never refused
anything: before each of its commands nothing is in flight or waiting. It records a stop for each `step`,
from the response to the `backtrace` in front of it, and gives no more commands when it finds that the
target has ended.
-/

namespace DebugClient
open Session

namespace Turn
variable {σ : Type}

def isBacktrace (turn : Turn σ) : Bool := turn.text = "backtrace".toList

def isStep (turn : Turn σ) : Bool := turn.text = "step".toList

/-- The body of the debugger's reply to the command. -/
def reply (body : Text → σ → Text) (turn : Turn σ) : Text := body turn.text turn.before.session.peer

/-- Nothing is in flight or waiting when the command is given, and the response is the reply to it. -/
structure IsAnswered (body : Text → σ → Text) (turn : Turn σ) : Prop where
  idle : turn.before.session.dialogue.isIdle = true
  response : ∃ response, turn.outcome.1 = .ok response ∧ response.text = turn.reply body

/-- The target has been moved, and it is found to have ended. -/
def Ends (turn : Turn σ) : Prop := moves turn.text = true ∧ turn.ending.2.dialogue.exited = true

/-- The command is neither a `backtrace` nor one that moves the target. -/
structure IsAside (turn : Turn σ) : Prop where
  isBacktrace : turn.isBacktrace = false
  moves : moves turn.text = false

theorem IsAside.isStep {turn : Turn σ} (haside : turn.IsAside) : turn.isStep = false := by
  have hmoves := haside.moves
  simp only [Turn.moves, decide_eq_false_iff_not, not_or] at hmoves
  exact decide_eq_false hmoves.2

end Turn

/-- The order that a run keeps: which stops have been recorded when these commands have been given. -/
structure Orderly {σ : Type} (body : Text → σ → Text) (turns : List (Turn σ))
    (stops : List (List StackFrame)) : Prop where
  answered : ∀ turn ∈ turns, turn.IsAnswered body
  /-- A stop is recorded for each `step`. -/
  steps : (turns.filter Turn.isStep).length = stops.length
  /-- The frames of a stop are read from the reply to its `backtrace`. -/
  frames : stops = (turns.filter Turn.isBacktrace).map fun turn =>
    (Backtrace.read (turn.reply body)).toOption.getD []
  /-- There is one `backtrace` in front of each `step`, and no other. -/
  alternating : (turns.filter fun turn => turn.isBacktrace || turn.isStep).map Turn.text =
    (List.replicate stops.length ["backtrace".toList, "step".toList]).flatten
  /-- When the target is found to have ended, no command is given any more. -/
  ended : turns.Pairwise fun turn _ => ¬ turn.Ends

namespace Orderly
variable {σ : Type} {body : Text → σ → Text} {turns others : List (Turn σ)}
  {stops later : List (List StackFrame)}

theorem nil : Orderly body ([] : List (Turn σ)) [] := ⟨by simp, rfl, rfl, rfl, .nil⟩

theorem append (hturns : Orderly body turns stops) (hothers : Orderly body others later)
    (hends : ∀ turn ∈ turns, turn.Ends → others = []) :
    Orderly body (turns ++ others) (stops ++ later) where
  answered turn hturn := (List.mem_append.1 hturn).elim (hturns.answered turn) (hothers.answered turn)
  steps := by
    rw [List.filter_append, List.length_append, hturns.steps, hothers.steps, List.length_append]
  frames := by
    rw [List.filter_append, List.map_append, ← hturns.frames, ← hothers.frames]
  alternating := by
    rw [List.filter_append, List.map_append, hturns.alternating, hothers.alternating,
      List.length_append, List.replicate_add, List.flatten_append]
  ended := by
    refine List.pairwise_append.2 ⟨hturns.ended, hothers.ended, ?_⟩
    intro turn hturn other hother hended
    rw [hends turn hturn hended] at hother
    cases hother

theorem filter_of_asides (hturns : ∀ turn ∈ turns, turn.IsAside) :
    turns.filter Turn.isStep = [] ∧ turns.filter Turn.isBacktrace = [] ∧
      (turns.filter fun turn => turn.isBacktrace || turn.isStep) = [] := by
  simp only [List.filter_eq_nil_iff]
  refine ⟨fun turn hturn => ?_, fun turn hturn => ?_, fun turn hturn => ?_⟩
  · simp [(hturns turn hturn).isStep]
  · simp [(hturns turn hturn).isBacktrace]
  · simp [(hturns turn hturn).isStep, (hturns turn hturn).isBacktrace]

theorem not_ends_of_moves {turn : Turn σ} (hmoves : Turn.moves turn.text = false) : ¬ turn.Ends := by
  rintro ⟨hmoved, -⟩
  rw [hmoves] at hmoved
  cases hmoved

theorem of_asides (hanswered : ∀ turn ∈ turns, turn.IsAnswered body)
    (hasides : ∀ turn ∈ turns, turn.IsAside) : Orderly body turns [] := by
  obtain ⟨hsteps, hbacktraces, hneither⟩ := filter_of_asides hasides
  refine ⟨hanswered, ?_, ?_, ?_, ?_⟩
  · rw [hsteps]
    rfl
  · rw [hbacktraces]
    rfl
  · rw [hneither]
    rfl
  · exact List.pairwise_of_forall_mem_list fun turn hturn _ _ =>
      not_ends_of_moves (hasides turn hturn).moves

theorem of_run {turn : Turn σ} (hanswered : turn.IsAnswered body) (hrun : turn.text = "run".toList) :
    Orderly body [turn] [] := by
  have hneither : turn.isBacktrace = false ∧ turn.isStep = false := by
    simp only [Turn.isBacktrace, Turn.isStep, hrun]
    decide
  refine ⟨by simpa, ?_, ?_, ?_, List.pairwise_singleton _ _⟩
  · simp [hneither]
  · simp [hneither]
  · simp [hneither]

/-- The turns of one stop: its `backtrace`, the questions about its variables, and the `step` behind
    it. -/
theorem stop {backtrace step : Turn σ} (hanswered : ∀ turn ∈ backtrace :: turns ++ [step],
      turn.IsAnswered body) (hbacktrace : backtrace.text = "backtrace".toList)
    (hasides : ∀ turn ∈ turns, turn.IsAside) (hstep : step.text = "step".toList) :
    Orderly body (backtrace :: turns ++ [step])
      [(Backtrace.read (backtrace.reply body)).toOption.getD []] := by
  obtain ⟨hsteps, hbacktraces, hneither⟩ := filter_of_asides hasides
  have hfirst : backtrace.isBacktrace = true ∧ backtrace.isStep = false := by
    simp only [Turn.isBacktrace, Turn.isStep, hbacktrace]
    decide
  have hlast : step.isBacktrace = false ∧ step.isStep = true := by
    simp only [Turn.isBacktrace, Turn.isStep, hstep]
    decide
  refine ⟨hanswered, ?_, ?_, ?_, ?_⟩
  · simp [hsteps, hfirst.2, hlast.2]
  · simp [hbacktraces, hfirst.1, hlast.1]
  · simp only [List.filter_append, List.filter_cons, hneither, hfirst, hlast]
    simp [hbacktrace, hstep]
  · have hends : ∀ turn ∈ backtrace :: turns, ¬ turn.Ends := by
      refine List.forall_mem_cons.2 ⟨not_ends_of_moves ?_, ?_⟩
      · rw [hbacktrace]
        decide
      · exact fun turn hturn => not_ends_of_moves (hasides turn hturn).moves
    exact List.pairwise_append.2
      ⟨List.pairwise_of_forall_mem_list fun turn hturn _ _ => hends turn hturn,
      List.pairwise_singleton _ _, fun turn hturn _ _ => hends turn hturn⟩

end Orderly

namespace Plan
variable {σ : Type}

/-- Carrying out this piece of a plan leads from one recording to another, with these turns on the
    way. -/
structure Leads (piece : Plan σ → Plan σ) (before : Recording σ) (turns : List (Turn σ))
    (after : Recording σ) : Prop where
  carryOut : ∀ rest, (piece rest).carryOut before = rest.carryOut after
  turns : ∀ rest, (piece rest).turns before = turns ++ rest.turns after

namespace Leads
variable {piece later : Plan σ → Plan σ} {before middle after : Recording σ}
  {turns others : List (Turn σ)}

theorem id (recording : Recording σ) : Leads (fun rest => rest) recording [] recording :=
  ⟨fun _ => rfl, fun _ => rfl⟩

theorem seq (hpiece : Leads piece before turns middle) (hlater : Leads later middle others after) :
    Leads (fun rest => piece (later rest)) before (turns ++ others) after where
  carryOut rest := (hpiece.carryOut _).trans (hlater.carryOut rest)
  turns rest := by rw [hpiece.turns, hlater.turns, List.append_assoc]

theorem give {text : Text} {display : Bool} {response : Response} {session : Session σ}
    {later : Response → Plan σ → Plan σ}
    (hissue : issue text display before.session = (.ok response, session))
    (hlater : Leads (later response) { before with session } turns after) :
    Leads (fun rest => .give text display fun response => later response rest) before
      ({ before, text, display } :: turns) after where
  carryOut rest := by
    rw [Plan.carryOut, hissue]
    exact hlater.carryOut rest
  turns rest := by
    rw [Plan.turns, hissue]
    exact congrArg _ (hlater.turns rest)

theorem wait {session : Session σ} (hwait : waitIdle before.session = (.ok (), session)) :
    Leads .wait before [] { before with session } where
  carryOut rest := by rw [Plan.carryOut, hwait]
  turns rest := by
    rw [Plan.turns, hwait]
    rfl

theorem look {later : Recording σ → Plan σ → Plan σ} (hlater : Leads (later before) before turns after) :
    Leads (fun rest => .look fun recording => later recording rest) before turns after :=
  ⟨hlater.carryOut, hlater.turns⟩

theorem note {program : Recording σ → ProgramState} {log : Recording σ → SnapshotLog}
    {memlog : Recording σ → MemlogTail} :
    Leads (fun rest => .look fun recording =>
      .note (program recording) (log recording) (memlog recording) rest) before []
      (before.put (program before) (log before) (memlog before)) :=
  ⟨fun _ => rfl, fun _ => rfl⟩

end Leads

/-! ### Pieces that only inquire -/

/-- With whom and where a recording is made. -/
structure Setup (σ : Type) where
  debugger : Debugger σ
  initial : σ
  config : Config
  setting : Machine σ × Config × List Text × List (List Text)

/-- The session of the recording is at rest. -/
structure Rests (setup : Setup σ) (recording : Recording σ) : Prop where
  session : recording.session.Rests setup.debugger setup.initial setup.config
  setting_eq : recording.session.setting = setup.setting

/-- From any recording at rest the piece leads to another one, by way of asides only, and no stop is
    recorded. -/
def Inquires (setup : Setup σ) (body : Text → σ → Text) (piece : Plan σ → Plan σ) : Prop :=
  ∀ before, Rests setup before → ∃ turns after, Leads piece before turns after ∧ Rests setup after ∧
    after.log = before.log ∧ (∀ turn ∈ turns, turn.IsAnswered body) ∧
    ∀ turn ∈ turns, turn.IsAside

section
variable {setup : Setup σ} {body : Text → σ → Text} {piece later : Plan σ → Plan σ}
  {recording : Recording σ}

theorem Rests.put (hrests : Rests setup recording) (program : ProgramState) (log : SnapshotLog)
    (memlog : MemlogTail) : Rests setup (recording.put program log memlog) := by
  obtain ⟨⟨⟨⟨hdebugger, hconfig, hgets, hspent, hundecoded, hconversing⟩, hanswers⟩, hslot⟩, hsetting⟩ :=
    hrests
  exact ⟨⟨⟨⟨hdebugger, hconfig, hgets, hspent, hundecoded, hconversing⟩, hanswers⟩, hslot⟩, hsetting⟩

theorem Rests.isIdle (hrests : Rests setup recording) :
    recording.session.dialogue.isIdle = true := by
  rw [Dialogue.isIdle, Channel.isIdle, hrests.session.inFlight, hrests.session.conversing.queue]
  rfl

theorem Inquires.id : Inquires setup body fun rest => rest :=
  fun before hbefore => ⟨[], before, .id before, hbefore, rfl, by simp, by simp⟩

theorem Inquires.seq (hpiece : Inquires setup body piece) (hlater : Inquires setup body later) :
    Inquires setup body fun rest => piece (later rest) := by
  intro before hbefore
  obtain ⟨turns, middle, hleads, hmiddle, hlog, hanswered, hasides⟩ := hpiece before hbefore
  obtain ⟨others, after, hleads', hafter, hlog', hanswered', hasides'⟩ := hlater middle hmiddle
  exact ⟨turns ++ others, after, hleads.seq hleads', hafter, hlog'.trans hlog,
    List.forall_mem_append.2 ⟨hanswered, hanswered'⟩, List.forall_mem_append.2 ⟨hasides, hasides'⟩⟩

theorem Inquires.look {later : Recording σ → Plan σ → Plan σ}
    (hlater : ∀ recording, Inquires setup body (later recording)) :
    Inquires setup body fun rest => .look fun recording => later recording rest := by
  intro before hbefore
  obtain ⟨turns, after, hleads, hrest⟩ := hlater before before hbefore
  exact ⟨turns, after, hleads.look, hrest⟩

theorem Inquires.note {program : Recording σ → ProgramState} {log : Recording σ → SnapshotLog}
    {memlog : Recording σ → MemlogTail} (hlog : ∀ recording, log recording = recording.log) :
    Inquires setup body fun rest => .look fun recording =>
      .note (program recording) (log recording) (memlog recording) rest := by
  intro before hbefore
  exact ⟨[], _, .note, hbefore.put _ _ _, hlog before, by simp, by simp⟩

variable (hresponsive : setup.debugger.Responsive setup.config body setup.initial)
  (hskips : setup.debugger.SkipsInTime setup.config body setup.initial)
include hresponsive hskips

/-- A command given at rest is answered with the reply to it. -/
theorem Rests.issue (hrests : Rests setup recording) {text : Text} {display : Bool}
    (hline : (Command.ofText text display).IsLine)
    (hstep : (Command.ofText text display).kind = .step → text = "step".toList) :
    ∃ response session, Session.issue text display recording.session = (.ok response, session) ∧
      response.text = Turn.reply body { before := recording, text, display } ∧
      Turn.IsAnswered body { before := recording, text, display } ∧
      session.Unattended setup.debugger setup.initial setup.config ∧
      ((Command.ofText text display).kind ≠ .step → session.dialogue.channel.inFlight = none) ∧
      session.SkipEnds setup.debugger setup.config body 0 ∧ session.setting = setup.setting := by
  obtain ⟨response, session, hissue, hresponse, hattends, hslot, hends, hsetting⟩ :=
    issueCommand_of_responsive hresponsive hskips hrests.session hline hstep
  have houtcome : Turn.outcome { before := recording, text, display } = (.ok response, session) := hissue
  exact ⟨response, session, hissue, hresponse,
    ⟨hrests.isIdle, response, congrArg Prod.fst houtcome, hresponse⟩, hattends, hslot, hends,
    hsetting.trans hrests.setting_eq⟩

theorem Inquires.give {text : Text} {display : Bool} {later : Response → Plan σ → Plan σ}
    (hline : (Command.ofText text display).IsLine)
    (hstays : (Command.ofText text display).kind ≠ .step) (hbacktrace : text ≠ "backtrace".toList)
    (hmoves : Turn.moves text = false)
    (hlater : ∀ response, Inquires setup body (later response)) :
    Inquires setup body fun rest => .give text display fun response => later response rest := by
  intro before hbefore
  obtain ⟨response, session, hissue, -, hanswered, hunattended, hslot, -, hsetting⟩ :=
    hbefore.issue hresponsive hskips hline fun hstep => absurd hstep hstays
  have hrests : Rests setup { before with session } := ⟨⟨hunattended, hslot hstays⟩, hsetting⟩
  obtain ⟨turns, after, hleads, hafter, hlog, hothers, hasides⟩ := hlater response _ hrests
  refine ⟨_, after, .give hissue hleads, hafter, hlog, List.forall_mem_cons.2 ⟨hanswered, hothers⟩,
    List.forall_mem_cons.2 ⟨⟨?_, hmoves⟩, hasides⟩⟩
  exact decide_eq_false hbacktrace

theorem inquires_recordLocal (frame : Nat) {observed : Local} (hname : '\n' ∉ observed.name) :
    Inquires setup body (recordLocal frame observed) := by
  have hbacktrace (text : Text) : 'p' :: text ≠ "backtrace".toList :=
    ne_of_apply_ne List.head? (show some 'p' ≠ some 'b' by decide)
  have hprint {rest : Text} (hrest : '\n' ∉ rest) :
      (Command.ofText ("print".toList ++ ' ' :: rest) false).IsLine ∧
        (Command.ofText ("print".toList ++ ' ' :: rest) false).kind ≠ .step :=
    isLine_of_verb "print".toList (by decide) (by decide) (by decide) (by decide) hrest
  have haddress := hprint (show '\n' ∉ '&' :: observed.name by simp [hname])
  have hsize := hprint (show '\n' ∉ "sizeof(".toList ++ observed.name ++ [')'] by simp [hname])
  exact .give hresponsive hskips haddress.1 haddress.2 (hbacktrace _) (by simp [Turn.moves]) fun _ =>
    .give hresponsive hskips hsize.1 hsize.2 (hbacktrace _) (by simp [Turn.moves]) fun _ =>
    .note fun _ => rfl

theorem inquires_recordLocals {command : Text} (frame : Nat)
    (hline : (Command.ofText command false).IsLine)
    (hstays : (Command.ofText command false).kind ≠ .step) (hbacktrace : command ≠ "backtrace".toList)
    (hmoves : Turn.moves command = false) : Inquires setup body (recordLocals frame command) := by
  apply Inquires.give hresponsive hskips hline hstays hbacktrace hmoves
  intro response
  have hnames : ∀ observed ∈ Locals.all response.text, '\n' ∉ observed.name :=
    fun observed => Locals.name_of_mem_all
  generalize Locals.all response.text = locals at hnames ⊢
  induction locals with
  | nil => exact .id
  | cons observed locals ih =>
    obtain ⟨hname, hothers⟩ := List.forall_mem_cons.1 hnames
    exact (inquires_recordLocal hresponsive hskips frame hname).seq (ih hothers)

theorem inquires_recordInnermost : Inquires setup body recordInnermost := by
  apply Inquires.look
  intro recording
  cases recording.session.program.frames.length with
  | zero => exact .id
  | succ innermost =>
    have hlocals (command : Text)
        (hcommand : command = "info args".toList ∨ command = "info locals".toList) :
        Inquires setup body (recordLocals innermost command) := by
      rcases hcommand with rfl | rfl
      · exact inquires_recordLocals hresponsive hskips innermost ⟨by decide, by decide⟩ (by decide)
          (by decide) (by decide)
      · exact inquires_recordLocals hresponsive hskips innermost ⟨by decide, by decide⟩ (by decide)
          (by decide) (by decide)
    exact (hlocals _ (.inl rfl)).seq (hlocals _ (.inr rfl))

omit hresponsive hskips in
theorem inquires_pollMemlog : Inquires setup body pollMemlog := by
  apply Inquires.note
  intro recording
  rw [Recording.pollMemlog]
  split
  · rfl
  · split <;> rfl

/-! ### One stop -/

omit hresponsive hskips in
theorem frames_eq_read (reply : Text) :
    Backtrace.frames reply = (Backtrace.read reply).toOption.getD [] := by
  rw [Backtrace.read, Unrecognised.unlessEmpty]
  cases Backtrace.frames reply <;> rfl

/-- A command that moves the target is given at rest, and one waits for what follows from it. -/
theorem Rests.move {before : Recording σ} (hbefore : Rests setup before) {text : Text}
    (hmoves : Turn.moves text = true) : ∃ session,
      Leads (fun rest => .give text true fun _ => .wait rest) before [{ before, text, display := true }]
        { before with session } ∧
      Rests setup { before with session } ∧
      Turn.IsAnswered body { before, text, display := true } ∧
      Turn.ending { before, text, display := true } = (.ok (), session) := by
  have hline : (Command.ofText text true).IsLine ∧
      ((Command.ofText text true).kind = .step → text = "step".toList) := by
    rcases of_decide_eq_true hmoves with rfl | rfl
    · exact ⟨⟨by decide, by decide⟩, by decide⟩
    · exact ⟨⟨by decide, by decide⟩, fun _ => rfl⟩
  obtain ⟨response, issued, hissue, -, hanswered, hunattended, -, hends, hsetting⟩ :=
    hbefore.issue hresponsive hskips hline.1 hline.2
  obtain ⟨session, hwait, hrests, hsetting'⟩ := waitIdle_of_responsive hresponsive hunattended hends
  refine ⟨session, .give hissue (.wait hwait), ⟨hrests, hsetting'.trans hsetting⟩, hanswered, ?_⟩
  have houtcome : Turn.outcome { before, text, display := true } = (.ok response, issued) := hissue
  rw [Turn.ending_of_ok houtcome, if_pos hmoves, hwait]

/-- One stop is recorded and stepped on from. -/
theorem leads_stop {before : Recording σ} (hbefore : Rests setup before) : ∃ turns step after frames,
    Leads (fun rest => recordStop <| .give "step".toList true fun _ => .wait rest) before
      (turns ++ [step]) after ∧
    Rests setup after ∧
    after.log.snapshots.map (·.frames) = before.log.snapshots.map (·.frames) ++ [frames] ∧
    Orderly body (turns ++ [step]) [frames] ∧ (∀ turn ∈ turns, ¬ turn.Ends) ∧
    step.ending.2 = after.session := by
  let backtrace : Turn σ := { before, text := "backtrace".toList, display := false }
  obtain ⟨response, session, hissue, hresponse, hanswered, hunattended, hslot, -, hsetting⟩ :=
    hbefore.issue hresponsive hskips
      (show (Command.ofText "backtrace".toList false).IsLine from ⟨by decide, by decide⟩) (by decide)
  have hrests : Rests setup { before with session } := ⟨⟨hunattended, hslot (by decide)⟩, hsetting⟩
  let frames := Backtrace.frames response.text
  have hframes : frames = (Backtrace.read (backtrace.reply body)).toOption.getD [] := by
    rw [← hresponse]
    exact frames_eq_read response.text
  have hpiece : Inquires setup body fun rest =>
      syncFrames frames <| recordInnermost <| pollMemlog rest :=
    (Inquires.note fun _ => rfl).seq
      ((inquires_recordInnermost hresponsive hskips).seq inquires_pollMemlog)
  obtain ⟨asides, recorded, hleads, hrecorded, hlog, hothers, hasides⟩ := hpiece _ hrests
  let noted := recorded.put recorded.session.program (recorded.log.record frames).2 recorded.memlog
  have hnoted : Rests setup noted := hrecorded.put _ _ _
  obtain ⟨stepped, hleads', hafter, hstep, hending⟩ :=
    hnoted.move hresponsive hskips (show Turn.moves "step".toList = true by decide)
  refine ⟨backtrace :: asides, { before := noted, text := "step".toList, display := true },
    { noted with session := stepped }, frames, ?_, hafter, ?_, ?_, ?_, congrArg Prod.snd hending⟩
  · refine .give hissue ?_
    exact hleads.seq (Leads.note.seq hleads')
  · have hlog' : recorded.log = before.log := hlog
    simp [noted, Recording.put, SnapshotLog.record, hlog']
  · rw [hframes]
    exact .stop (List.forall_mem_append.2 ⟨List.forall_mem_cons.2 ⟨hanswered, hothers⟩, by simpa⟩)
      rfl hasides rfl
  · have hmoves : Turn.moves "backtrace".toList = false := by decide
    refine List.forall_mem_cons.2 ⟨Orderly.not_ends_of_moves hmoves, ?_⟩
    exact fun turn hturn => Orderly.not_ends_of_moves (hasides turn hturn).moves

/-! ### The whole run -/

/-- The plan, begun with one recording, is carried out to the end, and leaves another one, at rest. On
    the way these stops are recorded in order: no more than `limit`, and fewer only if the target has
    ended. -/
structure Completes (setup : Setup σ) (body : Text → σ → Text) (limit : Nat) (plan : Plan σ)
    (before after : Recording σ) (stops : List (List StackFrame)) : Prop where
  carryOut : plan.carryOut before = (.ok (), after)
  rests : Rests setup after
  frames : after.log.snapshots.map (·.frames) = before.log.snapshots.map (·.frames) ++ stops
  orderly : Orderly body (plan.turns before) stops
  length_le : stops.length ≤ limit
  exited : stops.length < limit → after.session.dialogue.exited = true

section
omit hresponsive hskips

theorem stepThrough_of_exited {n : Nat} (hexited : recording.session.dialogue.exited = true) :
    (stepThrough n).carryOut recording = (.ok (), recording) ∧ (stepThrough n).turns recording = [] := by
  cases n with
  | zero => exact ⟨rfl, rfl⟩
  | succ n =>
    rw [stepThrough, carryOut, turns, if_pos hexited]
    exact ⟨rfl, rfl⟩

theorem stepThrough_of_not_exited {n : Nat} (hexited : recording.session.dialogue.exited = false) :
    let plan := recordStop <| .give "step".toList true fun _ => .wait <| stepThrough n
    (stepThrough (n + 1)).carryOut recording = plan.carryOut recording ∧
      (stepThrough (n + 1)).turns recording = plan.turns recording := by
  rw [stepThrough, carryOut, turns, if_neg (by simp [hexited])]
  exact ⟨rfl, rfl⟩

/-- A piece of a plan of which only the last command can find that the target has ended is followed by
    more steps. -/
theorem Completes.behind {n : Nat} {before middle after : Recording σ} {turns : List (Turn σ)}
    {last : Turn σ} {stops later : List (List StackFrame)}
    (hrest : Completes setup body n (stepThrough n) middle after later)
    (hleads : Leads piece before (turns ++ [last]) middle)
    (hframes : middle.log.snapshots.map (·.frames) = before.log.snapshots.map (·.frames) ++ stops)
    (horderly : Orderly body (turns ++ [last]) stops) (hturns : ∀ turn ∈ turns, ¬ turn.Ends)
    (hending : last.ending.2 = middle.session) :
    Completes setup body (stops.length + n) (piece (stepThrough n)) before after (stops ++ later) where
  carryOut := (hleads.carryOut _).trans hrest.carryOut
  rests := hrest.rests
  frames := by rw [hrest.frames, hframes, List.append_assoc]
  orderly := by
    rw [hleads.turns]
    refine horderly.append hrest.orderly ?_
    intro turn hturn hends
    rcases List.mem_append.1 hturn with hturn | hturn
    · exact absurd hends (hturns turn hturn)
    · obtain rfl := List.mem_singleton.1 hturn
      have hexited : middle.session.dialogue.exited = true := by
        rw [← hending]
        exact hends.2
      exact (stepThrough_of_exited hexited).2
  length_le := by
    rw [List.length_append]
    exact Nat.add_le_add_left hrest.length_le _
  exited hless := by
    rw [List.length_append] at hless
    exact hrest.exited (Nat.lt_of_add_lt_add_left hless)

end

/-- Stepping on from a recording at rest ends at rest, with the stops that have been recorded in
    order. -/
theorem completes_stepThrough (n : Nat) {before : Recording σ} (hbefore : Rests setup before) :
    ∃ after stops, Completes setup body n (stepThrough n) before after stops := by
  induction n generalizing before with
  | zero => exact ⟨before, [], rfl, hbefore, by simp, .nil, Nat.le_refl 0, by simp⟩
  | succ n ih =>
    cases hexited : before.session.dialogue.exited with
    | true =>
      obtain ⟨hdone, hnothing⟩ := stepThrough_of_exited (n := n + 1) hexited
      exact ⟨before, [], hdone, hbefore, by simp, hnothing ▸ .nil, Nat.zero_le _, fun _ => hexited⟩
    | false =>
      obtain ⟨turns, step, middle, frames, hleads, hmiddle, hframes, horderly, hturns, hending⟩ :=
        leads_stop hresponsive hskips hbefore
      obtain ⟨after, stops, hrest⟩ := ih hmiddle
      obtain ⟨hdone, hsame⟩ := stepThrough_of_not_exited (n := n) hexited
      have hall := hrest.behind hleads hframes horderly hturns hending
      rw [List.length_singleton, Nat.add_comm] at hall
      exact ⟨after, frames :: stops, hdone.trans hall.carryOut, hall.rests, hall.frames,
        hsame ▸ hall.orderly, hall.length_le, hall.exited⟩

theorem completes_drive (config : Config) (hentry : '\n' ∉ config.entryBreakpoint)
    {before : Recording σ} (hbefore : Rests setup before) :
    ∃ after stops, Completes setup body config.maxSteps (drive config) before after stops := by
  have hbreakpoint : "break ".toList ++ config.entryBreakpoint ≠ "backtrace".toList :=
    ne_of_apply_ne (List.take 2) (show ['b', 'r'] ≠ ['b', 'a'] by decide)
  have hbreak : (Command.ofText ("break ".toList ++ config.entryBreakpoint) false).IsLine ∧
      (Command.ofText ("break ".toList ++ config.entryBreakpoint) false).kind ≠ .step :=
    isLine_of_verb "break".toList (by decide) (by decide) (by decide) (by decide) hentry
  have hsetup : Inquires setup body fun rest =>
      .give "info functions".toList false fun _ =>
      .give ("break ".toList ++ config.entryBreakpoint) false fun _ => rest :=
    .give hresponsive hskips ⟨by decide, by decide⟩ (by decide) (by decide) (by decide) fun _ =>
    .give hresponsive hskips hbreak.1 hbreak.2 hbreakpoint (by simp [Turn.moves]) fun _ => .id
  obtain ⟨asides, ready, hleads, hready, hlog, hanswered, hasides⟩ := hsetup before hbefore
  obtain ⟨session, hleads', hrunning, hrun, hending⟩ :=
    hready.move hresponsive hskips (show Turn.moves "run".toList = true by decide)
  let run : Turn σ := { before := ready, text := "run".toList, display := true }
  obtain ⟨after, stops, hrest⟩ := completes_stepThrough hresponsive hskips config.maxSteps hrunning
  have hstarted : Leads (fun rest => .give "info functions".toList false fun _ =>
      .give ("break ".toList ++ config.entryBreakpoint) false fun _ =>
      .give "run".toList true fun _ => .wait rest) before (asides ++ [run])
      { ready with session } := hleads.seq hleads'
  have hasides' : ∀ turn ∈ asides, ¬ turn.Ends := fun turn hturn =>
    Orderly.not_ends_of_moves (hasides turn hturn).moves
  have hbeginning : Orderly body (asides ++ [run]) [] :=
    (Orderly.of_asides hanswered hasides).append (.of_run hrun rfl) fun turn hturn hends =>
      absurd hends (hasides' turn hturn)
  have hall := hrest.behind hstarted (by rw [hlog, List.append_nil]) hbeginning hasides'
    (congrArg Prod.snd hending)
  rw [List.length_nil, Nat.zero_add] at hall
  exact ⟨after, stops, hall⟩

end

end Plan

/-! ### The snapshot file -/

/-- Whether a file can be written depends on the directories only. -/
theorem FileStore.isSome_write?_eq {store other : FileStore}
    (hdirectories : store.directories = other.directories) (directory : List Text) (name : Text)
    (bytes others : List UInt8) :
    (store.write? directory name bytes).isSome = (other.write? directory name others).isSome := by
  have hsame : store.isDirectory = other.isDirectory := by
    funext path
    rw [isDirectory, isDirectory, hdirectories]
  have hfollow : store.follow? = other.follow? := by
    funext path name
    rw [follow?, follow?, hsame]
  rw [write?, write?, locate?, locate?, hfollow, hsame]
  cases (if name.isEmpty then none else
    (Text.pieces (· == '/') name).foldlM other.follow?
      (if name.head? = some '/' then [] else directory)) with
  | none => rfl
  | some path =>
    simp only [Option.bind_eq_bind, Option.bind_some]
    cases other.isDirectory path <;> rfl

namespace AutoRun
open Plan

variable {σ : Type} {session : Session σ}

theorem writeSnapshots_of_writable (log : SnapshotLog)
    (hwritable : ∀ name, session.config.snapshotPath = some name →
      (session.files.write? session.machine.directory name []).isSome) :
    ∃ files, writeSnapshots log session = (.ok (), session.setFiles files) := by
  rw [writeSnapshots]
  cases hpath : session.config.snapshotPath with
  | none => exact ⟨session.files, rfl⟩
  | some name =>
    have hsome := hwritable name hpath
    rw [FileStore.isSome_write?_eq rfl _ _ [] (Utf8.encode log.write)] at hsome
    obtain ⟨files, hfiles⟩ := Option.isSome_iff_exists.1 hsome
    dsimp only
    rw [hfiles]
    exact ⟨files, rfl⟩

/-- A session can be started and run automatically without fail. The run keeps its order; no more stops
    are recorded than steps are allowed, and fewer only if the target has ended. -/
def RunsInOrder (machine : Machine σ) (executable directory : Text) (config : Config)
    (body : Text → σ → Text) : Prop :=
  ∃ session snapshots final, start machine executable directory config = .ok session ∧
    run session = (.ok snapshots, final) ∧
    Orderly body ((Plan.drive config).turns { session }) (snapshots.map (·.frames)) ∧
    snapshots.length ≤ config.maxSteps ∧
    (snapshots.length < config.maxSteps → final.dialogue.exited = true)

/-- What the debugger says of a target whose first `step` enters a function of a library, and which ends
    with the second. -/
def libraryReply (line : Text) (steps : Nat) : Text :=
  if line = "backtrace".toList then stop
  else if line ≠ "step".toList then []
  else if steps = 0 then "puts (s=0x2004) at puts.c:35\n".toList
  else "[Inferior 1 (process 7) exited normally]\n".toList

/-- It leaves every line until somebody waits, and it is at a `finish` or a `next` so long. -/
def libraryDebugger (pace : Nat) : Debugger Nat where
  greet steps := ({ output := Utf8.encode "(gdb) ".toList }, steps)
  answer line steps :=
    ({ output := Utf8.encode (libraryReply line steps ++ "(gdb) ".toList)
       duration := if line = "finish".toList ∨ line = "next".toList then pace else 0 },
      if line = "step".toList then steps + 1 else steps)
  lingers _ _ := true

def libraryMachine (pace : Nat) : Machine Nat :=
  { debugger := libraryDebugger pace, launch? := fun _ _ => some 0, directory := [], files := {} }

theorem responsive_libraryDebugger {pace : Nat} {config : Config}
    (hprompt : config.prompt = "(visual-gdb) ".toList ∨ config.prompt = "(visual-gdb)\n".toList)
    (hfallback : config.fallbackPrompts = ["(gdb) ".toList]) (htime : config.inTime pace = true)
    (initial : Nat) : (libraryDebugger pace).Responsive config libraryReply initial := by
  have hdetector : (PromptDetector.ofSentinels config.sentinels).sentinels =
      [config.prompt, "(gdb) ".toList] ∧ Text.trimEnd config.prompt ≠ "(gdb)".toList := by
    rw [Config.sentinels, hfallback]
    rcases hprompt with hprompt | hprompt <;> rw [hprompt] <;> decide
  have hinstalled : (PromptDetector.ofSentinels config.sentinels).Installed "(gdb)".toList
      " ".toList :=
    ⟨⟨[config.prompt], [], hdetector.1, by simpa using hdetector.2⟩, by decide, by decide,
      by simp [PromptDetector.isGap]⟩
  have hframes : ∀ body ∈ [[], stop, "puts (s=0x2004) at puts.c:35\n".toList,
      "[Inferior 1 (process 7) exited normally]\n".toList],
      (PromptDetector.ofSentinels config.sentinels).Frames "(gdb)".toList body := by
    rw [Config.sentinels, hfallback]
    rcases hprompt with hprompt | hprompt <;> rw [hprompt] <;> decide +kernel
  have hsoon : config.inTime 0 = true := Config.inTime_of_le (Nat.zero_le pace) htime
  refine ⟨⟨[], rfl, ⟨_, _, hinstalled, hframes [] (by simp), rfl⟩, hsoon⟩, ?_⟩
  intro steps line _ _
  refine ⟨rfl, ⟨_, _, hinstalled, hframes (libraryReply line steps) ?_, ?_⟩, ?_⟩
  · rw [libraryReply]
    split
    · simp
    · split
      · simp
      · split <;> simp
  · rw [List.append_assoc]
    rfl
  · rw [libraryDebugger]
    dsimp only
    split
    · exact htime
    · exact hsoon

/-- A `finish` and a `next` take it twice as long as one of them. -/
theorem skipsInTime_libraryDebugger {pace : Nat} {config : Config}
    (htime : config.inTime (pace + pace) = true) (initial : Nat) :
    (libraryDebugger pace).SkipsInTime config libraryReply initial := by
  intro steps _ _ _ _ _
  exact htime

/-- Where a stop is recorded without frames, a `backtrace` was given another reply than its own. -/
theorem not_runsInOrder_of_empty {pace : Nat} {config : Config}
    (hempty : (start (libraryMachine pace) "a.out".toList ['.'] config).toOption.any fun session =>
      (run session).1.toOption.any fun snapshots => snapshots.any (·.frames.isEmpty)) :
    ¬ RunsInOrder (libraryMachine pace) "a.out".toList ['.'] config libraryReply := by
  rintro ⟨session, snapshots, final, hstart, hrun, horderly, -⟩
  rw [hstart] at hempty
  simp only [Except.toOption, Option.any_some, hrun, List.any_eq_true, List.isEmpty_iff] at hempty
  obtain ⟨snapshot, hmem, hnone⟩ := hempty
  have hframes := List.mem_map_of_mem (f := (·.frames)) hmem
  rw [horderly.frames, hnone] at hframes
  obtain ⟨turn, hturn, hread⟩ := List.mem_map.1 hframes
  have hbacktrace : turn.text = "backtrace".toList := of_decide_eq_true (List.mem_filter.1 hturn).2
  have hreply : turn.reply libraryReply = stop := by
    rw [Turn.reply, hbacktrace]
    rfl
  rw [hreply] at hread
  exact absurd hread (by decide)

end AutoRun
end DebugClient
