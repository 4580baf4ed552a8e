import DebugClient.Proofs.Console.Queueing

/-!
What has the slot while the decision about a skip is pending. The decision is meant to be taken on the
response to the `finish` that the step controller asks for. That command joins the background queue at
its end, though, and it can fail to be written, so what takes the slot depends on what was waiting and
on the writer at the moment when the skip began.
-/

namespace DebugClient

/-- The hidden command by which the step controller leaves a function. -/
def StepState.automaticFinish : Command := .ofText "finish".toList false

namespace Dialogue
open Channel StepState

/-- This chunk completes a `step` that enters a function not in the catalogue. -/
structure BeginsSkip (dialogue : Dialogue) (chunk : Text) (line : Option Nat) : Prop where
  idle : dialogue.steps = .idle
  completes : ∃ completion, (dialogue.channel.feed chunk).1 = .complete completion ∧
    completion.response.command.kind = .step ∧
    entersUnknown dialogue.catalogue completion.response.text = true ∧
    Stop.announcesExit completion.response.text = false ∧
    Stop.stoppedLine completion.response.text = line

/-- While the decision is pending, the command that was the oldest one waiting when the skip began has
    the slot; or it could not be written, and the debugger has been given up. -/
structure Pending (start now : Dialogue) (line : Option Nat) (oldest : Command)
    (others : List Command) : Prop where
  steps : now.steps = .awaitingSkipDecision line
  waiting : start.channel.queue ++ [automaticFinish] = oldest :: others
  slot : start.channel.canWrite oldest = true ∧ now.channel.inFlight = some { command := oldest } ∧
      others <+: now.channel.queue ∨
    start.channel.canWrite oldest = false ∧ now.channel.inFlight = none ∧
      now.channel.outlet = none ∧ now.channel.queue = []

variable {start now dialogue : Dialogue} {chunk : Text} {line : Option Nat} {oldest : Command}
  {others : List Command}

/-! ### How a skip begins -/

@[simp] theorem steps_dispatchNext (dialogue : Dialogue) :
    dialogue.dispatchNext.steps = dialogue.steps := by
  rw [dispatchNext]
  split <;> rfl

theorem refreshCatalogue_of_kind {response : Response} (hkind : response.command.kind = .step) :
    dialogue.refreshCatalogue response = dialogue := by
  simp [refreshCatalogue, hkind]

/-- A `step` into unknown code makes an idle controller wait for a decision. -/
theorem verdict_of_enters {response : Response} (hidle : dialogue.steps = .idle)
    (henters : response.command.kind = .step ∧
      entersUnknown dialogue.catalogue response.text = true) :
    dialogue.verdict response = ({ suppress := true, followUp := some automaticFinish },
      .awaitingSkipDecision (Stop.stoppedLine response.text)) := by
  rw [verdict, hidle, observe, refreshCatalogue_of_kind henters.1, if_pos henters]
  rfl

/-- Nothing else does. -/
theorem verdict_of_not_enters {response : Response} (hidle : dialogue.steps = .idle)
    (hnot : ¬ (response.command.kind = .step ∧
      entersUnknown dialogue.catalogue response.text = true)) :
    dialogue.verdict response = ({}, .idle) := by
  rw [verdict, hidle, observe, if_neg]
  rintro ⟨hkind, hunknown⟩
  rw [refreshCatalogue_of_kind hkind] at hunknown
  exact hnot ⟨hkind, hunknown⟩

theorem verdict_of_awaiting {response : Response}
    (hpending : dialogue.steps = .awaitingSkipDecision line) :
    (dialogue.verdict response).2 = .idle := by
  rw [verdict, hpending, observe]
  split <;> rfl

/-- A skip begins with a chunk of output, and with nothing else. -/
theorem beginsSkip_of_awaiting {stimulus : Stimulus} (hidle : dialogue.steps = .idle)
    (hpending : (dialogue.perform stimulus).steps = .awaitingSkipDecision line) :
    ∃ chunk, stimulus = .output chunk ∧ dialogue.BeginsSkip chunk line := by
  cases stimulus with
  | submit command ticket =>
    rcases submit_cases command ticket dialogue with ⟨e, carry, hsubmit, -⟩ |
      ⟨exited, -, -, hsubmit⟩
    · simp [perform, hsubmit, hidle] at hpending
    · simp [perform, hsubmit, hidle] at hpending
  | enqueue command =>
    have hsteps : (dialogue.perform (.enqueue command)).steps = dialogue.steps := by
      rw [perform, enqueue]
      split <;> rfl
    rw [hsteps, hidle] at hpending
    cases hpending
  | output chunk =>
    refine ⟨chunk, rfl, hidle, ?_⟩
    rw [perform] at hpending
    rcases onOutput_cases chunk dialogue with ⟨text, awaited, -, -, hsame | ⟨-, hexited⟩⟩ |
      ⟨flight, out, carry, awaited, -, -, hafter⟩ |
      ⟨flight, completion, awaited, -, -, hfeed, hafter⟩
    · simp [hsame, hidle] at hpending
    · simp [hexited] at hpending
    · simp [hafter, hidle] at hpending
    · rw [hafter, steps_dispatchNext, settle, verdict_vacate] at hpending
      refine ⟨completion, hfeed, ?_⟩
      cases hexit : Stop.announcesExit completion.response.text with
      | true => simp [hexit] at hpending
      | false =>
        by_cases henters : completion.response.command.kind = .step ∧
          entersUnknown dialogue.catalogue completion.response.text = true
        · refine ⟨henters.1, henters.2, rfl, ?_⟩
          simpa [hexit, verdict_of_enters hidle henters] using hpending
        · simp [hexit, verdict_of_not_enters hidle henters] at hpending
  | abort => cases hpending
  | close => cases hpending
  | allowWriting accepting =>
    have hsteps : (dialogue.perform (.allowWriting accepting)).steps = dialogue.steps := rfl
    rw [hsteps, hidle] at hpending
    cases hpending

/-- When a skip begins, the slot is offered to the oldest of the commands waiting, of which the
    controller's own is the last. -/
theorem BeginsSkip.pending (hbegins : start.BeginsSkip chunk line) :
    ∃ oldest others, Pending start (start.onOutput chunk).2 line oldest others := by
  obtain ⟨hidle, completion, hfeed, hkind, hunknown, hexit, rfl⟩ := hbegins
  rcases onOutput_cases chunk start with ⟨text, awaited, -, hother, -⟩ |
    ⟨flight, out, carry, awaited, -, hother, -⟩ |
    ⟨flight, other, awaited, -, -, hother, hafter⟩
  · cases hfeed.symm.trans hother
  · cases hfeed.symm.trans hother
  · cases hfeed.symm.trans hother
    have hverdict := verdict_of_enters hidle ⟨hkind, hunknown⟩
    let settled := (start.vacate awaited).settle completion
    have hsteps : settled.steps =
        .awaitingSkipDecision (Stop.stoppedLine completion.response.text) := by
      simp [settled, settle, hexit, hverdict]
    have hkept : (start.vacate awaited).channel.queue = start.channel.queue := rfl
    have hwaiting : settled.channel.queue = start.channel.queue ++ [automaticFinish] := by
      simp [settled, settle, waitingAfter, hexit, hverdict, hkept]
    have hwrite (command : Command) :
        settled.channel.canWrite command = start.channel.canWrite command := rfl
    rw [hafter]
    have hslot : settled.channel.inFlight = none := rfl
    rcases dispatchNext_cases hslot with ⟨hqueue, -⟩ |
      ⟨oldest, others, hqueue, hwritten, hdispatch⟩ | ⟨oldest, others, hqueue, hlost, hdispatch⟩
    · rw [hwaiting] at hqueue
      simp at hqueue
    · refine ⟨oldest, others, ?_, hwaiting.symm.trans hqueue, .inl ⟨?_, ?_, ?_⟩⟩
      · rw [steps_dispatchNext, hsteps]
      · rw [← hwrite, hwritten]
      · rw [hdispatch, grant]
      · rw [hdispatch, grant]
    · refine ⟨oldest, others, ?_, hwaiting.symm.trans hqueue, .inr ⟨?_, ?_, ?_, ?_⟩⟩
      · rw [steps_dispatchNext, hsteps]
      · rw [← hwrite, hlost]
      all_goals rw [hdispatch]
      rfl

/-! ### How it stays pending -/

/-- Whatever happens next ends the skip or leaves the slot as it is. -/
theorem Pending.perform (hpending : Pending start now line oldest others) (stimulus : Stimulus) :
    (now.perform stimulus).steps = .idle ∨
      Pending start (now.perform stimulus) line oldest others := by
  obtain ⟨hsteps, hwaiting, hslot⟩ := hpending
  have hfree : now.channel.inFlight = none → now.channel.outlet = none ∧ now.channel.queue = [] := by
    intro hnone
    rcases hslot with ⟨-, hflight, -⟩ | ⟨-, -, houtlet, hqueue⟩
    · cases hflight.symm.trans hnone
    · exact ⟨houtlet, hqueue⟩
  have hwritten {command : Command} (hnone : now.channel.inFlight = none) :
      now.channel.canWrite command = false := by
    rw [canWrite, (hfree hnone).1]
  cases stimulus with
  | submit command ticket =>
    rcases submit_cases command ticket now with ⟨e, carry, hsubmit, -⟩ | ⟨exited, hnone, hwrite, -⟩
    · rw [Dialogue.perform, hsubmit]
      exact .inr ⟨hsteps, hwaiting, hslot⟩
    · rw [hwritten hnone] at hwrite
      cases hwrite
  | enqueue command =>
    rcases enqueue_cases (fun hnone => (hfree hnone).2) command with ⟨e, carry, henqueue, -⟩ |
      ⟨flight, hflight, -, henqueue⟩ | ⟨hnone, hwrite, -⟩
    · rw [Dialogue.perform, henqueue]
      exact .inr ⟨hsteps, hwaiting, hslot⟩
    · rw [Dialogue.perform, henqueue]
      refine .inr ⟨hsteps, hwaiting, ?_⟩
      rcases hslot with ⟨hwrite, hown, hqueue⟩ | ⟨-, hnone, -⟩
      · exact .inl ⟨hwrite, hown, hqueue.trans (List.prefix_append _ _)⟩
      · cases hflight.symm.trans hnone
    · rw [hwritten hnone] at hwrite
      cases hwrite
  | output chunk =>
    rw [Dialogue.perform]
    rcases onOutput_cases chunk now with ⟨text, awaited, -, -, hsame | ⟨-, hexited⟩⟩ |
      ⟨flight, out, carry, awaited, -, -, hafter⟩ | ⟨flight, completion, awaited, -, -, -, hafter⟩
    · rw [hsame]
      exact .inr ⟨hsteps, hwaiting, hslot⟩
    · rw [hexited]
      exact .inl rfl
    · rw [hafter]
      exact .inr ⟨hsteps, hwaiting, hslot⟩
    · left
      rw [hafter, steps_dispatchNext, settle, verdict_vacate]
      dsimp only
      rw [verdict_of_awaiting hsteps, ite_self]
  | abort => exact .inl rfl
  | close => exact .inl rfl
  | allowWriting accepting =>
    refine .inr ⟨hsteps, hwaiting, ?_⟩
    rcases hslot with hgranted | ⟨hlost, hnone, houtlet, hqueue⟩
    · exact .inl hgranted
    · refine .inr ⟨hlost, hnone, ?_, hqueue⟩
      simp [Dialogue.perform, allowWriting, houtlet]

/-! ### What the decision is taken on -/

/-- The next response, if there is one, is the response to this command. -/
def RespondsTo (command : Command) (dialogue : Dialogue) : Prop :=
  dialogue.channel.inFlight = some { command } ∧
    ∀ chunk completion, (dialogue.channel.feed chunk).1 = .complete completion →
      completion.response.command = command

/-- While the decision about a skip is pending, its course depends on how it began. -/
structure SkipCourse (start now : Dialogue) : Prop where
  /-- With nothing waiting and a working writer, it is taken on the response to the `finish` that the
      controller asked for. -/
  own : start.channel.queue = [] → start.channel.canWrite automaticFinish = true →
    now.RespondsTo automaticFinish
  /-- A command that was waiting goes first: the decision is taken on its response, with the `finish`
      still waiting. -/
  overtaken : ∀ other others, start.channel.queue = other :: others →
    start.channel.canWrite other = true →
    now.RespondsTo other ∧ others ++ [automaticFinish] <+: now.channel.queue
  /-- If the oldest command cannot be written nothing is in flight, and there is no response to come:
      the debugger has been given up. -/
  lost : ∀ oldest others, start.channel.queue ++ [automaticFinish] = oldest :: others →
    start.channel.canWrite oldest = false →
    now.channel.inFlight = none ∧ now.isRunning = false

theorem respondsTo_of_inFlight {command : Command}
    (hslot : dialogue.channel.inFlight = some { command }) : dialogue.RespondsTo command := by
  refine ⟨hslot, fun chunk completion hfeed => ?_⟩
  rcases onOutput_cases chunk dialogue with ⟨text, awaited, hfree, -, -⟩ |
    ⟨flight, out, carry, awaited, -, hother, -⟩ | ⟨flight, other, awaited, hflight, hsame, hother, -⟩
  · cases hslot.symm.trans hfree
  · cases hfeed.symm.trans hother
  · cases hfeed.symm.trans hother
    cases hslot.symm.trans hflight
    exact hsame

theorem Pending.skipCourse (hpending : Pending start now line oldest others) :
    SkipCourse start now := by
  obtain ⟨-, hwaiting, hslot⟩ := hpending
  have hgranted (hwrite : start.channel.canWrite oldest = true) :
      now.RespondsTo oldest ∧ others <+: now.channel.queue := by
    rcases hslot with ⟨-, hflight, hqueue⟩ | ⟨hlost, -⟩
    · exact ⟨respondsTo_of_inFlight hflight, hqueue⟩
    · cases hwrite.symm.trans hlost
  constructor
  · intro hqueue hwrite
    rw [hqueue] at hwaiting
    cases hwaiting
    exact (hgranted hwrite).1
  · intro other rest hqueue hwrite
    rw [hqueue] at hwaiting
    cases hwaiting
    exact hgranted hwrite
  · intro first rest hfirst hlost
    cases hwaiting.symm.trans hfirst
    rcases hslot with ⟨hwrite, -⟩ | ⟨-, hflight, houtlet, -⟩
    · cases hwrite.symm.trans hlost
    · refine ⟨hflight, ?_⟩
      rw [isRunning, Channel.isRunning, houtlet]
      rfl

end Dialogue

namespace Chronicle
open StepState

/-- A decision that is pending at the end of a run has been pending since a skip began. -/
theorem exists_pending (detector : PromptDetector) (stimuli : List Stimulus) {line : Option Nat}
    (hpending : (ofStimuli detector stimuli).dialogue.steps = .awaitingSkipDecision line) :
    ∃ earlier chunk later, stimuli = earlier ++ .output chunk :: later ∧
      (ofStimuli detector earlier).dialogue.BeginsSkip chunk line ∧
      ∃ oldest others, Dialogue.Pending (ofStimuli detector earlier).dialogue
        (ofStimuli detector stimuli).dialogue line oldest others := by
  induction stimuli using List.reverseRecOn generalizing line with
  | nil => cases hpending
  | append_singleton stimuli stimulus ih =>
    rw [ofStimuli_append_singleton] at hpending ⊢
    cases hbefore : (ofStimuli detector stimuli).dialogue.steps with
    | idle =>
      obtain ⟨chunk, rfl, hbegins⟩ := Dialogue.beginsSkip_of_awaiting hbefore hpending
      exact ⟨stimuli, chunk, [], rfl, hbegins, hbegins.pending⟩
    | awaitingSkipDecision before =>
      obtain ⟨earlier, chunk, later, rfl, hbegins, oldest, others, hcourse⟩ := ih hbefore
      rcases hcourse.perform stimulus with hidle | hcourse'
      · cases hpending.symm.trans hidle
      · cases hpending.symm.trans hcourse'.steps
        refine ⟨earlier, chunk, later ++ [stimulus], ?_, hbegins, oldest, others, hcourse'⟩
        rw [List.append_assoc, List.cons_append]

/-- Whenever a decision about a skip is pending, the skip was begun by some chunk of output, and its
    course is the one that follows from what was waiting, and from the writer, at that moment. Every
    chunk that begins a skip leads there. -/
theorem skipCourse_ofStimuli (detector : PromptDetector) (stimuli : List Stimulus) :
    (∀ line, (ofStimuli detector stimuli).dialogue.steps = .awaitingSkipDecision line →
      ∃ earlier chunk later, stimuli = earlier ++ .output chunk :: later ∧
        (ofStimuli detector earlier).dialogue.BeginsSkip chunk line ∧
        Dialogue.SkipCourse (ofStimuli detector earlier).dialogue
          (ofStimuli detector stimuli).dialogue) ∧
    (∀ chunk line, (ofStimuli detector stimuli).dialogue.BeginsSkip chunk line →
      (ofStimuli detector (stimuli ++ [.output chunk])).dialogue.steps =
          .awaitingSkipDecision line ∧
        Dialogue.SkipCourse (ofStimuli detector stimuli).dialogue
          (ofStimuli detector (stimuli ++ [.output chunk])).dialogue) := by
  constructor
  · intro line hpending
    obtain ⟨earlier, chunk, later, hstimuli, hbegins, oldest, others, hcourse⟩ :=
      exists_pending detector stimuli hpending
    exact ⟨earlier, chunk, later, hstimuli, hbegins, hcourse.skipCourse⟩
  · intro chunk line hbegins
    obtain ⟨oldest, others, hcourse⟩ := hbegins.pending
    rw [ofStimuli_append_singleton]
    exact ⟨hcourse.steps, hcourse.skipCourse⟩

/-- A `step` that lands in `strlen`. -/
def strlenReply : Text := "0x1 in strlen (s=0x2)\n12\tx\n(gdb) ".toList

theorem skipCourse_strlenReply :
    let start := (ofStimuli ⟨["(gdb) ".toList]⟩ [.submit (.ofText "step".toList true) none]).dialogue
    let now := (ofStimuli ⟨["(gdb) ".toList]⟩
      [.submit (.ofText "step".toList true) none, .output strlenReply]).dialogue
    now.steps = .awaitingSkipDecision (some 12) ∧ Dialogue.SkipCourse start now ∧
      now.RespondsTo automaticFinish := by
  have hbegins : (ofStimuli ⟨["(gdb) ".toList]⟩
      [.submit (.ofText "step".toList true) none]).dialogue.BeginsSkip strlenReply (some 12) := by
    refine ⟨by decide +kernel, ⟨⟨.ofText "step".toList true,
      "0x1 in strlen (s=0x2)\n12\tx\n".toList, true⟩, none, none⟩, ?_⟩
    decide +kernel
  obtain ⟨hsteps, hcourse⟩ := (skipCourse_ofStimuli _ _).2 strlenReply (some 12) hbegins
  exact ⟨hsteps, hcourse, hcourse.own (by decide +kernel) (by decide +kernel)⟩

/-- A command waiting behind the `step` takes the slot in place of the `finish`, and a `finish` that
    cannot be written leaves the decision pending with nothing in flight. -/
theorem skip_overtaken_or_lost :
    (¬ ∀ detector stimuli line,
      (ofStimuli detector stimuli).dialogue.steps = .awaitingSkipDecision line →
      (ofStimuli detector stimuli).dialogue.channel.inFlight.isSome →
      (ofStimuli detector stimuli).dialogue.channel.inFlight = some { command := automaticFinish }) ∧
    (¬ ∀ detector stimuli line,
      (ofStimuli detector stimuli).dialogue.steps = .awaitingSkipDecision line →
      (ofStimuli detector stimuli).dialogue.channel.inFlight.isSome) := by
  constructor
  · intro hown
    have hfinish := hown ⟨["(gdb) ".toList]⟩
      [.submit (.ofText "step".toList true) none, .enqueue (.ofText "info locals".toList false),
        .output strlenReply] (some 12) (by decide +kernel) (by decide +kernel)
    revert hfinish
    decide +kernel
  · intro hflight
    have hsome := hflight ⟨["(gdb) ".toList]⟩
      [.submit (.ofText "step".toList true) none, .allowWriting false, .output strlenReply]
      (some 12) (by decide +kernel)
    revert hsome
    decide +kernel

end Chronicle
end DebugClient
