import DebugClient.Proofs.Console.StepOver

/-!
A `step` that is not given for display. Its own reply is never shown. The commands that the step
controller sends after it do not know how the `step` was given, though: a `finish` that leads
elsewhere is revealed and the `next` is a visible one, so their replies are shown all the same.
-/

namespace DebugClient

/-- The command, given for display. The debugger does not see the difference. -/
def Command.forDisplay (command : Command) : Command := { command with display := true }

/-- The exchanges that a hidden `step` leads to: its own reply is not shown, whatever becomes of the
    others. -/
def stepOverHidden (catalogue : Catalogue) (step : Command) (first second third : Text) :
    List Exchange :=
  (stepOver catalogue step first second third).modifyHead (Exchange.restrict false)

/-- What is shown of them. -/
def shownOfHidden (catalogue : Catalogue) (first second third : Text) : Text :=
  if (Stop.callSites first).all catalogue.contains || Stop.announcesExit first then []
  else if Stop.stoppedLine second ≠ Stop.stoppedLine first then second
  else if Stop.announcesExit second then []
  else third

variable {catalogue : Catalogue} {first second third : Text}

/-- The replies do not depend on how the `step` was given. -/
theorem map_reply_stepOverHidden (command other : Command) :
    (stepOverHidden catalogue command first second third).map (·.reply) =
      (stepOver catalogue other first second third).map (·.reply) := by
  unfold stepOverHidden stepOver
  split <;> rfl

theorem exists_stepOverHidden_eq_cons (command : Command) :
    ∃ others, stepOverHidden catalogue command first second third =
      ⟨command, first, false⟩ :: others := by
  unfold stepOverHidden stepOver
  split <;> exact ⟨_, rfl⟩

theorem flatMap_text_stepOverHidden (command : Command) :
    (stepOverHidden catalogue command first second third).flatMap Exchange.text =
      shownOfHidden catalogue first second third := by
  unfold stepOverHidden stepOver shownOfHidden
  by_cases hknown : (Stop.callSites first).all catalogue.contains
  · rw [if_pos hknown, hknown, Bool.true_or, if_pos rfl]
    rfl
  · have hunknown : (Stop.callSites first).all catalogue.contains = false := by simpa using hknown
    rw [if_neg hknown, hunknown, Bool.false_or]
    cases hfirst : Stop.announcesExit first with
    | true => rfl
    | false =>
      by_cases hline : Stop.stoppedLine second = Stop.stoppedLine first
      · cases hsecond : Stop.announcesExit second <;>
          simp [hline, Exchange.text, Exchange.restrict]
      · simp [hline, Exchange.text, Exchange.restrict]

namespace Chronicle
open PromptDetector StepState

variable {detector : PromptDetector} {stem gap written : Text} {start : Dialogue}
  {command : Command} {chunks : List Text}

/-- A hidden `step` is taken, and its own reply is hidden of the exchanges that it leads to. -/
theorem StepAnswered.exists_plays_hidden
    (hanswered : StepAnswered detector stem gap start written command.forDisplay first second third
      chunks) (hhidden : command.display = false) (ticket : Option Nat) :
    ∃ next, start.submit command ticket = (.ok (), next) ∧ next.channel.detector = detector ∧
      next.channel.awaited = start.channel.awaited ∧
      Dialogue.Plays (stepOverHidden start.catalogue command first second third) written
        start.exited next := by
  obtain ⟨hreached, hidle, houtlet, hkind, -, -, -, -, -⟩ := hanswered
  obtain ⟨next, hsubmit, hdetector, hawaited, hcatalogue, hexited, hsteps, hopens⟩ :=
    exists_opens hreached hidle houtlet (show command.kind = .step from hkind) ticket
  have hplays := hopens.plays_step hsteps hkind first second third
  rw [hcatalogue, hexited, hhidden] at hplays
  exact ⟨next, hsubmit, hdetector, hawaited, hplays⟩

/-- A hidden `step` is answered as a visible one would be. Nothing is shown before its reply is complete,
    and nothing of this reply. That to the `finish` is shown if the controller stays where it leads, and
    that to the `next` in any case. -/
theorem shown_of_hidden_stepAnswered
    (hanswered : StepAnswered detector stem gap start written command.forDisplay first second third
      chunks) (hhidden : command.display = false) (ticket : Option Nat) :
    ∃ next, start.submit command ticket = (.ok (), next) ∧
      (next.onOutputs chunks).2.isIdle = true ∧
      ∀ front back, chunks = front ++ back →
        (next.onOutputs front).1.flatten.flatten <+:
          shownOfHidden start.catalogue first second third ∧
        (front.flatten.length < (start.channel.awaited ++ (first ++ stem)).length →
          (next.onOutputs front).1.flatten.flatten = []) ∧
        ((next.onOutputs front).2.isIdle = true → (next.onOutputs front).1.flatten.flatten =
          shownOfHidden start.catalogue first second third) := by
  obtain ⟨next, hsubmit, hdetector, hawaited, hplays⟩ :=
    hanswered.exists_plays_hidden hhidden ticket
  obtain ⟨-, -, -, -, -, hprimary, hframes, houtput, hcuts⟩ := hanswered
  have hreplies := @map_reply_stepOverHidden start.catalogue first second third command
    command.forDisplay
  have hframes' : ∀ exchange ∈ stepOverHidden start.catalogue command first second third,
      next.channel.detector.Frames stem exchange.reply := by
    intro exchange hmem
    have hreply := List.mem_map_of_mem (f := (·.reply)) hmem
    rw [hreplies] at hreply
    obtain ⟨other, hother, hsame⟩ := List.mem_map.1 hreply
    rw [hdetector, ← hsame]
    exact hframes other hother
  rw [← hdetector] at hprimary
  rw [← hawaited, ← hreplies] at houtput hcuts
  obtain ⟨hconduct, hcomplete⟩ := hplays.conduct hprimary hframes' houtput hcuts
  rw [← flatMap_text_stepOverHidden command]
  refine ⟨next, hsubmit, ?_, ?_⟩
  · have hstands := (hconduct chunks [] (List.append_nil _).symm).stands
    exact hstands.isIdle_iff.2 (Nat.le_of_eq hcomplete.symm)
  · intro front back hsplit
    have hstands := (hconduct front back hsplit).stands
    refine ⟨hstands.shown_le.trans ((List.take_prefix _ _).flatMap _), fun hearly => ?_,
      fun hidle => hstands.shown_eq (hstands.isIdle_iff.1 hidle)⟩
    obtain ⟨others, hothers⟩ :=
      @exists_stepOverHidden_eq_cons start.catalogue first second third command
    have hnone := hstands.shown_le
    rw [← hawaited, List.length_append] at hearly
    rw [hothers, List.map_cons, Dialogue.completeReplies_of_lt hearly] at hnone
    exact List.prefix_nil.1 hnone

/-- A hidden `step` into `strlen`, a `finish` back to the same line and a `next` past the call, whose
    reply is shown. -/
theorem shown_of_hidden_stepAnswered_strlen :
    let start := (ofStimuli ⟨["(gdb) ".toList]⟩ []).dialogue
    let chunks := ["strlen ()\n7\tx\n(gdb)".toList, " ".toList,
      "7\tx\n(gdb) ".toList, "8\ty\n(g".toList, "db) ".toList]
    ∃ next, start.submit (.ofText "step".toList false) none = (.ok (), next) ∧
      (next.onOutputs chunks).2.isIdle = true ∧
      (next.onOutputs chunks).1.flatten.flatten = "8\ty\n".toList := by
  intro start chunks
  have hanswered : StepAnswered ⟨["(gdb) ".toList]⟩ "(gdb)".toList " ".toList start []
      (Command.ofText "step".toList false).forDisplay "strlen ()\n7\tx\n".toList
      "7\tx\n".toList "8\ty\n".toList chunks := by
    apply stepAnswered_of_attached <;> decide +kernel
  obtain ⟨next, hsubmit, hidle, hshown⟩ := shown_of_hidden_stepAnswered hanswered rfl none
  refine ⟨next, hsubmit, hidle, ?_⟩
  rw [(hshown chunks [] (List.append_nil _).symm).2.2 hidle]
  decide +kernel

/-- A hidden `step` does not stay hidden: the reply to the `finish` is shown if it leads to another line,
    and the reply to the `next` if it leads to the same one. -/
theorem hidden_step_shown :
    (¬ ∀ detector stem gap start written command first second third chunks,
      StepAnswered detector stem gap start written command.forDisplay first second third chunks →
      command.display = false → ∀ ticket,
        ((start.submit command ticket).2.onOutputs chunks).1.flatten.flatten = []) ∧
    (¬ ∀ detector stem gap start written command first second third chunks,
      StepAnswered detector stem gap start written command.forDisplay first second third chunks →
      command.display = false → Stop.stoppedLine second = Stop.stoppedLine first → ∀ ticket,
        ((start.submit command ticket).2.onOutputs chunks).1.flatten.flatten = []) := by
  constructor
  · intro hclaim
    have hanswered : StepAnswered ⟨["(gdb) ".toList]⟩ "(gdb)".toList " ".toList
        (ofStimuli ⟨["(gdb) ".toList]⟩ []).dialogue []
        (Command.ofText "step".toList false).forDisplay "strlen ()\n7\tx\n".toList "9\tz\n".toList []
        ["strlen ()\n7\tx\n(gdb) ".toList, "9\tz\n(gdb) ".toList] := by
      apply stepAnswered_of_attached <;> decide +kernel
    have hshown := hclaim _ _ _ _ _ _ _ _ _ _ hanswered rfl none
    revert hshown
    decide +kernel
  · intro hclaim
    have hanswered : StepAnswered ⟨["(gdb) ".toList]⟩ "(gdb)".toList " ".toList
        (ofStimuli ⟨["(gdb) ".toList]⟩ []).dialogue []
        (Command.ofText "step".toList false).forDisplay "strlen ()\n7\tx\n".toList "7\tx\n".toList
        "8\ty\n".toList
        ["strlen ()\n7\tx\n(gdb) ".toList, "7\tx\n(gdb) ".toList, "8\ty\n(gdb) ".toList] := by
      apply stepAnswered_of_attached <;> decide +kernel
    have hshown := hclaim _ _ _ _ _ _ _ _ _ _ hanswered rfl (by decide +kernel) none
    revert hshown
    decide +kernel

end Chronicle
end DebugClient
