import DebugClient.Proofs.Console.Refusal
import DebugClient.Proofs.Console.Skipping
import DebugClient.Proofs.Reply.Naming

/-!
A list of functions decides which steps are skipped until the next one. The list and the reply to a
`step` are read in different ways, and what decides is that both cut out the same names.
-/

namespace DebugClient
namespace Dialogue
open Text Channel StepState

variable {start dialogue : Dialogue} {stimulus : Stimulus} {chunk : Text} {completion : Completion}

/-- The command that this stimulus completes, with its response. -/
def completion? (stimulus : Stimulus) (dialogue : Dialogue) : Option Completion :=
  match stimulus with
  | .output chunk =>
    match (dialogue.channel.feed chunk).1 with
    | .complete completion => some completion
    | .unsolicited _ | .pending _ => none
  | .submit .. | .enqueue _ | .abort | .close | .allowWriting _ => none

/-- No list of functions is completed by these stimuli. -/
def CompletesNoList : List Stimulus → Dialogue → Prop
  | [], _ => True
  | stimulus :: stimuli, dialogue =>
    (∀ completion ∈ dialogue.completion? stimulus,
      completion.response.command.kind ≠ .infoFunctions) ∧
    CompletesNoList stimuli (dialogue.perform stimulus)

/-- The step that this chunk completes is skipped: its response is hidden, and unless the target has
    ended a `finish` is asked for and waited for. -/
structure Skips (dialogue : Dialogue) (chunk : Text) (completion : Completion) : Prop where
  decided : dialogue.verdict completion.response =
    ({ suppress := true, followUp := some automaticFinish },
      .awaitingSkipDecision (Stop.stoppedLine completion.response.text))
  hidden : (dialogue.onOutput chunk).1 = completion.tail.toList
  pending : Stop.announcesExit completion.response.text = false → ∃ oldest others,
    Pending dialogue (dialogue.onOutput chunk).2 (Stop.stoppedLine completion.response.text) oldest
      others

/-- The step that this chunk completes is not skipped: its response is displayed if that was asked for,
    and nothing follows. -/
structure Passes (dialogue : Dialogue) (chunk : Text) (completion : Completion) : Prop where
  decided : dialogue.verdict completion.response = ({}, .idle)
  shown : (dialogue.onOutput chunk).1 = completion.tail.toList ++
    (if completion.response.display then [completion.response.text] else [])
  idle : (dialogue.onOutput chunk).2.steps = .idle

/-! ### What changes the catalogue -/

@[simp] theorem catalogue_dispatchNext (dialogue : Dialogue) :
    dialogue.dispatchNext.catalogue = dialogue.catalogue := by
  rw [dispatchNext]
  split <;> rfl

/-- A response that completes is the only thing that can change the catalogue. -/
theorem catalogue_onOutput_of_complete
    (hfeed : (dialogue.channel.feed chunk).1 = .complete completion) :
    (dialogue.onOutput chunk).2.catalogue =
      (dialogue.refreshCatalogue completion.response).catalogue := by
  rcases onOutput_cases chunk dialogue with ⟨text, awaited, -, hother, -⟩ |
    ⟨flight, out, carry, awaited, -, hother, -⟩ | ⟨flight, other, awaited, -, -, hother, hafter⟩
  · cases hfeed.symm.trans hother
  · cases hfeed.symm.trans hother
  · cases hfeed.symm.trans hother
    have hvacate : ((dialogue.vacate awaited).refreshCatalogue completion.response).catalogue =
        (dialogue.refreshCatalogue completion.response).catalogue := by
      rw [refreshCatalogue, refreshCatalogue]
      split <;> rfl
    rw [hafter, catalogue_dispatchNext]
    exact hvacate

theorem catalogue_perform
    (hnone : ∀ completion ∈ dialogue.completion? stimulus,
      completion.response.command.kind ≠ .infoFunctions) :
    (dialogue.perform stimulus).catalogue = dialogue.catalogue := by
  cases stimulus with
  | submit command ticket =>
    rcases submit_cases command ticket dialogue with ⟨e, carry, hsubmit, -⟩ | ⟨exited, -, -, hsubmit⟩
    · rw [perform, hsubmit]
    · rw [perform, hsubmit]
  | enqueue command =>
    rw [perform, enqueue]
    split <;> rfl
  | output chunk =>
    rw [perform]
    rcases onOutput_cases chunk dialogue with ⟨text, awaited, -, -, hsame | ⟨-, hexited⟩⟩ |
      ⟨flight, out, carry, awaited, -, -, hafter⟩ |
      ⟨flight, completion, awaited, -, -, hfeed, hafter⟩
    · rw [hsame]
    · rw [hexited]
    · rw [hafter]
    · have hkind := hnone completion (by rw [completion?, hfeed]; rfl)
      rw [catalogue_onOutput_of_complete hfeed, refreshCatalogue, if_neg hkind]
  | abort => rfl
  | close => rfl
  | allowWriting accepting => rfl

/-- The catalogue lasts until a list of functions completes. -/
theorem CompletesNoList.catalogue_performAll {stimuli : List Stimulus}
    (hnone : dialogue.CompletesNoList stimuli) :
    (dialogue.performAll stimuli).catalogue = dialogue.catalogue := by
  induction stimuli generalizing dialogue with
  | nil => rfl
  | cons stimulus stimuli ih =>
    obtain ⟨hfirst, hothers⟩ := hnone
    exact (ih hothers).trans (catalogue_perform hfirst)

/-! ### What becomes of a step -/

/-- The tail of a response that completes is shown, and the response as a whole if the verdict is so. -/
theorem shown_onOutput_of_complete (hfeed : (dialogue.channel.feed chunk).1 = .complete completion) :
    (dialogue.onOutput chunk).1 = completion.tail.toList ++
      (if showsWhole (dialogue.verdict completion.response).1 completion.response then
        [completion.response.text] else []) := by
  have hfed : dialogue.channel.feed chunk = (.complete completion, (dialogue.channel.feed chunk).2) :=
    Prod.ext hfeed rfl
  rw [onOutput, hfed]
  dsimp only
  rw [complete_eq, verdict_with_channel]

/-- An idle controller skips a step that enters a function which is not in the catalogue. -/
theorem skips_of_enters (hidle : dialogue.steps = .idle)
    (hfeed : (dialogue.channel.feed chunk).1 = .complete completion)
    (hkind : completion.response.command.kind = .step)
    (henters : entersUnknown dialogue.catalogue completion.response.text = true) :
    dialogue.Skips chunk completion := by
  have hdecided := verdict_of_enters hidle ⟨hkind, henters⟩
  refine ⟨hdecided, ?_, fun hexit => ?_⟩
  · rw [shown_onOutput_of_complete hfeed, hdecided]
    exact List.append_nil _
  · exact BeginsSkip.pending ⟨hidle, completion, hfeed, hkind, henters, hexit, rfl⟩

/-- It lets any other step pass. -/
theorem passes_of_not_enters (hidle : dialogue.steps = .idle)
    (hfeed : (dialogue.channel.feed chunk).1 = .complete completion)
    (hkind : completion.response.command.kind = .step)
    (hnot : entersUnknown dialogue.catalogue completion.response.text = false) :
    dialogue.Passes chunk completion := by
  have hdecided : dialogue.verdict completion.response = ({}, .idle) := by
    refine verdict_of_not_enters hidle ?_
    rintro ⟨-, henters⟩
    cases hnot.symm.trans henters
  refine ⟨hdecided, ?_, ?_⟩
  · rw [shown_onOutput_of_complete hfeed, hdecided]
    simp [showsWhole, hkind]
  · rcases onOutput_cases chunk dialogue with ⟨text, awaited, -, hother, -⟩ |
      ⟨flight, out, carry, awaited, -, hother, -⟩ | ⟨flight, other, awaited, -, -, hother, hafter⟩
    · cases hfeed.symm.trans hother
    · cases hfeed.symm.trans hother
    · cases hfeed.symm.trans hother
      rw [hafter, steps_dispatchNext, settle, verdict_vacate, hdecided, ite_self]

theorem Passes.not_skips (hpasses : dialogue.Passes chunk completion) :
    ¬ dialogue.Skips chunk completion := by
  intro hskips
  cases hpasses.decided.symm.trans hskips.decided

/-- A list of functions leaves its names in the catalogue and no other ones. From then on, until the
    next list completes, a step that completes while no skip is in progress is skipped if and only if its
    reply tells that a function was entered whose name is not in the list. -/
theorem skips_iff_entersUnlisted {list : Completion}
    (hlist : (start.channel.feed chunk).1 = .complete list)
    (hkind : list.response.command.kind = .infoFunctions)
    (hlisting : Catalogue.IsListing list.response.text) :
    (∀ name, (start.onOutput chunk).2.catalogue.contains name = true ↔
      Catalogue.Listed list.response.text name) ∧
    ∀ stimuli, (start.onOutput chunk).2.CompletesNoList stimuli → ∀ later step,
      let now := (start.onOutput chunk).2.performAll stimuli
      now.steps = .idle → (now.channel.feed later).1 = .complete step →
      step.response.command.kind = .step →
      (now.Skips later step ↔ Catalogue.EntersUnlisted list.response.text step.response.text) ∧
      (now.Passes later step ↔ ¬ Catalogue.EntersUnlisted list.response.text step.response.text) := by
  have hcatalogue (name : Text) : (start.onOutput chunk).2.catalogue.contains name = true ↔
      Catalogue.Listed list.response.text name := by
    rw [catalogue_onOutput_of_complete hlist, refreshCatalogue, if_pos hkind]
    exact hlisting.contains_read_iff
  refine ⟨hcatalogue, ?_⟩
  intro stimuli hnone later step now hidle hfeed hstep
  have hunknown : entersUnknown now.catalogue step.response.text = true ↔
      Catalogue.EntersUnlisted list.response.text step.response.text := by
    rw [entersUnknown_iff, hnone.catalogue_performAll]
    simp only [← Bool.not_eq_true, hcatalogue, Catalogue.EntersUnlisted]
  cases henters : entersUnknown now.catalogue step.response.text with
  | true =>
    have hskips := skips_of_enters hidle hfeed hstep henters
    have hunlisted := hunknown.1 henters
    exact ⟨iff_of_true hskips hunlisted,
      iff_of_false (fun hpasses => hpasses.not_skips hskips) (not_not_intro hunlisted)⟩
  | false =>
    have hpasses := passes_of_not_enters hidle hfeed hstep henters
    have hlisted := mt hunknown.2 (ne_true_of_eq_false henters)
    exact ⟨iff_of_false hpasses.not_skips hlisted, iff_of_true hpasses hlisted⟩

/-- A debugger that has been asked for the functions. -/
def asked : Dialogue :=
  (attached ⟨["(gdb) ".toList]⟩).perform (.submit (.ofText "info functions".toList false) none)

theorem defines_f : Catalogue.Defines "12:\tint *f(void);".toList "f".toList :=
  @Catalogue.Defines.intro "12".toList "\t".toList "int ".toList ['*'] "f".toList "void);".toList
    (by decide) (by decide)
    (@Catalogue.IsTypePart.intro "int".toList " ".toList (by decide) (by decide))
    (fun _ => List.mem_singleton.1) ⟨'f', [], rfl, by decide, nofun⟩

theorem skips_iff_entersUnlisted_strlen :
    let chunk := "File main.c:\n12:\tint *f(void);\n\n0x1000  strlen\n(gdb) ".toList
    let listed := (asked.onOutput chunk).2
    let now := listed.performAll [.submit (.ofText "step".toList true) none]
    listed.catalogue.contains "f".toList = true ∧
      ∃ step, (now.channel.feed Chronicle.strlenReply).1 = .complete step ∧
        now.Skips Chronicle.strlenReply step := by
  intro chunk listed now
  let reply := "File main.c:\n12:\tint *f(void);\n\n0x1000  strlen\n".toList
  have hlines : lines reply = ["File main.c:".toList, "12:\tint *f(void);".toList, [],
    "0x1000  strlen".toList] := by decide +kernel
  have hlisting : Catalogue.IsListing reply := by
    rw [Catalogue.IsListing, hlines]
    simp only [List.forall_mem_cons]
    exact ⟨.inr (by decide +kernel), .inl ⟨_, defines_f⟩, .inr (by decide +kernel),
      .inr (by decide +kernel), nofun⟩
  obtain ⟨hcatalogue, hsteps⟩ := @skips_iff_entersUnlisted asked chunk
    ⟨⟨.ofText "info functions".toList false, reply, false⟩, none, none⟩ (by decide +kernel)
    (by decide +kernel) hlisting
  have hf : Catalogue.Listed reply "f".toList :=
    ⟨_, hlines ▸ List.mem_cons_of_mem _ List.mem_cons_self, defines_f⟩
  have hfed : (now.channel.feed Chronicle.strlenReply).1 = .complete
      ⟨⟨.ofText "step".toList true, "0x1 in strlen (s=0x2)\n12\tx\n".toList, true⟩, none, none⟩ := by
    decide +kernel
  have hlines' : lines "0x1 in strlen (s=0x2)\n12\tx\n".toList =
    ["0x1 in strlen (s=0x2)".toList, "12\tx".toList] := by decide +kernel
  have henters : Entry.Enters "0x1 in strlen (s=0x2)".toList "strlen".toList :=
    @Entry.Enters.intro "0x1 in ".toList "strlen".toList " ".toList "s=0x2)".toList
      (.inr (@Entry.IsAddressPart.intro "1".toList " ".toList " ".toList (by decide) (by decide)
        (by decide)))
      ⟨'s', "trlen".toList, rfl, by decide, List.all_eq_true.1 rfl⟩ (List.all_eq_true.1 rfl)
  have hunlisted : ¬ Catalogue.Listed reply "strlen".toList :=
    mt (hcatalogue _).2 (by decide +kernel)
  have hnone : listed.CompletesNoList [.submit (.ofText "step".toList true) none] := ⟨nofun, trivial⟩
  refine ⟨(hcatalogue _).2 hf, _, hfed, ?_⟩
  exact ((hsteps _ hnone _ _ (by decide +kernel) hfed rfl).1).2
    ⟨_, hlines' ▸ List.mem_cons_self, _, henters, hunlisted⟩

/-- A number behind white space lists a function, too. -/
theorem listed_behind_white_space :
    ¬ ∀ (start : Dialogue) (chunk : Text) (list : Completion),
      (start.channel.feed chunk).1 = .complete list → list.response.command.kind = .infoFunctions →
      (∀ line ∈ lines list.response.text,
        (∃ name, Catalogue.Defines line name) ∨ ¬ Catalogue.IsNumbered line) →
      (∃ name, Catalogue.Listed list.response.text name) →
      ∀ name, (start.onOutput chunk).2.catalogue.contains name = true ↔
        Catalogue.Listed list.response.text name := by
  intro hall
  let chunk := "12:\tint *f(void);\n 13:\tint g(void);\n(gdb) ".toList
  let reply := "12:\tint *f(void);\n 13:\tint g(void);\n".toList
  have hfed : (asked.channel.feed chunk).1 = .complete
      ⟨⟨.ofText "info functions".toList false, reply, false⟩, none, none⟩ := by decide +kernel
  have hlines : lines reply = ["12:\tint *f(void);".toList, " 13:\tint g(void);".toList] := by
    decide +kernel
  have hunnumbered : ¬ Catalogue.IsNumbered " 13:\tint g(void);".toList := by
    decide +kernel
  have hforms : ∀ line ∈ lines reply,
      (∃ name, Catalogue.Defines line name) ∨ ¬ Catalogue.IsNumbered line := by
    rw [hlines]
    simp only [List.forall_mem_cons]
    exact ⟨.inl ⟨_, defines_f⟩, .inr hunnumbered, nofun⟩
  have hlisted : Catalogue.Listed reply "g".toList :=
    (hall asked chunk _ hfed (by decide +kernel) hforms
      ⟨_, _, hlines ▸ List.mem_cons_self, defines_f⟩ "g".toList).1 (by decide +kernel)
  obtain ⟨line, hline, hother⟩ := hlisted
  rw [hlines] at hline
  simp only [List.mem_cons, List.not_mem_nil, or_false] at hline
  rcases hline with rfl | rfl
  · exact absurd (defines_f.definition?_eq.symm.trans hother.definition?_eq) (by decide)
  · exact hunnumbered hother.isNumbered

end Dialogue
end DebugClient
