import Mathlib.Data.List.Flatten
import DebugClient.Proofs.Console.Refusal
import DebugClient.Proofs.Console.Replying
import DebugClient.Proofs.Reply.Notice

/-!
Output that nobody waits for. It is looked at chunk by chunk: a chunk of white space is taken for what
remains of a prompt, and the end of the target is noticed only if one chunk announces it. So what comes
of a text depends on where it is cut, unless it is all white space or has none.
-/

namespace DebugClient
namespace Dialogue
open Channel Stop Text

/-- Nothing is in flight, and nothing of a prompt is still to come. -/
structure Overhears (dialogue : Dialogue) : Prop where
  slot : dialogue.channel.inFlight = none
  awaited : dialogue.channel.awaited = []

/-- Whether a chunk is more than white space. -/
def isShown (chunk : Text) : Bool := !(trim chunk).isEmpty

variable {dialogue : Dialogue} {text : Text} {chunks : List Text}

theorem isShown_iff : isShown text = true ↔ trim text ≠ [] := by
  rw [isShown, Bool.not_eq_true', ← Bool.not_eq_true, List.isEmpty_iff]

theorem isShown_eq_false_iff : isShown text = false ↔ trim text = [] := by
  rw [isShown, Bool.not_eq_false', List.isEmpty_iff]

/-! ### Chunk by chunk -/

theorem Overhears.markExited (hoverhears : dialogue.Overhears) : dialogue.markExited.Overhears :=
  ⟨hoverhears.slot, hoverhears.awaited⟩

theorem Overhears.onOutput_eq (hoverhears : dialogue.Overhears) (chunk : Text) :
    dialogue.onOutput chunk = (if isShown chunk then [chunk] else [],
      if announcesExit chunk then dialogue.markExited else dialogue) := by
  have hfeed := feed_of_inFlight_eq_none hoverhears.slot
    (skipAwaited_of_awaited_eq_nil hoverhears.awaited chunk)
  rw [onOutput, hfeed]
  dsimp only
  cases hblank : (trim chunk).isEmpty with
  | true =>
    have hsilent := announcesExit_of_blank (List.isEmpty_iff.1 hblank)
    simp [isShown, hblank, hsilent]
  | false => simp [isShown, hblank]

theorem Overhears.onOutputs_eq (hoverhears : dialogue.Overhears) (chunks : List Text) :
    (dialogue.onOutputs chunks).1.flatten = chunks.filter isShown ∧
      (dialogue.onOutputs chunks).2 =
        if chunks.any announcesExit then dialogue.markExited else dialogue := by
  induction chunks generalizing dialogue with
  | nil => exact ⟨rfl, rfl⟩
  | cons chunk chunks ih =>
    have hshown (shown : List Text) :
        (if isShown chunk then [chunk] else []) ++ shown.filter isShown =
          (chunk :: shown).filter isShown := by
      rw [List.filter_cons]
      split <;> rfl
    have hone := hoverhears.onOutput_eq chunk
    cases hexit : announcesExit chunk with
    | true =>
      obtain ⟨hothers, hlast⟩ := ih hoverhears.markExited
      rw [hexit, if_pos rfl] at hone
      simp only [onOutputs, hone, hlast, List.any_cons, hexit, Bool.true_or, if_true]
      -- A second notice says nothing new.
      exact ⟨by rw [List.flatten_cons, hothers, hshown], ite_self dialogue.markExited⟩
    | false =>
      obtain ⟨hothers, hlast⟩ := ih hoverhears
      rw [hexit, if_neg Bool.false_ne_true] at hone
      simp only [onOutputs, hone, hlast, List.any_cons, hexit, Bool.false_or, and_true]
      rw [List.flatten_cons, hothers, hshown]

/-! ### What a cut does -/

/-- What is shown lacks the chunks of white space. -/
theorem flatten_filter_isShown_eq_iff : (chunks.filter isShown).flatten = chunks.flatten ↔
    ∀ chunk ∈ chunks, trim chunk = [] → chunk = [] := by
  induction chunks with
  | nil => simp
  | cons chunk chunks ih =>
    rw [List.filter_cons, List.forall_mem_cons, List.flatten_cons, ← ih]
    cases hshown : isShown chunk with
    | true =>
      have hfirm := isShown_iff.1 hshown
      simp [hfirm]
    | false =>
      rw [if_neg Bool.false_ne_true]
      constructor
      · intro heq
        have hle : (chunks.filter isShown).flatten.length ≤ chunks.flatten.length :=
          List.filter_sublist.flatten.length_le
        have hlength := congrArg List.length heq
        rw [List.length_append] at hlength
        have hempty : chunk = [] := List.eq_nil_of_length_eq_zero (by omega)
        rw [hempty, List.nil_append] at heq
        exact ⟨fun _ => hempty, heq⟩
      · rintro ⟨hempty, heq⟩
        rw [hempty (isShown_eq_false_iff.1 hshown), List.nil_append, heq]

theorem filter_isShown_of_blank (hblank : trim chunks.flatten = []) : chunks.filter isShown = [] := by
  rw [List.filter_eq_nil_iff]
  intro chunk hchunk
  rw [Bool.not_eq_true, isShown_eq_false_iff, trim_eq_nil_iff]
  intro c hc
  exact trim_eq_nil_iff.1 hblank c (List.mem_flatten.2 ⟨chunk, hchunk, hc⟩)

theorem announcesExit_of_any (hany : chunks.any announcesExit = true) :
    announcesExit chunks.flatten = true := by
  obtain ⟨chunk, hchunk, hannounces⟩ := List.any_eq_true.1 hany
  exact announcesExit_of_infix (List.infix_of_mem_flatten hchunk) hannounces

theorem Overhears.shown_eq_iff (hoverhears : dialogue.Overhears) (hcut : chunks.flatten = text) :
    (dialogue.onOutputs chunks).1.flatten.flatten = (dialogue.onOutput text).1.flatten ↔
      trim text = [] ∨ ∀ chunk ∈ chunks, trim chunk = [] → chunk = [] := by
  subst hcut
  rw [(hoverhears.onOutputs_eq chunks).1, hoverhears.onOutput_eq]
  dsimp only
  cases hshown : isShown chunks.flatten with
  | true =>
    have hfirm := isShown_iff.1 hshown
    rw [if_pos rfl, List.flatten_singleton, flatten_filter_isShown_eq_iff]
    simp [hfirm]
  | false =>
    have hblank := isShown_eq_false_iff.1 hshown
    simp [filter_isShown_of_blank hblank, hblank]

theorem Overhears.exited_eq_iff (hoverhears : dialogue.Overhears) (hcut : chunks.flatten = text) :
    (dialogue.onOutputs chunks).2.exited = (dialogue.onOutput text).2.exited ↔
      dialogue.exited = true ∨
        (announcesExit text = true → ∃ chunk ∈ chunks, announcesExit chunk = true) := by
  have hexited (announced : Bool) : (if announced = true then dialogue.markExited else dialogue).exited =
      (dialogue.exited || announced) := by
    cases announced <;> simp [Dialogue.markExited]
  have hpart : chunks.any announcesExit = true → announcesExit text = true := by
    intro hany
    rw [← hcut]
    exact announcesExit_of_any hany
  rw [(hoverhears.onOutputs_eq chunks).2, hoverhears.onOutput_eq]
  dsimp only
  rw [hexited, hexited, ← List.any_eq_true]
  revert hpart
  cases dialogue.exited <;> cases chunks.any announcesExit <;> cases announcesExit text <;> simp

/-! ### Any cut -/

/-- However a text is cut, it leads to the same, if it is all white space or has none. -/
theorem Overhears.same_of_uniform (hoverhears : dialogue.Overhears)
    (huniform : (∀ c ∈ text, isBlank c = true) ∨ ∀ c ∈ text, isBlank c = false)
    (hcut : chunks.flatten = text) :
    (dialogue.onOutputs chunks).1.flatten.flatten = (dialogue.onOutput text).1.flatten ∧
      (dialogue.onOutputs chunks).2.exited = (dialogue.onOutput text).2.exited := by
  rw [hoverhears.shown_eq_iff hcut, hoverhears.exited_eq_iff hcut]
  constructor
  · rcases huniform with hblank | hfirm
    · exact .inl (trim_eq_nil_iff.2 hblank)
    · refine .inr fun chunk hchunk htrim => ?_
      by_contra hne
      obtain ⟨c, hc⟩ := List.exists_mem_of_ne_nil chunk hne
      have hblank := trim_eq_nil_iff.1 htrim c hc
      rw [hfirm c (hcut ▸ List.mem_flatten.2 ⟨chunk, hchunk, hc⟩)] at hblank
      cases hblank
  · refine .inr fun hannounces => ?_
    obtain ⟨⟨c, hc, hblank⟩, d, hd, hfirm⟩ := blank_and_firm_of_announcesExit hannounces
    rcases huniform with hall | hall
    · rw [hall d hd] at hfirm
      cases hfirm
    · rw [hall c hc] at hblank
      cases hblank

/-- White space that stands in a text is lost if it comes as a chunk of its own. -/
theorem Overhears.exists_cut_of_blank {c : Char} (hoverhears : dialogue.Overhears) (hc : c ∈ text)
    (hblank : isBlank c = true) (hfirm : trim text ≠ []) : ∃ chunks, chunks.flatten = text ∧
      (dialogue.onOutputs chunks).1.flatten.flatten ≠ (dialogue.onOutput text).1.flatten := by
  obtain ⟨front, back, rfl⟩ := List.append_of_mem hc
  have hcut : [front, [c], back].flatten = front ++ c :: back := by simp
  refine ⟨_, hcut, ?_⟩
  rw [Ne, hoverhears.shown_eq_iff hcut]
  rintro (hall | hempty)
  · exact hfirm hall
  · have hspace : trim [c] = [] := trim_eq_nil_iff.2 (by simpa using hblank)
    exact absurd (hempty [c] (by simp) hspace) (by simp)

/-- What comes of a text that is overheard. A cut shows the same as the whole if the text is all white
    space or no chunk but an empty one is, and it leaves the target as the whole does if the target had
    ended before or a notice comes in one chunk. All ways of cutting the text lead to the same exactly if
    the text is all white space or has none. -/
theorem Overhears.all_cuts_same_iff (hoverhears : dialogue.Overhears) (text : Text) :
    (∀ chunks, chunks.flatten = text →
      ((dialogue.onOutputs chunks).1.flatten.flatten = (dialogue.onOutput text).1.flatten ↔
        trim text = [] ∨ ∀ chunk ∈ chunks, trim chunk = [] → chunk = []) ∧
      ((dialogue.onOutputs chunks).2.exited = (dialogue.onOutput text).2.exited ↔
        dialogue.exited = true ∨
          (announcesExit text = true → ∃ chunk ∈ chunks, announcesExit chunk = true))) ∧
    ((∀ one other, one.flatten = text → other.flatten = text →
        (dialogue.onOutputs one).2.exited = (dialogue.onOutputs other).2.exited ∧
        (dialogue.onOutputs one).1.flatten.flatten = (dialogue.onOutputs other).1.flatten.flatten) ↔
      (∀ c ∈ text, isBlank c = true) ∨ ∀ c ∈ text, isBlank c = false) := by
  refine ⟨?_, ?_, ?_⟩
  · intro chunks hcut
    exact ⟨hoverhears.shown_eq_iff hcut, hoverhears.exited_eq_iff hcut⟩
  · intro hsame
    by_contra hmixed
    rw [not_or] at hmixed
    obtain ⟨hfirm, hblank⟩ := hmixed
    push Not at hblank
    obtain ⟨c, hc, hspace⟩ := hblank
    obtain ⟨chunks, hcut, hdiffers⟩ := hoverhears.exists_cut_of_blank hc (by simpa using hspace)
      (mt trim_eq_nil_iff.1 hfirm)
    have hwhole : [text].flatten = text := List.flatten_singleton
    apply hdiffers
    rw [(hsame chunks [text] hcut hwhole).2]
    simp [onOutputs]
  · intro huniform one other hone hother
    obtain ⟨hshown, hexited⟩ := hoverhears.same_of_uniform huniform hone
    obtain ⟨hshown', hexited'⟩ := hoverhears.same_of_uniform huniform hother
    exact ⟨hexited.trans hexited'.symm, hshown.trans hshown'.symm⟩

/-- Right after the start nothing is in flight. A text without white space may be cut anywhere; in this
    notice every cut within `exited` keeps the end from being noticed. -/
theorem Overhears.all_cuts_same_iff_at_start :
    let start := attached ⟨["(gdb) ".toList]⟩
    let notice := "[Inferior 1 (process 7) exited normally]".toList
    start.Overhears ∧
      (start.onOutputs ["warn".toList, "ing".toList]).1.flatten.flatten =
        (start.onOutputs ["w".toList, "arning".toList]).1.flatten.flatten ∧
      ∀ place ∈ List.range' 25 5,
        (start.onOutputs [notice.take place, notice.drop place]).2.exited ≠
          (start.onOutput notice).2.exited := by
  intro start notice
  have hoverhears : start.Overhears := ⟨rfl, rfl⟩
  refine ⟨hoverhears, ?_, ?_⟩
  · have hfirm : "warning".toList.all (fun c => !isBlank c) = true := by decide
    have huniform : ∀ c ∈ "warning".toList, isBlank c = false := by
      simpa only [List.all_eq_true, Bool.not_eq_true'] using hfirm
    exact ((hoverhears.all_cuts_same_iff "warning".toList).2.2 (.inr huniform) _ _ rfl rfl).2
  · intro place hplace
    have hcut : [notice.take place, notice.drop place].flatten = notice := by simp
    rw [Ne, ((hoverhears.all_cuts_same_iff notice).1 _ hcut).2]
    revert place
    decide +kernel

/-- A notice that comes in two chunks is missed, and white space in front of a text is lost. -/
theorem not_same_cut :
    let start := attached ⟨["(gdb) ".toList]⟩
    let notice : List Text := ["[Inferior 1 (process 7) exi".toList, "ted normally]\n".toList]
    let output : List Text := [" ".toList, "x".toList]
    start.Reached ∧ (start.channel.inFlight = none ∧ start.channel.awaited = []) ∧
      (start.onOutputs notice).2.exited ≠ (start.onOutputs [notice.flatten]).2.exited ∧
      (start.onOutputs output).1.flatten.flatten ≠
        (start.onOutputs [output.flatten]).1.flatten.flatten := by
  intro start notice output
  have hreached : start.Reached := .attached _
  exact ⟨hreached, ⟨rfl, rfl⟩, by decide +kernel, by decide +kernel⟩

end Dialogue
end DebugClient
