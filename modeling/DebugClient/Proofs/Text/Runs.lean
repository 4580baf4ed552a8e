import Mathlib.Data.List.TakeWhile
import DebugClient.Text.CharClass
import DebugClient.Proofs.Text.Lines

/-!
Runs of characters of one class. A run that is read from the front of a text ends where its class ends,
and the words of a text are its runs of characters other than white space.
-/

namespace DebugClient.Text

/-- One or more characters of a class. -/
def IsRun (inClass : Char → Bool) (t : Text) : Prop := t ≠ [] ∧ ∀ c ∈ t, inClass c

instance (inClass : Char → Bool) (t : Text) : Decidable (IsRun inClass t) :=
  decidable_of_iff (t ≠ [] ∧ t.all inClass) (and_congr_right' List.all_eq_true)

section
variable {inClass : Char → Bool} {run rest t : Text}

theorem IsRun.run?_append (hrun : IsRun inClass run) (rest : Text) :
    run? inClass (run ++ rest) = some (run ++ rest.takeWhile inClass, rest.dropWhile inClass) := by
  rw [run?, List.takeWhile_append_of_pos hrun.2, List.dropWhile_append_of_pos hrun.2]
  split
  · next hnil => exact absurd (List.append_eq_nil_iff.1 hnil).1 hrun.1
  · rfl

theorem IsRun.skip?_append (hrun : IsRun inClass run) (rest : Text) :
    skip? inClass (run ++ rest) = some (rest.dropWhile inClass) := by
  rw [skip?, hrun.run?_append, Option.map_some]

theorem IsRun.of_mem_head? (hrun : IsRun inClass run) {c : Char} (hc : c ∈ (run ++ rest).head?) :
    inClass c := by
  obtain ⟨hne, hall⟩ := hrun
  rw [List.head?_append_of_ne_nil run hne] at hc
  exact hall c (List.mem_of_mem_head? hc)

/-- A run is over where another character stands. -/
theorem whiles_of_head? (hends : ∀ c ∈ rest.head?, inClass c = false) :
    rest.takeWhile inClass = [] ∧ rest.dropWhile inClass = rest := by
  cases rest with
  | nil => exact ⟨rfl, rfl⟩
  | cons c rest => simp [hends c rfl]

theorem not_of_mem_head?_dropWhile {c : Char} (hc : c ∈ (t.dropWhile inClass).head?) :
    inClass c = false := by
  have hhead := List.head?_dropWhile_not inClass t
  rw [Option.mem_def.1 hc] at hhead
  simpa using hhead

/-- In front of the first mark, and from it on. -/
theorem whiles_append_cons {front : Text} {mark : Char} (hfront : mark ∉ front) (back : Text) :
    (front ++ mark :: back).takeWhile (· ≠ mark) = front ∧
      (front ++ mark :: back).dropWhile (· ≠ mark) = mark :: back := by
  have hbefore : ∀ c ∈ front, decide (c ≠ mark) = true := by
    intro c hc
    rw [decide_eq_true_eq]
    rintro rfl
    exact hfront hc
  rw [List.takeWhile_append_of_pos hbefore, List.dropWhile_append_of_pos hbefore]
  simp

theorem eq_append_cons_of_dropWhile {mark d : Char} {back : Text}
    (hdrop : t.dropWhile (· ≠ mark) = d :: back) :
    mark ∉ t.takeWhile (· ≠ mark) ∧ t = t.takeWhile (· ≠ mark) ++ mark :: back := by
  obtain rfl : d = mark := by
    have hhead := List.head?_dropWhile_not (fun c => decide (c ≠ mark)) t
    rw [hdrop] at hhead
    simpa using hhead
  constructor
  · intro hmem
    exact absurd (List.mem_takeWhile_imp hmem) (by simp)
  · rw [← hdrop]
    exact List.takeWhile_append_dropWhile.symm

theorem splitLast?_eq_some_iff {mark : Char} {front back : Text} :
    splitLast? mark t = some (front, back) ↔ mark ∉ back ∧ t = front ++ mark :: back := by
  constructor
  · intro hsplit
    rw [splitLast?] at hsplit
    split at hsplit
    · cases hsplit
    · next d before hdrop =>
      obtain ⟨rfl, rfl⟩ := Prod.mk.inj (Option.some.inj hsplit)
      obtain ⟨hbehind, heq⟩ := eq_append_cons_of_dropWhile hdrop
      refine ⟨mt List.mem_reverse.1 hbehind, ?_⟩
      simpa using congrArg List.reverse heq
  · rintro ⟨hback, rfl⟩
    obtain ⟨htake, hdrop⟩ := whiles_append_cons (mt List.mem_reverse.1 hback) front.reverse
    have hreverse : (front ++ mark :: back).reverse = back.reverse ++ mark :: front.reverse := by simp
    rw [splitLast?, hreverse, hdrop, htake]
    simp

theorem eq_append_of_run? (hsome : run? inClass t = some (run, rest)) :
    IsRun inClass run ∧ t = run ++ rest ∧ ∀ c ∈ rest.head?, inClass c = false := by
  rw [run?] at hsome
  split at hsome
  · cases hsome
  · next hne =>
    cases hsome
    exact ⟨⟨hne, fun c hc => List.mem_takeWhile_imp hc⟩, List.takeWhile_append_dropWhile.symm,
      fun c => not_of_mem_head?_dropWhile⟩

theorem exists_of_skip? (hsome : skip? inClass t = some rest) :
    ∃ run, IsRun inClass run ∧ t = run ++ rest ∧ ∀ c ∈ rest.head?, inClass c = false := by
  obtain ⟨⟨run, rest⟩, hrun, rfl⟩ := Option.map_eq_some_iff.1 hsome
  exact ⟨run, eq_append_of_run? hrun⟩

end

/-! ### Words -/

/-- The text without its white space. -/
def solid (t : Text) : Text := t.filter fun c => !isBlank c

section
variable {s t word : Text} {c : Char}

theorem solid_append (s t : Text) : solid (s ++ t) = solid s ++ solid t := List.filter_append s t

theorem words_append_cons (hc : isBlank c) (s t : Text) :
    words (s ++ c :: t) = words s ++ words t := by
  rw [words, pieces_append_cons hc, List.filter_append, words, words]

theorem words_of_forall_not (hne : word ≠ []) (hfirm : ∀ c ∈ word, ¬ isBlank c) :
    words word = [word] := by
  have hpieces := pieces_append_of_forall_not hfirm (show pieces isBlank [] = [[]] from rfl)
  rw [List.append_nil] at hpieces
  rw [words, hpieces, List.filter_cons_of_pos (by simpa using hne), List.filter_nil]

theorem words_trimStart (t : Text) : words (trimStart t) = words t := by
  induction t with
  | nil => rfl
  | cons c t ih =>
    by_cases hc : isBlank c = true
    · rw [trimStart, List.dropWhile_cons_of_pos hc]
      exact ih.trans (words_append_cons hc [] t).symm
    · rw [trimStart, List.dropWhile_cons_of_neg hc]

theorem flatten_words (t : Text) : (words t).flatten = solid t := by
  rw [words, List.flatten_filter_not_isEmpty, flatten_pieces, solid]

theorem solid_intercalate (parts : List Text) :
    solid ([' '].intercalate parts) = solid parts.flatten := by
  induction parts with
  | nil => rfl
  | cons part parts ih =>
    cases parts with
    | nil => rw [List.intercalate_singleton, List.flatten_singleton]
    | cons next parts =>
      have hblank : solid [' '] = [] := rfl
      rw [List.intercalate_cons_cons, solid_append, solid_append, ih, hblank, List.append_nil,
        ← solid_append, ← List.flatten_cons]

/-- Words set side by side have the characters of the text. -/
theorem solid_intercalate_words (t : Text) : solid ([' '].intercalate (words t)) = solid t := by
  rw [solid_intercalate, flatten_words, solid, solid, List.filter_filter]
  simp only [Bool.and_self]

end

end DebugClient.Text
