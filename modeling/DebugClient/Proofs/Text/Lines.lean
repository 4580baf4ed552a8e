import Mathlib.Data.List.Basic
import DebugClient.Text.Basic
import DebugClient.Proofs.Text.Decoding

/-!
Lines of a text that is put together from parts. Where a part ends with a line break, its lines do not
depend on what follows, and no byte of another character is taken for a line feed.
-/

namespace DebugClient.Text

section
variable {α : Type} {isSeparator : α → Bool}

theorem pieces_ne_nil (t : List α) : pieces isSeparator t ≠ [] := by
  cases t with
  | nil => exact List.cons_ne_nil _ _
  | cons c t =>
    rw [pieces]
    split
    · exact List.cons_ne_nil _ _
    · split <;> exact List.cons_ne_nil _ _

theorem flatten_pieces (t : List α) :
    (pieces isSeparator t).flatten = t.filter fun c => !isSeparator c := by
  induction t with
  | nil => rfl
  | cons c t ih =>
    rw [pieces]
    by_cases hc : isSeparator c = true
    · rw [if_pos hc, List.flatten_cons, ih, List.filter_cons_of_neg (by simp [hc]), List.nil_append]
    · rw [if_neg hc, List.filter_cons_of_pos (by simpa using hc), ← ih]
      cases hpieces : pieces isSeparator t with
      | nil => exact absurd hpieces (pieces_ne_nil t)
      | cons first others => rfl

theorem pieces_append_cons {c : α} (hc : isSeparator c = true) (s t : List α) :
    pieces isSeparator (s ++ c :: t) = pieces isSeparator s ++ pieces isSeparator t := by
  induction s with
  | nil => simp only [List.nil_append, pieces, if_pos hc, List.singleton_append]
  | cons d s ih =>
    rw [List.cons_append, pieces, ih]
    by_cases hd : isSeparator d = true
    · rw [if_pos hd, pieces, if_pos hd]
      rfl
    · rw [if_neg hd, pieces, if_neg hd]
      cases hpieces : pieces isSeparator s with
      | nil => exact absurd hpieces (pieces_ne_nil s)
      | cons first others => rfl

/-- What stands in front of a piece without a separator in between belongs to that piece. -/
theorem pieces_append_of_forall_not {s t first : List α} {others : List (List α)}
    (hnone : ∀ c ∈ s, ¬ isSeparator c) (ht : pieces isSeparator t = first :: others) :
    pieces isSeparator (s ++ t) = (s ++ first) :: others := by
  induction s with
  | nil => exact ht
  | cons c s ih =>
    obtain ⟨hc, hs⟩ := List.forall_mem_cons.1 hnone
    rw [List.cons_append, pieces, if_neg hc, ih hs]
    rfl

variable [DecidableEq α] {carriageReturn : α}

theorem pieces_of_notMem {mark : α} {t : List α} (hmark : mark ∉ t) : pieces (· == mark) t = [t] := by
  have hnone : ∀ c ∈ t, ¬ (c == mark) = true := by
    intro c hc
    rw [beq_iff_eq]
    rintro rfl
    exact hmark hc
  have hpieces := pieces_append_of_forall_not hnone (show pieces (· == mark) [] = [[]] from rfl)
  rwa [List.append_nil] at hpieces

/-- A line without the carriage return that belongs to the line break behind it. -/
def chomp (carriageReturn : α) (line : List α) : List α :=
  if line.getLast? = some carriageReturn then line.dropLast else line

/-- The carriage return is looked for behind any other character. -/
theorem chomp_append_cons {c : α} (hc : c ≠ carriageReturn) (s t : List α) :
    chomp carriageReturn (s ++ c :: t) = s ++ c :: chomp carriageReturn t := by
  rcases List.eq_nil_or_concat' t with rfl | ⟨t, d, rfl⟩
  · rw [chomp, List.getLast?_concat, if_neg (by simpa using hc)]
    rfl
  · have happend : s ++ c :: (t ++ [d]) = (s ++ c :: t) ++ [d] := by simp
    rw [happend, chomp, chomp, List.getLast?_concat, List.getLast?_concat, List.dropLast_concat,
      List.dropLast_concat]
    split
    · rfl
    · exact List.append_assoc ..

theorem linesOfPieces_append {front back : List (List α)} (hback : back ≠ []) :
    linesOfPieces carriageReturn (front ++ back) =
      front.map (chomp carriageReturn) ++ linesOfPieces carriageReturn back := by
  induction front with
  | nil => rfl
  | cons line front ih =>
    have hne : front ++ back ≠ [] := List.append_ne_nil_of_right_ne_nil front hback
    obtain ⟨next, others, hothers⟩ := List.exists_cons_of_ne_nil hne
    rw [hothers] at ih
    rw [List.cons_append, hothers, linesOfPieces, ih]
    · rfl
    · exact List.cons_ne_nil _ _

/-- What has been written line by line is split into the same lines. -/
theorem linesOfPieces_flatMap {newline : α} {written : List (List α)}
    (hwritten : ∀ line ∈ written, newline ∉ line ∧ line.getLast? ≠ some carriageReturn) :
    linesOfPieces carriageReturn (pieces (· == newline) (written.flatMap (· ++ [newline]))) =
      written := by
  induction written with
  | nil => rfl
  | cons line written ih =>
    obtain ⟨⟨hnone, hlast⟩, hothers⟩ := List.forall_mem_cons.1 hwritten
    rw [List.flatMap_cons, List.append_assoc, List.singleton_append,
      pieces_append_cons (by exact beq_self_eq_true newline), linesOfPieces_append (pieces_ne_nil _),
      pieces_of_notMem hnone, ih hothers, List.map_singleton, chomp, if_neg hlast, List.singleton_append]

end

/-- The text ends with the mark, if it is not empty. -/
def EndsWith {α : Type} (mark : α) (t : List α) : Prop := ∀ c ∈ t.getLast?, c = mark

theorem endsWith_append_singleton {α : Type} (mark : α) (t : List α) : EndsWith mark (t ++ [mark]) := by
  intro c hc
  rw [List.getLast?_concat] at hc
  exact (Option.some.inj hc).symm

theorem EndsWith.eq_nil_or {α : Type} {mark : α} {t : List α} (hends : EndsWith mark t) :
    t = [] ∨ ∃ s, t = s ++ [mark] := by
  rcases List.eq_nil_or_concat' t with rfl | ⟨s, c, rfl⟩
  · exact .inl rfl
  · exact .inr ⟨s, by rw [hends c (List.getLast?_concat ..)]⟩

theorem EndsWith.append {α : Type} {mark : α} {s t : List α} (hs : EndsWith mark s)
    (ht : EndsWith mark t) : EndsWith mark (s ++ t) := by
  rcases ht.eq_nil_or with rfl | ⟨t, rfl⟩
  · rw [List.append_nil]
    exact hs
  · rw [← List.append_assoc]
    exact endsWith_append_singleton mark (s ++ t)

/-- Every text can be cut behind the last mark in it. -/
theorem exists_endsWith {α : Type} [DecidableEq α] (mark : α) (t : List α) :
    ∃ front back, t = front ++ back ∧ EndsWith mark front ∧ mark ∉ back := by
  induction t using List.reverseRecOn with
  | nil => exact ⟨[], [], rfl, nofun, List.not_mem_nil⟩
  | append_singleton t c ih =>
    by_cases hc : c = mark
    · subst hc
      exact ⟨t ++ [c], [], (List.append_nil _).symm, endsWith_append_singleton c t, List.not_mem_nil⟩
    · obtain ⟨front, back, rfl, hends, hnot⟩ := ih
      refine ⟨front, back ++ [c], List.append_assoc .., hends, ?_⟩
      rw [List.mem_append, List.mem_singleton, not_or]
      exact ⟨hnot, fun heq => hc heq.symm⟩

theorem lines_append_cons (s t : Text) :
    lines (s ++ '\n' :: t) = (pieces (· == '\n') s).map (chomp '\r') ++ lines t := by
  rw [lines, pieces_append_cons (by rfl), linesOfPieces_append (pieces_ne_nil t), lines]

/-- Whole lines in front of a text are lines of their own. -/
theorem lines_append {s : Text} (hends : EndsWith '\n' s) (t : Text) :
    lines (s ++ t) = lines s ++ lines t := by
  rcases hends.eq_nil_or with rfl | ⟨s, rfl⟩
  · rfl
  · rw [List.append_assoc, List.singleton_append, lines_append_cons, lines_append_cons]
    simp [lines, pieces, linesOfPieces]

end DebugClient.Text

namespace DebugClient.Utf8
open Text

/-- The byte of a line feed occurs in the encoding of no other character. -/
theorem newline_mem_utf8EncodeChar {c : Char} : 10 ∈ String.utf8EncodeChar c ↔ c = '\n' := by
  have hbyte (n : Nat) : (10 : UInt8) = UInt8.ofNat n ↔ n % 256 = 10 := by
    rw [← UInt8.toNat_inj, UInt8.toNat_ofNat']
    exact eq_comm
  have hchar : c = '\n' ↔ c.val.toNat = 10 := by
    rw [Char.ext_iff, ← UInt32.toNat_inj]
    rfl
  rw [hchar, String.utf8EncodeChar]
  generalize c.val.toNat = v
  split
  · rw [List.mem_singleton, hbyte]
    omega
  split
  · simp only [List.mem_cons, List.not_mem_nil, hbyte, or_false]
    omega
  split
  · simp only [List.mem_cons, List.not_mem_nil, hbyte, or_false]
    omega
  · simp only [List.mem_cons, List.not_mem_nil, hbyte, or_false]
    omega

theorem newline_mem_encode {t : Text} : 10 ∈ encode t ↔ '\n' ∈ t := by
  rw [encode, List.mem_flatMap]
  constructor
  · rintro ⟨c, hc, hmem⟩
    rw [← newline_mem_utf8EncodeChar.1 hmem]
    exact hc
  · intro hmem
    exact ⟨'\n', hmem, newline_mem_utf8EncodeChar.2 rfl⟩

theorem endsWith_encode_iff {t : Text} : EndsWith 10 (encode t) ↔ EndsWith '\n' t := by
  constructor
  · intro hends
    rcases List.eq_nil_or_concat' t with rfl | ⟨s, c, rfl⟩
    · exact nofun
    · obtain ⟨b, hb⟩ := Option.ne_none_iff_exists'.1
        (mt List.getLast?_eq_none_iff.1 (String.utf8EncodeChar_ne_nil (c := c)))
      have hlast : (encode (s ++ [c])).getLast? = some b := by
        rw [encode_append, encode, encode, List.flatMap_singleton, List.getLast?_append, hb]
        rfl
      have hmem := List.mem_of_getLast? hb
      rw [hends b hlast] at hmem
      rw [newline_mem_utf8EncodeChar.1 hmem]
      exact endsWith_append_singleton _ s
  · intro hends
    rcases hends.eq_nil_or with rfl | ⟨s, rfl⟩
    · exact nofun
    · rw [encode_append]
      exact endsWith_append_singleton 10 (encode s)

end DebugClient.Utf8
