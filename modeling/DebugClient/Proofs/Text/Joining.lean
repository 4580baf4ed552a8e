import Mathlib.Data.List.Basic
import DebugClient.Proofs.Text.Cutting
import DebugClient.Proofs.Text.Lines

/-!
Lines set side by side. Where a text is broken at its white space, joining its lines gives the text back
but for that white space.
-/

namespace DebugClient.Text

/-- White space, with line breaks or without. -/
def IsGap (t : Text) : Prop := ∀ c ∈ t, isBlank c

instance (t : Text) : Decidable (IsGap t) := decidable_of_iff (t.all isBlank) List.all_eq_true

/-- Begins with something other than white space. -/
def BeginsFirm (t : Text) : Prop := ∃ c s, t = c :: s ∧ isBlank c = false

/-- Ends with something other than white space. -/
def EndsFirm (t : Text) : Prop := ∃ s c, t = s ++ [c] ∧ isBlank c = false

structure IsFirm (t : Text) : Prop where
  begins : BeginsFirm t
  ends : EndsFirm t

/-- The lines without white space at their ends, with a blank between them. -/
def joinLines : List Text → Text
  | [] => []
  | line :: others => trim line ++ others.flatMap fun line => ' ' :: trim line

/-- The text on one line. -/
def joined (t : Text) : Text := joinLines (pieces (· == '\n') t)

variable {s t gap : Text}

/-! ### Trimming -/

theorem trimStart_append (hfirm : ∃ c ∈ s, isBlank c = false) (t : Text) :
    trimStart (s ++ t) = trimStart s ++ t := by
  induction s with
  | nil =>
    obtain ⟨c, hc, -⟩ := hfirm
    cases hc
  | cons c s ih =>
    by_cases hc : isBlank c
    · have hrest : ∃ c ∈ s, isBlank c = false := by
        obtain ⟨d, hd, hfirm⟩ := hfirm
        rcases List.mem_cons.1 hd with rfl | hd
        · rw [hc] at hfirm
          cases hfirm
        · exact ⟨d, hd, hfirm⟩
      have hdrop (t : Text) : trimStart (c :: t) = trimStart t := List.dropWhile_cons_of_pos hc
      rw [List.cons_append, hdrop, hdrop]
      exact ih hrest
    · have hkeep (t : Text) : trimStart (c :: t) = c :: t := List.dropWhile_cons_of_neg hc
      rw [List.cons_append, hkeep, hkeep, List.cons_append]

theorem trimEnd_append (hfirm : ∃ c ∈ t, isBlank c = false) (s : Text) :
    trimEnd (s ++ t) = s ++ trimEnd t := by
  have hreverse : ∃ c ∈ t.reverse, isBlank c = false := by simpa using hfirm
  have hstart : (t.reverse ++ s.reverse).dropWhile isBlank = t.reverse.dropWhile isBlank ++ s.reverse :=
    trimStart_append hreverse s.reverse
  rw [trimEnd, List.reverse_append, hstart, List.reverse_append, List.reverse_reverse, trimEnd]

theorem trimStart_gap_append (hgap : IsGap gap) (t : Text) : trimStart (gap ++ t) = trimStart t :=
  List.dropWhile_append_of_pos hgap

theorem BeginsFirm.exists_mem (hfirm : BeginsFirm t) : ∃ c ∈ t, isBlank c = false := by
  obtain ⟨c, s, rfl, hc⟩ := hfirm
  exact ⟨c, List.mem_cons_self, hc⟩

theorem EndsFirm.exists_mem (hfirm : EndsFirm t) : ∃ c ∈ t, isBlank c = false := by
  obtain ⟨s, c, rfl, hc⟩ := hfirm
  exact ⟨c, List.mem_append_right s List.mem_cons_self, hc⟩

theorem BeginsFirm.append (hfirm : BeginsFirm s) (t : Text) : BeginsFirm (s ++ t) := by
  obtain ⟨c, s, rfl, hc⟩ := hfirm
  exact ⟨c, s ++ t, rfl, hc⟩

theorem EndsFirm.append (hfirm : EndsFirm t) (s : Text) : EndsFirm (s ++ t) := by
  obtain ⟨t, c, rfl, hc⟩ := hfirm
  exact ⟨s ++ t, c, (List.append_assoc ..).symm, hc⟩

theorem BeginsFirm.trimStart_eq (hfirm : BeginsFirm t) : trimStart t = t := by
  obtain ⟨c, s, rfl, hc⟩ := hfirm
  exact List.dropWhile_cons_of_neg (by rw [hc]; exact Bool.false_ne_true)

theorem EndsFirm.trimEnd_eq (hfirm : EndsFirm t) : trimEnd t = t := by
  obtain ⟨s, c, rfl, hc⟩ := hfirm
  rw [trimEnd_append ⟨c, List.mem_cons_self, hc⟩, trimEnd, List.reverse_singleton,
    List.dropWhile_cons_of_neg (by rw [hc]; exact Bool.false_ne_true), List.reverse_singleton]

theorem EndsFirm.trimStart (hfirm : EndsFirm t) : EndsFirm (trimStart t) := by
  obtain ⟨s, c, rfl, hc⟩ := hfirm
  by_cases hgap : IsGap s
  · rw [trimStart_gap_append hgap, BeginsFirm.trimStart_eq ⟨c, [], rfl, hc⟩]
    exact ⟨[], c, rfl, hc⟩
  · have hfirm : ∃ d ∈ s, isBlank d = false := by simpa [IsGap] using hgap
    rw [trimStart_append hfirm]
    exact ⟨_, c, rfl, hc⟩

/-- What stands between two firm ends is not trimmed. -/
theorem trim_append (hs : EndsFirm s) (ht : BeginsFirm t) (between : Text) :
    trim (s ++ between ++ t) = trim s ++ between ++ trim t := by
  have hstart : trim s = trimStart s := hs.trimStart.trimEnd_eq
  have hend : trim t = trimEnd t := by rw [trim, ht.trimStart_eq]
  rw [trim, List.append_assoc, trimStart_append hs.exists_mem, ← List.append_assoc,
    trimEnd_append ht.exists_mem, hstart, hend]

theorem trim_append_gap (hgap : IsGap gap) (t : Text) : trim (t ++ gap) = trim t := by
  by_cases hblank : IsGap t
  · rw [trim_eq_nil_of_blank hblank, trim_eq_nil_of_blank (List.forall_mem_append.2 ⟨hblank, hgap⟩)]
  · have hfirm : ∃ c ∈ t, isBlank c = false := by simpa [IsGap] using hblank
    rw [trim, trimStart_append hfirm, trimEnd_append_of_blank hgap, trim]

/-- White space around a text that is firm at both ends is what is trimmed. -/
theorem IsFirm.trim_gap_append (hfirm : IsFirm t) {gap' : Text} (hgap : IsGap gap)
    (hgap' : IsGap gap') : trim (gap ++ t ++ gap') = t := by
  rw [trim, List.append_assoc, trimStart_gap_append hgap, (hfirm.begins.append gap').trimStart_eq,
    trimEnd_append_of_blank hgap', hfirm.ends.trimEnd_eq]

theorem IsFirm.trim_eq (hfirm : IsFirm t) : trim t = t := by
  rw [trim, hfirm.begins.trimStart_eq, hfirm.ends.trimEnd_eq]

theorem isFirm_of_trim_eq (hne : t ≠ []) (htrim : trim t = t) : IsFirm t := by
  have hstart : trimStart t = t := by
    have hsublist : (trimStart t).Sublist t := List.dropWhile_sublist _
    have hlength := ((trimStart t).reverse.dropWhile_sublist isBlank).length_le
    refine hsublist.eq_of_length_le ?_
    rw [← congrArg List.length htrim, trim, trimEnd, List.length_reverse]
    rwa [List.length_reverse] at hlength
  constructor
  · obtain ⟨c, s, rfl⟩ := List.exists_cons_of_ne_nil hne
    refine ⟨c, s, rfl, ?_⟩
    have hhead := List.head?_dropWhile_not isBlank (c :: s)
    rw [show (c :: s).dropWhile isBlank = c :: s from hstart] at hhead
    simpa using hhead
  · rw [trim, hstart] at htrim
    obtain ⟨s, c, rfl⟩ := (List.eq_nil_or_concat' t).resolve_left hne
    exact ⟨s, c, rfl, getLast?_not_blank_of_trimEnd_eq htrim c (List.getLast?_concat ..)⟩

/-! ### Joining -/

theorem joined_of_notMem (hline : '\n' ∉ t) : joined t = trim t := by
  rw [joined, pieces_of_notMem hline]
  exact List.append_nil _

theorem newline_notMem_trim (hline : '\n' ∉ t) : '\n' ∉ trim t := by
  intro hmem
  have hstart := List.mem_reverse.1 ((List.dropWhile_sublist _).mem (List.mem_reverse.1 hmem))
  exact hline ((List.dropWhile_sublist _).mem hstart)

theorem joined_append_cons (s t : Text) : joined (s ++ '\n' :: t) = joined s ++ ' ' :: joined t := by
  have hlines (t : Text) : pieces (· == '\n') t ≠ [] := pieces_ne_nil t
  obtain ⟨line, others, hs⟩ := List.exists_cons_of_ne_nil (hlines s)
  obtain ⟨line', others', ht⟩ := List.exists_cons_of_ne_nil (hlines t)
  rw [joined, pieces_append_cons (by rfl), joined, joined, hs, ht]
  simp [joinLines]

/-- Every text is a line or a line in front of others. -/
theorem line_cases (t : Text) : '\n' ∉ t ∨ ∃ line rest, t = line ++ '\n' :: rest ∧ '\n' ∉ line := by
  by_cases hmem : '\n' ∈ t
  · obtain ⟨line, rest, heq, hline⟩ := List.eq_append_cons_of_mem hmem
    exact .inr ⟨line, rest, heq, hline⟩
  · exact .inl hmem

theorem lastLine_cases (t : Text) :
    '\n' ∉ t ∨ ∃ front line, t = front ++ '\n' :: line ∧ '\n' ∉ line := by
  obtain ⟨front, line, rfl, hends, hline⟩ := exists_endsWith '\n' t
  rcases hends.eq_nil_or with rfl | ⟨front, rfl⟩
  · exact .inl hline
  · exact .inr ⟨front, line, by simp, hline⟩

theorem newline_notMem_joined (t : Text) : '\n' ∉ joined t := by
  induction hlength : t.length using Nat.strongRecOn generalizing t with
  | _ n ih =>
    rcases line_cases t with hline | ⟨line, rest, rfl, hline⟩
    · rw [joined_of_notMem hline]
      exact newline_notMem_trim hline
    · have hrest := ih rest.length (by simp [← hlength]; omega) rest rfl
      rw [joined_append_cons, joined_of_notMem hline]
      simp [newline_notMem_trim hline, hrest]

theorem BeginsFirm.of_append_cons {line rest : Text} (hfirm : BeginsFirm (line ++ '\n' :: rest)) :
    BeginsFirm line := by
  obtain ⟨c, s, heq, hc⟩ := hfirm
  cases line with
  | nil =>
    rw [List.nil_append] at heq
    rw [← (List.cons.inj heq).1] at hc
    cases hc
  | cons d line =>
    rw [List.cons_append] at heq
    exact ⟨d, line, rfl, (List.cons.inj heq).1 ▸ hc⟩

theorem EndsFirm.of_append_cons {front line : Text} (hfirm : EndsFirm (front ++ '\n' :: line)) :
    EndsFirm line := by
  obtain ⟨s, c, heq, hc⟩ := hfirm
  have hlast := congrArg List.getLast? heq
  rw [List.getLast?_concat] at hlast
  rcases List.eq_nil_or_concat' line with rfl | ⟨line, d, rfl⟩
  · rw [List.getLast?_concat] at hlast
    rw [← Option.some.inj hlast] at hc
    cases hc
  · rw [← List.cons_append, ← List.append_assoc, List.getLast?_concat] at hlast
    exact ⟨line, d, rfl, Option.some.inj hlast ▸ hc⟩

/-- Joining keeps what stands on one line. -/
theorem joined_append (hs : EndsFirm s) (ht : BeginsFirm t) (hgap : '\n' ∉ gap) :
    joined (s ++ gap ++ t) = joined s ++ gap ++ joined t := by
  -- Only the last line of the one text and the first line of the other are involved.
  have hlast (line : Text) (hfirm : EndsFirm line) (hline : '\n' ∉ line) :
      joined (line ++ gap ++ t) = joined line ++ gap ++ joined t := by
    rcases line_cases t with hnone | ⟨first, rest, rfl, hfirst⟩
    · rw [joined_of_notMem (by simp [hline, hgap, hnone]), trim_append hfirm ht,
        joined_of_notMem hline, joined_of_notMem hnone]
    · rw [← List.append_assoc, joined_append_cons, joined_append_cons,
        joined_of_notMem (by simp [hline, hgap, hfirst]), trim_append hfirm ht.of_append_cons,
        joined_of_notMem hline, joined_of_notMem hfirst]
      simp
  rcases lastLine_cases s with hnone | ⟨front, line, rfl, hline⟩
  · exact hlast s hs hnone
  · rw [List.append_assoc, List.append_assoc, List.cons_append, joined_append_cons,
      ← List.append_assoc, hlast line hs.of_append_cons hline, joined_append_cons]
    simp

theorem joined_singleton {c : Char} (hc : isBlank c = false) : joined [c] = [c] := by
  have hfirm : IsFirm [c] := ⟨⟨c, [], rfl, hc⟩, ⟨[], c, rfl, hc⟩⟩
  have hline : '\n' ∉ [c] := by
    rw [List.mem_singleton]
    rintro rfl
    cases hc
  rw [joined_of_notMem hline, hfirm.trim_eq]

theorem joined_concat {c : Char} (hs : EndsFirm s) (hc : isBlank c = false) :
    joined (s ++ [c]) = joined s ++ [c] := by
  have happend : joined (s ++ [] ++ [c]) = joined s ++ [] ++ joined [c] :=
    joined_append hs ⟨c, [], rfl, hc⟩ List.not_mem_nil
  rwa [List.append_nil, List.append_nil, joined_singleton hc] at happend

theorem joined_cons_of_blank {c : Char} (hc : isBlank c) (hnewline : c ≠ '\n') (t : Text) :
    joined (c :: t) = joined t := by
  have hlines : pieces (· == '\n') t ≠ [] := pieces_ne_nil t
  obtain ⟨line, others, ht⟩ := List.exists_cons_of_ne_nil hlines
  have hpieces : pieces (· == '\n') (c :: t) = (c :: line) :: others := by
    rw [pieces, if_neg (by simpa using hnewline), ht]
  have htrim : trim (c :: line) = trim line := by
    rw [trim, trimStart, List.dropWhile_cons_of_pos hc, trim, trimStart]
  rw [joined, joined, hpieces, ht, joinLines, joinLines, htrim]

/-- White space in front of a text becomes blanks, one for each line break. -/
theorem exists_joined_gap_append (hgap : IsGap gap) (t : Text) :
    ∃ gap', IsGap gap' ∧ '\n' ∉ gap' ∧ joined (gap ++ t) = gap' ++ joined t := by
  induction gap with
  | nil => exact ⟨[], hgap, List.not_mem_nil, rfl⟩
  | cons c gap ih =>
    obtain ⟨hc, hrest⟩ := List.forall_mem_cons.1 hgap
    obtain ⟨gap', hgap', hline, heq⟩ := ih hrest
    by_cases hnewline : c = '\n'
    · subst hnewline
      refine ⟨' ' :: gap', List.forall_mem_cons.2 ⟨rfl, hgap'⟩, by simp [hline], ?_⟩
      have hjoined : joined ('\n' :: (gap ++ t)) = ' ' :: joined (gap ++ t) :=
        joined_append_cons [] (gap ++ t)
      rw [List.cons_append, hjoined, heq]
      rfl
    · exact ⟨gap', hgap', hline, (joined_cons_of_blank hc hnewline _).trans heq⟩

theorem joined_append_gap (hgap : IsGap gap) (hline : '\n' ∉ gap) (s : Text) :
    joined (s ++ gap) = joined s := by
  have htrim (line : Text) (hnone : '\n' ∉ line) : joined (line ++ gap) = joined line := by
    rw [joined_of_notMem (by simp [hnone, hline]), joined_of_notMem hnone, trim_append_gap hgap]
  rcases lastLine_cases s with hnone | ⟨front, line, rfl, hnone⟩
  · exact htrim s hnone
  · rw [List.append_assoc, List.cons_append, joined_append_cons, htrim line hnone, joined_append_cons]

/-- White space between two texts stays white space, and they are joined each on its own. -/
theorem exists_joined_append (hs : EndsFirm s) (ht : BeginsFirm t) (hgap : IsGap gap) :
    ∃ gap', IsGap gap' ∧ '\n' ∉ gap' ∧ joined (s ++ gap ++ t) = joined s ++ gap' ++ joined t := by
  rcases line_cases gap with hline | ⟨front, back, rfl, hfront⟩
  · exact ⟨gap, hgap, hline, joined_append hs ht hline⟩
  · obtain ⟨hgapFront, hgapBack⟩ := List.forall_mem_append.1 hgap
    obtain ⟨gap', hgap', hline, heq⟩ := exists_joined_gap_append (List.forall_mem_cons.1 hgapBack).2 t
    refine ⟨' ' :: gap', List.forall_mem_cons.2 ⟨rfl, hgap'⟩, by simp [hline], ?_⟩
    rw [List.append_assoc, List.append_assoc, List.cons_append, ← List.append_assoc,
      joined_append_cons, joined_append_gap hgapFront hfront, heq]
    simp

/-- A character of a joined list belongs to an item or to what stands between two. -/
theorem notMem_intercalate {c : Char} {separator : Text} {items : List Text} (hseparator : c ∉ separator)
    (hitems : ∀ item ∈ items, c ∉ item) : c ∉ separator.intercalate items := by
  induction items with
  | nil => exact List.not_mem_nil
  | cons item items ih =>
    obtain ⟨hitem, hothers⟩ := List.forall_mem_cons.1 hitems
    cases items with
    | nil => rwa [List.intercalate_singleton]
    | cons next items =>
      rw [List.intercalate_cons_cons, List.mem_append, List.mem_append, not_or, not_or]
      exact ⟨⟨hitem, hseparator⟩, ih hothers⟩

/-! ### Line by line -/

/-- What is trimmed at the end is white space. -/
theorem exists_eq_trimEnd (t : Text) : ∃ gap, IsGap gap ∧ t = trimEnd t ++ gap := by
  refine ⟨(t.reverse.takeWhile isBlank).reverse, ?_, ?_⟩
  · intro c hc
    exact List.mem_takeWhile_imp (List.mem_reverse.1 hc)
  · have hback := congrArg List.reverse
      (List.takeWhile_append_dropWhile (p := isBlank) (l := t.reverse))
    rw [List.reverse_append, List.reverse_reverse] at hback
    exact hback.symm

theorem trimEnd_trimEnd (t : Text) : trimEnd (trimEnd t) = trimEnd t := by
  obtain ⟨gap, hgap, heq⟩ := exists_eq_trimEnd t
  conv_rhs => rw [heq, trimEnd_append_of_blank hgap]

/-- What is trimmed is white space around the rest. -/
theorem exists_eq_trim (t : Text) :
    ∃ front back, IsGap front ∧ IsGap back ∧ t = front ++ trim t ++ back := by
  obtain ⟨back, hback, heq⟩ := exists_eq_trimEnd (trimStart t)
  refine ⟨t.takeWhile isBlank, back, fun c hc => List.mem_takeWhile_imp hc, hback, ?_⟩
  rw [List.append_assoc, trim, ← heq]
  exact List.takeWhile_append_dropWhile.symm

theorem trim_trim (t : Text) : trim (trim t) = trim t := by
  obtain ⟨front, back, hfront, hback, heq⟩ := exists_eq_trim t
  conv_rhs => rw [heq, trim_append_gap hback, trim, trimStart_gap_append hfront, ← trim]

/-- A carriage return that belongs to the line break is white space at the end of the line. -/
theorem exists_eq_chomp (t : Text) : ∃ gap, IsGap gap ∧ t = chomp '\r' t ++ gap := by
  rw [chomp]
  split
  · rename_i hlast
    refine ⟨['\r'], List.forall_mem_singleton.2 rfl, ?_⟩
    obtain ⟨s, rfl⟩ := List.getLast?_eq_some_iff.1 hlast
    rw [List.dropLast_concat]
  · exact ⟨[], List.forall_mem_nil _, (List.append_nil t).symm⟩

theorem trim_chomp (t : Text) : trim (chomp '\r' t) = trim t := by
  obtain ⟨gap, hgap, heq⟩ := exists_eq_chomp t
  conv_rhs => rw [heq, trim_append_gap hgap]

theorem trimEnd_chomp (t : Text) : trimEnd (chomp '\r' t) = trimEnd t := by
  obtain ⟨gap, hgap, heq⟩ := exists_eq_chomp t
  conv_rhs => rw [heq, trimEnd_append_of_blank hgap]

theorem EndsFirm.chomp_eq (hfirm : EndsFirm t) : chomp '\r' t = t := by
  obtain ⟨s, c, rfl, hc⟩ := hfirm
  rw [chomp, List.getLast?_concat, if_neg]
  rintro heq
  rw [Option.some.inj heq] at hc
  cases hc

/-- A text that does not end within a line break has the same lines with one behind it. -/
theorem EndsFirm.lines_eq (hfirm : EndsFirm t) :
    lines t = (pieces (· == '\n') t).map (chomp '\r') := by
  have hsingle (line : Text) (hfirm : EndsFirm line) (hline : '\n' ∉ line) :
      lines line = (pieces (· == '\n') line).map (chomp '\r') := by
    rw [lines, pieces_of_notMem hline, List.map_singleton, hfirm.chomp_eq, linesOfPieces, if_neg]
    obtain ⟨s, c, rfl, -⟩ := hfirm
    simp
  rcases lastLine_cases t with hline | ⟨front, line, rfl, hline⟩
  · exact hsingle t hfirm hline
  · rw [lines_append_cons, hsingle line hfirm.of_append_cons hline, pieces_append_cons (by rfl),
      List.map_append]

end DebugClient.Text
