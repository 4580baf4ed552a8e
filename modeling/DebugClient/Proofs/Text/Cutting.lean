import Mathlib.Data.List.Infix
import Mathlib.Data.List.TakeWhile
import DebugClient.Text.Basic

/-!
Cutting text. Offsets count bytes and lists count characters; a cut made where a character ends is
the same cut in both measures.
-/

namespace DebugClient.Text

theorem byteLength_pos_of_ne_nil {t : Text} (hne : t ≠ []) : 0 < byteLength t := by
  cases t with
  | nil => exact absurd rfl hne
  | cons c t =>
    have hsize : 0 < c.utf8Size := c.utf8Size_pos
    simp only [byteLength]
    omega

theorem splitAtByte?_append (s t : Text) : splitAtByte? (byteLength s) (s ++ t) = some (s, t) := by
  induction s with
  | nil => simp [byteLength, splitAtByte?]
  | cons c s ih =>
    have hsize : 0 < c.utf8Size := c.utf8Size_pos
    obtain ⟨n, hn⟩ : ∃ n, byteLength (c :: s) = n + 1 :=
      ⟨byteLength (c :: s) - 1, by simp only [byteLength]; omega⟩
    have hrest : n + 1 - c.utf8Size = byteLength s := by
      simp only [byteLength] at hn
      omega
    have hfits : c.utf8Size ≤ n + 1 := by
      simp only [byteLength] at hn
      omega
    rw [hn, List.cons_append, splitAtByte?, if_pos hfits, hrest, ih]
    rfl

/-- A cut that succeeds loses nothing and lies at the byte asked for. -/
theorem eq_append_of_splitAtByte? {n : Nat} {t front back : Text}
    (hsplit : splitAtByte? n t = some (front, back)) : t = front ++ back ∧ byteLength front = n := by
  fun_induction splitAtByte? n t generalizing front back with
  | case1 t =>
    cases hsplit
    exact ⟨rfl, rfl⟩
  | case2 n => cases hsplit
  | case3 n c t hfits ih =>
    obtain ⟨⟨before, after⟩, hrest, heq⟩ := Option.map_eq_some_iff.1 hsplit
    cases heq
    obtain ⟨happend, hlength⟩ := ih hrest
    refine ⟨by rw [happend, List.cons_append], ?_⟩
    simp only [byteLength, hlength]
    omega
  | case4 n c t hfits => cases hsplit

theorem takeBytes_append (s t : Text) : takeBytes (byteLength s) (s ++ t) = s := by
  induction s with
  | nil =>
    cases t with
    | nil => rfl
    | cons c t =>
      have hsize : ¬ c.utf8Size ≤ 0 := by
        have := c.utf8Size_pos
        omega
      simp [byteLength, takeBytes, hsize]
  | cons c s ih =>
    simp only [List.cons_append, byteLength, takeBytes]
    rw [if_pos (Nat.le_add_right _ _), Nat.add_sub_cancel_left, ih]

theorem before?_eq_none_iff {tail t : Text} : before? tail t = none ↔ ¬ tail <:+ t := by
  rw [Option.eq_none_iff_forall_ne_some]
  constructor
  · rintro hnone ⟨rest, rfl⟩
    exact hnone rest (before?_eq_some_iff.2 rfl)
  · intro hends rest hsome
    exact hends ⟨rest, (before?_eq_some_iff.1 hsome).symm⟩

/-- Of two beginnings of one text, the one with fewer bytes is a beginning of the other. -/
theorem prefix_of_byteLength_le {s u t : Text} (hs : s <+: t) (hu : u <+: t)
    (hle : byteLength s ≤ byteLength u) : s <+: u := by
  rcases List.prefix_or_prefix_of_prefix hs hu with hsu | ⟨rest, rfl⟩
  · exact hsu
  · have hrest : rest = [] := by
      by_contra hne
      have := byteLength_pos_of_ne_nil hne
      simp only [byteLength_append] at hle
      omega
    rw [hrest]
    simp

theorem trimEnd_append_of_blank {stem gap : Text} (hgap : ∀ c ∈ gap, isBlank c) :
    trimEnd (stem ++ gap) = trimEnd stem := by
  have hreverse : ∀ c ∈ gap.reverse, isBlank c := fun c hc => hgap c (List.mem_reverse.1 hc)
  rw [trimEnd, trimEnd, List.reverse_append, List.dropWhile_append_of_pos hreverse]

/-- A text that ends in anything but white space is all kept. -/
theorem getLast?_not_blank_of_trimEnd_eq {t : Text} (htrim : trimEnd t = t) :
    ∀ c ∈ t.getLast?, isBlank c = false := by
  intro c hc
  have hdrop : t.reverse.dropWhile isBlank = t.reverse := by
    have h := congrArg List.reverse htrim
    simpa [trimEnd] using h
  rw [← List.head?_reverse, ← hdrop] at hc
  have hhead := List.head?_dropWhile_not isBlank t.reverse
  rw [Option.mem_def.1 hc] at hhead
  simpa using hhead

theorem trim_eq_nil_of_blank {t : Text} (hblank : ∀ c ∈ t, isBlank c) : trim t = [] := by
  rw [trim, trimStart, List.dropWhile_eq_nil_iff.2 hblank]
  rfl

theorem trim_eq_nil_iff {t : Text} : trim t = [] ↔ ∀ c ∈ t, isBlank c := by
  constructor
  · intro htrim c hc
    have hback : ∀ d ∈ trimStart t, isBlank d := by
      simpa [trim, trimEnd, List.dropWhile_eq_nil_iff] using htrim
    -- What is left at the front begins with a firm character, if with any.
    have hhead := List.head?_dropWhile_not isBlank t
    rw [trimStart] at hback
    cases hfront : t.dropWhile isBlank with
    | nil => exact List.dropWhile_eq_nil_iff.1 hfront c hc
    | cons d rest =>
      rw [hfront] at hback hhead
      have hfirm : isBlank d = false := by simpa using hhead
      rw [hback d List.mem_cons_self] at hfirm
      cases hfirm
  · exact trim_eq_nil_of_blank

theorem exists_common_tail {s t u v : Text} (happend : s ++ t = u ++ v) :
    ∃ w, v = s.drop u.length ++ w ∧ t = u.drop s.length ++ w := by
  rcases List.append_eq_append_iff.1 happend with ⟨more, rfl, rfl⟩ | ⟨beyond, rfl, rfl⟩
  · exact ⟨v, by simp, by simp⟩
  · exact ⟨t, by simp, by simp⟩

/-- Output that is cut before the gap is over is cut short of the gap, or within it. -/
theorem exists_cut {first gap rest chunk later : Text}
    (happend : chunk ++ later = first ++ gap ++ rest) (hle : chunk.length ≤ (first ++ gap).length) :
    (∃ more, more ≠ [] ∧ first = chunk ++ more ∧ later = more ++ gap ++ rest) ∨
      ∃ arrived missing, gap = arrived ++ missing ∧ chunk = first ++ arrived ∧
        later = missing ++ rest := by
  rw [List.append_assoc] at happend
  rcases List.append_eq_append_iff.1 happend with ⟨more, hfirst, hlater⟩ | ⟨arrived, hchunk, hgap⟩
  · by_cases hmore : more = []
    · rw [hmore, List.append_nil] at hfirst
      exact .inr ⟨[], gap, rfl, by simp [hfirst], by simp [hlater, hmore]⟩
    · exact .inl ⟨more, hmore, hfirst, by rw [hlater, List.append_assoc]⟩
  · rw [hchunk, List.length_append, List.length_append] at hle
    rcases List.append_eq_append_iff.1 hgap with ⟨more, harrived, hrest⟩ | ⟨missing, hgap', hlater⟩
    · have hmore : more = [] := by
        rw [harrived, List.length_append] at hle
        exact List.eq_nil_of_length_eq_zero (by omega)
      subst hmore
      exact .inr ⟨gap, [], by simp, by simp [hchunk, harrived], by simp [hrest]⟩
    · exact .inr ⟨arrived, missing, hgap', hchunk, hlater⟩

end DebugClient.Text
