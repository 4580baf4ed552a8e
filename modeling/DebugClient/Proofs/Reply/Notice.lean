import DebugClient.Reply.Stop
import DebugClient.Proofs.Text.Cutting
import DebugClient.Proofs.Text.Runs

/-!
Notices of the target's end. A reply announces the end exactly if one of a few notices occurs in it, in
any letter case. So a text announces what a part of it announces, and white space announces nothing.
-/

namespace DebugClient

theorem Text.occursIn_iff {part t : Text} : Text.occursIn part t = true ↔ part <:+: t := by
  induction t with
  | nil => simp [occursIn]
  | cons c t ih =>
    have hfront : (after? part (c :: t)).isSome = true ↔ part <+: c :: t := by
      simp only [Option.isSome_iff_exists, after?_eq_some_iff]
      exact exists_congr fun rest => eq_comm
    rw [occursIn, Bool.or_eq_true, hfront, ih, List.infix_cons_iff]

namespace Stop
open Text CharClass

/-- What tells of the target's end, in lower case. -/
inductive IsExitNotice : Text → Prop
  | phrase {phrase : Text} (hphrase : phrase ∈ exitPhrases) : IsExitNotice phrase
  | process {number : Text} (hnumber : IsRun isDigit number) :
    IsExitNotice ("process ".toList ++ number ++ ") exited".toList)

variable {t part whole reply notice number : Text}

/-- The number is over where the bracket stands. -/
theorem beginsProcessExit_iff : beginsProcessExit t = true ↔
    ∃ number, IsRun isDigit number ∧ "process ".toList ++ number ++ ") exited".toList <+: t := by
  constructor
  · intro hbegins
    obtain ⟨rest, hrest⟩ := Option.isSome_iff_exists.1 hbegins
    obtain ⟨behind, hprocess, hbehind⟩ := Option.bind_eq_some_iff.1 hrest
    obtain ⟨closing, hskip, hexited⟩ := Option.bind_eq_some_iff.1 hbehind
    obtain ⟨number, hnumber, rfl, -⟩ := exists_of_skip? hskip
    rw [after?_eq_some_iff] at hprocess hexited
    refine ⟨number, hnumber, rest, ?_⟩
    rw [hprocess, hexited, List.append_assoc, List.append_assoc]
  · rintro ⟨number, hnumber, rest, rfl⟩
    have hbracket : ∀ c ∈ (") exited".toList ++ rest).head?, isDigit c = false := by
      rintro c ⟨⟩
      decide
    have hprocess : after? "process ".toList
        ("process ".toList ++ number ++ ") exited".toList ++ rest) =
          some (number ++ (") exited".toList ++ rest)) := by
      rw [after?_eq_some_iff]
      simp only [List.append_assoc]
    have hskip : skip? isDigit (number ++ (") exited".toList ++ rest)) =
        some (") exited".toList ++ rest) := by
      rw [hnumber.skip?_append, (whiles_of_head? hbracket).2]
    have hexited : after? ") exited".toList (") exited".toList ++ rest) = some rest :=
      after?_eq_some_iff.2 rfl
    rw [beginsProcessExit, hprocess, Option.bind_some, hskip, Option.bind_some, hexited]
    rfl

theorem processExitIn_iff : processExitIn t = true ↔
    ∃ number, IsRun isDigit number ∧ "process ".toList ++ number ++ ") exited".toList <:+: t := by
  induction t with
  | nil => simp [processExitIn]
  | cons c t ih =>
    rw [processExitIn, Bool.or_eq_true, beginsProcessExit_iff, ih]
    simp only [List.infix_cons_iff, and_or_left, exists_or]

theorem announcesExit_iff : announcesExit reply = true ↔
    ∃ notice, IsExitNotice notice ∧ notice <:+: reply.map foldCase := by
  rw [announcesExit, Bool.or_eq_true, processExitIn_iff, List.any_eq_true]
  constructor
  · rintro (⟨number, hnumber, hin⟩ | ⟨phrase, hphrase, hoccurs⟩)
    · exact ⟨_, .process hnumber, hin⟩
    · exact ⟨phrase, .phrase hphrase, occursIn_iff.1 hoccurs⟩
  · rintro ⟨notice, hnotice, hin⟩
    cases hnotice with
    | phrase hphrase => exact .inr ⟨notice, hphrase, occursIn_iff.2 hin⟩
    | process hnumber => exact .inl ⟨_, hnumber, hin⟩

/-- What a part announces the whole announces. -/
theorem announcesExit_of_infix (hpart : part <:+: whole) (hannounces : announcesExit part = true) :
    announcesExit whole = true := by
  obtain ⟨notice, hnotice, hin⟩ := announcesExit_iff.1 hannounces
  exact announcesExit_iff.2 ⟨notice, hnotice, hin.trans (hpart.map foldCase)⟩

/-! ### White space -/

theorem IsExitNotice.letter_and_space_mem (hnotice : IsExitNotice notice) :
    'e' ∈ notice ∧ ' ' ∈ notice := by
  cases hnotice with
  | phrase hphrase => revert notice; decide
  | process hnumber => simp

theorem isBlank_eq_false_of_between {c : Char} (hle : 65 ≤ c.toNat) (hge : c.toNat ≤ 122) :
    isBlank c = false := by
  rw [← Bool.not_eq_true, isBlank]
  simp only [Bool.or_eq_true, Bool.and_eq_true, decide_eq_true_eq, beq_iff_eq]
  omega

/-- Only letters have a case. -/
theorem isBlank_foldCase (c : Char) : isBlank (foldCase c) = isBlank c := by
  by_cases hlong : c = 'ſ'
  · subst hlong
    decide
  · rw [foldCase, if_neg hlong]
    by_cases hcapital : c.val ≥ 'A'.val ∧ c.val ≤ 'Z'.val
    · have hlow : 65 ≤ c.toNat := hcapital.1
      have hhigh : c.toNat ≤ 90 := hcapital.2
      have hlower : c.toLower.toNat = (c.val + ('a'.val - 'A'.val)).toNat :=
        congrArg Char.toNat (dif_pos hcapital)
      have hsmall : c.toLower.toNat = c.toNat + 32 := by
        have hvalue : c.val.toNat = c.toNat := rfl
        have hshift : ('a'.val - 'A'.val).toNat = 32 := rfl
        rw [hlower, UInt32.toNat_add]
        omega
      rw [isBlank_eq_false_of_between hlow (by omega), isBlank_eq_false_of_between] <;> omega
    · have hsame : c.toLower = c := dif_neg hcapital
      rw [hsame]

/-- White space alone announces nothing, and nothing is announced without. -/
theorem blank_and_firm_of_announcesExit (hannounces : announcesExit reply = true) :
    (∃ c ∈ reply, isBlank c = true) ∧ ∃ c ∈ reply, isBlank c = false := by
  obtain ⟨notice, hnotice, hin⟩ := announcesExit_iff.1 hannounces
  obtain ⟨hletter, hspace⟩ := hnotice.letter_and_space_mem
  constructor
  · obtain ⟨c, hc, hfold⟩ := List.mem_map.1 (hin.subset hspace)
    refine ⟨c, hc, ?_⟩
    rw [← isBlank_foldCase, hfold]
    decide
  · obtain ⟨c, hc, hfold⟩ := List.mem_map.1 (hin.subset hletter)
    refine ⟨c, hc, ?_⟩
    rw [← isBlank_foldCase, hfold]
    decide

theorem announcesExit_of_blank (hblank : trim reply = []) : announcesExit reply = false := by
  by_contra hannounces
  rw [Bool.not_eq_false] at hannounces
  obtain ⟨-, c, hc, hfirm⟩ := blank_and_firm_of_announcesExit hannounces
  rw [trim_eq_nil_iff.1 hblank c hc] at hfirm
  cases hfirm

end Stop
end DebugClient
