import DebugClient.Proofs.Reply.Layout
import DebugClient.Proofs.Text.Numerals

/-!
Addresses as they are printed, behind a cast to a pointer type or without one: they are values without
parts, and read back as pointers.
-/

namespace DebugClient.Literal
open Text CharClass Numeral

/-- A cast to a pointer type in front of an address. -/
inductive IsCast : Text → Prop where
  | none : IsCast []
  | pointer {pointee : Text} (hpointee : ∀ c ∈ pointee, c ∉ IsClosed.marks) :
      IsCast (['('] ++ (pointee ++ ['*']) ++ [')'] ++ [' '])

theorem IsCast.dropPointerCast_eq {cast : Text} (hcast : IsCast cast) (address : Nat) :
    dropPointerCast (cast ++ Numeral.address address) = Numeral.address address := by
  cases hcast with
  | none => rfl
  | @pointer pointee hpointee =>
    have hinside : ')' ∉ pointee ++ ['*'] := by
      intro hc
      rcases List.mem_append.1 hc with hmem | hmem
      · exact hpointee _ hmem (by decide)
      · exact absurd hmem (by decide)
    have htext : ['('] ++ (pointee ++ ['*']) ++ [')'] ++ [' '] ++ Numeral.address address =
        '(' :: ((pointee ++ ['*']) ++ ')' :: ' ' :: Numeral.address address) := by simp
    obtain ⟨htake, hdrop⟩ := whiles_append_cons hinside (' ' :: Numeral.address address)
    rw [htext, dropPointerCast, hdrop, htake, List.getLast?_concat]
    rfl

theorem pointer?_address {cast : Text} (hcast : IsCast cast) {address : Nat}
    (haddress : address ≤ largest64) :
    pointer? (cast ++ Numeral.address address) = some address := by
  have hafter : after? "0x".toList (Numeral.address address) = some (Nat.toDigits 16 address) :=
    after?_eq_some_iff.2 rfl
  rw [pointer?, hcast.dropPointerCast_eq, hafter]
  simp only [bind, Option.bind, run?_hexDigits]
  exact read?_toDigits (by decide) (by decide) haddress

theorem IsCast.isClosed {cast : Text} (hcast : IsCast cast) : IsClosed cast := by
  cases hcast with
  | none => exact .nil
  | pointer hpointee =>
    have hpointee := IsClosed.of_forall fun c hc => IsClosed.singleton (hpointee c hc)
    have hstar : IsClosed ['*'] := by decide
    have hblank : IsClosed [' '] := by decide
    exact (hpointee.append hstar).parens.append hblank

theorem IsCast.newline_notMem {cast : Text} (hcast : IsCast cast) : '\n' ∉ cast := by
  cases hcast with
  | none => exact List.not_mem_nil
  | @pointer pointee hpointee =>
    have hpointee : '\n' ∉ pointee := fun hmem => hpointee _ hmem (by decide)
    simp [hpointee]

/-- A cast opens with its parenthesis, an address with a digit. -/
theorem IsCast.exists_cons {cast : Text} (hcast : IsCast cast) (address : Nat) :
    ∃ c s, cast ++ Numeral.address address = c :: s ∧ (c = '(' ∨ c = '0') := by
  cases hcast with
  | none => exact ⟨'0', _, rfl, .inr rfl⟩
  | pointer hpointee => exact ⟨'(', _, rfl, .inl rfl⟩

theorem isPlain_address {cast : Text} (hcast : IsCast cast) (address : Nat) :
    IsPlain (cast ++ Numeral.address address) := by
  have hline : '\n' ∉ Numeral.address address := fun hmem =>
    absurd (isWord_of_mem_address hmem) (by decide)
  obtain ⟨c, s, hhead, hc⟩ := hcast.exists_cons address
  obtain ⟨front, last, haddress, hblank, hmark⟩ := exists_address_concat address
  have hlast : c :: s = (cast ++ front) ++ [last] := by
    rw [← hhead, haddress, List.append_assoc]
  have hopen : isBlank c = false ∧ isNameStart c = false ∧ c ≠ '{' := by
    rcases hc with rfl | rfl <;> decide
  have hfirm : IsFirm (c :: s) := ⟨⟨c, s, rfl, hopen.1⟩, ⟨_, _, hlast, hblank⟩⟩
  have helement : IsElement (c :: s) :=
    isElement_of_ends hlast hopen.2.1 (fun heq => hmark (by simp [heq])) fun heq =>
      hmark (by simp [heq])
  have hbraced : braced? (c :: s) = none := by
    rw [braced?, after?, if_neg hopen.2.2.symm]
    rfl
  have hclosed : IsClosed (c :: s) :=
    hhead ▸ hcast.isClosed.append (.of_forall fun c hc => .of_isWord (isWord_of_mem_address hc))
  have hnewline : '\n' ∉ c :: s := by
    rw [← hhead, List.mem_append, not_or]
    exact ⟨hcast.newline_notMem, hline⟩
  rw [hhead]
  exact ⟨List.cons_ne_nil c s, hfirm.trim_eq, hnewline, hclosed, hbraced, helement.unnamed,
    helement.single, helement.whole⟩

/-- Every address of 64 bits is printed so, behind any cast. -/
theorem prints_address {cast : Text} (hcast : IsCast cast) {address : Nat}
    (haddress : address ≤ largest64) : Prints (.pointer address) (cast ++ Numeral.address address) :=
  .pointer (isPlain_address hcast address) (pointer?_address hcast haddress)

end DebugClient.Literal
