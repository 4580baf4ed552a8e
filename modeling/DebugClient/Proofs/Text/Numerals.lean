import DebugClient.Text.Numeral
import DebugClient.Proofs.Text.Runs

/-!
Numbers read back. The shortest writing of a number, in any base up to sixteen, is read as that number
within every limit that it keeps to.
-/

namespace DebugClient.Numeral
open Text CharClass

variable {base limit n : Nat} {c : Char}

theorem continue?_append (base high : Nat) (s t : Text) :
    continue? base high (s ++ t) = (continue? base high s).bind fun high => continue? base high t := by
  induction s generalizing high with
  | nil => rfl
  | cons c s ih =>
    rw [List.cons_append, continue?, continue?, Option.bind_assoc]
    exact congrArg _ (funext fun low => ih (high * base + low))

theorem digit?_digitChar : ∀ base ≤ 16, ∀ d < base, digit? base d.digitChar = some d := by decide

theorem exists_digitChar (hbase : 1 < base) (hc : c ∈ Nat.toDigits base n) :
    ∃ d < base, c = d.digitChar := by
  induction n using Nat.strongRecOn with
  | _ n ih =>
    rcases Nat.lt_or_ge n base with hlt | hge
    · rw [Nat.toDigits_of_lt_base hlt, List.mem_singleton] at hc
      exact ⟨n, hlt, hc⟩
    · rw [Nat.toDigits_of_base_le hbase hge, List.mem_append, List.mem_singleton] at hc
      rcases hc with hhigh | hlow
      · exact ih (n / base) (Nat.div_lt_self (by omega) hbase) hhigh
      · exact ⟨n % base, Nat.mod_lt n (by omega), hlow⟩

theorem continue?_toDigits (hbase : 1 < base) (hsmall : base ≤ 16) (n : Nat) :
    continue? base 0 (Nat.toDigits base n) = some n := by
  induction n using Nat.strongRecOn with
  | _ n ih =>
    rcases Nat.lt_or_ge n base with hlt | hge
    · rw [Nat.toDigits_of_lt_base hlt, continue?, digit?_digitChar base hsmall n hlt, Option.bind_some,
        continue?]
      simp
    · have hdigit := digit?_digitChar base hsmall (n % base) (Nat.mod_lt n (by omega))
      rw [Nat.toDigits_of_base_le hbase hge, continue?_append,
        ih (n / base) (Nat.div_lt_self (by omega) hbase), Option.bind_some, continue?, hdigit,
        Option.bind_some, continue?, Nat.div_add_mod']

theorem digitChar_ne_plus : ∀ d < 16, d.digitChar ≠ '+' := by decide

theorem read?_toDigits (hbase : 1 < base) (hsmall : base ≤ 16) (hn : n ≤ limit) :
    read? base limit (Nat.toDigits base n) = some n := by
  obtain ⟨c, digits, heq⟩ := List.exists_cons_of_ne_nil
    (show Nat.toDigits base n ≠ [] from Nat.toDigits_ne_nil)
  have hplus : c ≠ '+' := by
    obtain ⟨d, hd, rfl⟩ := exists_digitChar hbase (heq ▸ List.mem_cons_self : c ∈ Nat.toDigits base n)
    exact digitChar_ne_plus d (Nat.lt_of_lt_of_le hd hsmall)
  have hcontinue := continue?_toDigits hbase hsmall n
  rw [heq] at hcontinue ⊢
  rw [read?]
  · rw [if_neg (by exact Bool.false_ne_true), hcontinue]
    exact Option.filter_eq_some_iff.2 ⟨rfl, by simpa using hn⟩
  · intro digits' hcons
    exact hplus (List.cons.inj hcons).1

theorem decimal?_decimal (hn : n ≤ limit) : decimal? limit (decimal n) = some n :=
  read?_toDigits (by decide) (by decide) hn

theorem isDigit_of_digit? {d : Nat} (hdigit : digit? 10 c = some d) : c.isDigit := by
  rw [digit?] at hdigit
  obtain ⟨hvalue, -⟩ := Option.ite_none_right_eq_some.1 hdigit
  split at hvalue
  · next hrange => simpa [Char.isDigit, Char.le_def] using hrange
  · split at hvalue
    · omega
    · split at hvalue <;> omega

/-- What begins with a digit of another script is no number. -/
theorem isDigit_of_decimal? {t : Text} (hdecimal : decimal? limit (c :: t) = some n) (hplus : c ≠ '+') :
    c.isDigit := by
  rw [decimal?, read?] at hdecimal
  · rw [if_neg (by exact Bool.false_ne_true)] at hdecimal
    obtain ⟨hcontinue, -⟩ := Option.filter_eq_some_iff.1 hdecimal
    obtain ⟨low, hdigit, -⟩ := Option.bind_eq_some_iff.1 hcontinue
    exact isDigit_of_digit? hdigit
  · intro digits hcons
    exact hplus (List.cons.inj hcons).1

/-- The digits of a decimal number. -/
theorem digitChar_facts : ∀ d < 10, isDigit d.digitChar ∧ isWord d.digitChar ∧
    isBlank d.digitChar = false ∧ d.digitChar ∉ ['<', ')', ':', '\n'] := by decide

theorem isRun_decimal (n : Nat) : IsRun isDigit (decimal n) := by
  refine ⟨Nat.toDigits_ne_nil, fun c hc => ?_⟩
  obtain ⟨d, hd, rfl⟩ := exists_digitChar (by decide) hc
  exact (digitChar_facts d hd).1

theorem isBlank_of_mem_decimal (hc : c ∈ decimal n) : isBlank c = false := by
  obtain ⟨d, hd, rfl⟩ := exists_digitChar (by decide) hc
  exact (digitChar_facts d hd).2.2.1

theorem isWord_of_mem_decimal (hc : c ∈ decimal n) : isWord c := by
  obtain ⟨d, hd, rfl⟩ := exists_digitChar (by decide) hc
  exact (digitChar_facts d hd).2.1

/-- No mark that a number stands between is a digit. -/
theorem notMem_decimal (hc : c ∈ ['<', ')', ':', '\n']) : c ∉ decimal n := by
  intro hmem
  obtain ⟨d, hd, rfl⟩ := exists_digitChar (by decide) hmem
  exact (digitChar_facts d hd).2.2.2 hc

/-! ### Addresses -/

/-- The digits read on: hexadecimal, parts of a word, and neither white space nor a mark that may stand
    in front of or behind a value. -/
theorem hexDigitChar_facts : ∀ d < 16, isHex d.digitChar ∧ isWord d.digitChar ∧
    isBlank d.digitChar = false ∧ d.digitChar ∉ ['>', '.'] := by decide

theorem run?_hexDigits (n : Nat) : run? isHex (Nat.toDigits 16 n) = some (Nat.toDigits 16 n, []) := by
  have hrun : IsRun isHex (Nat.toDigits 16 n) := by
    refine ⟨Nat.toDigits_ne_nil, fun c hc => ?_⟩
    obtain ⟨d, hd, rfl⟩ := exists_digitChar (by decide) hc
    exact (hexDigitChar_facts d hd).1
  simpa using hrun.run?_append []

theorem isWord_of_mem_address (hc : c ∈ address n) : isWord c := by
  have hwords : ∀ c ∈ address n, isWord c := by
    refine List.forall_mem_cons.2 ⟨rfl, List.forall_mem_cons.2 ⟨rfl, fun c hc => ?_⟩⟩
    obtain ⟨d, hd, rfl⟩ := exists_digitChar (by decide) hc
    exact (hexDigitChar_facts d hd).2.1
  exact hwords c hc

theorem exists_address_concat (n : Nat) :
    ∃ front last, address n = front ++ [last] ∧ isBlank last = false ∧ last ∉ ['>', '.'] := by
  obtain ⟨front, last, hdigits⟩ :=
    (List.eq_nil_or_concat' (Nat.toDigits 16 n)).resolve_left Nat.toDigits_ne_nil
  have hmem : last ∈ Nat.toDigits 16 n := hdigits ▸ List.mem_append_right front List.mem_cons_self
  obtain ⟨d, hd, rfl⟩ := exists_digitChar (by decide) hmem
  exact ⟨'0' :: 'x' :: front, _, by rw [address, hdigits]; rfl, (hexDigitChar_facts d hd).2.2⟩

end DebugClient.Numeral
