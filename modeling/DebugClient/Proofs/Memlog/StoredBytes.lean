import Mathlib.Algebra.Order.Ring.Nat
import Mathlib.Data.Nat.Digits.Lemmas
import DebugClient.Proofs.Memory.Allocation
import DebugClient.Proofs.Text.Numerals

/-!
The bytes of a store. Two hexadecimal digits in either case stand for a byte, and what a store of a
given length leaves behind depends on the bytes alone and tells them apart: up to eight bytes become the
number that they give, the lowest byte first, and all others their digits. The history of a value
therefore grows where the bytes that are stored change, and nowhere else.
-/

namespace DebugClient

namespace Memlog
open Text Numeral CharClass

/-- The digit of a value below sixteen, in either case. -/
def IsDigitOf (value : Nat) (c : Char) : Prop :=
  value < 16 ∧ (c = value.digitChar ∨ c = value.digitChar.toUpper)

/-- Each byte is written in two digits, the high one first. -/
inductive Encodes : Text → List Nat → Prop where
  | nil : Encodes [] []
  | cons {c d : Char} {high low : Nat} {digits : Text} {bytes : List Nat} (hhigh : IsDigitOf high c)
      (hlow : IsDigitOf low d) (hrest : Encodes digits bytes) :
      Encodes (c :: d :: digits) ((16 * high + low) :: bytes)

/-- The digits of bytes in lower case. -/
def spell (bytes : List Nat) : Text :=
  bytes.flatMap fun byte => [(byte / 16).digitChar, (byte % 16).digitChar]

/-- The number that bytes give in words of 64 bits, from which bits that are shifted out at the top are
    lost. -/
def shiftTogether (bytes : List Nat) : UInt64 :=
  bytes.reverse.foldl (fun word byte => word <<< 8 ||| .ofNat byte) 0

variable {value high low length : Nat} {c d : Char} {digits other : Text} {bytes others : List Nat}

/-! ### Digits -/

/-- A digit in either case is read as its value, and is written in lower case in one way. -/
theorem IsDigitOf.facts (hdigit : IsDigitOf value c) :
    digit? 16 c = some value ∧ isHex c ∧ c.toLower = value.digitChar := by
  have hdigits : ∀ value < 16,
      (digit? 16 value.digitChar = some value ∧ isHex value.digitChar ∧
        value.digitChar.toLower = value.digitChar) ∧
      digit? 16 value.digitChar.toUpper = some value ∧ isHex value.digitChar.toUpper ∧
        value.digitChar.toUpper.toLower = value.digitChar := by
    decide
  obtain ⟨hsmall, rfl | rfl⟩ := hdigit
  · exact (hdigits value hsmall).1
  · exact (hdigits value hsmall).2

theorem toNat_lt_of_isHex (hhex : isHex c) : c.toNat < 128 := by
  simp only [isHex, Char.isDigit, Bool.or_eq_true, Bool.and_eq_true, decide_eq_true_eq, Char.le_def,
    UInt32.le_iff_toNat_le] at hhex
  rcases hhex with (hdigit | hlower) | hupper
  · exact Nat.lt_of_le_of_lt hdigit.2 (by decide)
  · exact Nat.lt_of_le_of_lt hlower.2 (by decide)
  · exact Nat.lt_of_le_of_lt hupper.2 (by decide)

theorem exists_isDigitOf (hhex : isHex c) : ∃ value, IsDigitOf value c := by
  have hdigits : ∀ n < 128, isHex (Char.ofNat n) → ∃ value < 16,
      Char.ofNat n = value.digitChar ∨ Char.ofNat n = value.digitChar.toUpper := by
    decide
  have hdigit := hdigits c.toNat (toNat_lt_of_isHex hhex)
  rw [Char.ofNat_toNat] at hdigit
  exact hdigit hhex

theorem hex?_pair (hhigh : IsDigitOf high c) (hlow : IsDigitOf low d) :
    hex? 255 [c, d] = some (16 * high + low) := by
  have hplus : c ≠ '+' := by
    rintro rfl
    cases hhigh.facts.1
  have hbound : high * 16 + low ≤ 255 := by
    have := hhigh.1
    have := hlow.1
    omega
  rw [hex?, read?]
  · simp [continue?, hhigh.facts.1, hlow.facts.1, hbound, Nat.mul_comm]
  · intro digits hcons
    exact hplus (List.cons.inj hcons).1

/-! ### Bytes -/

theorem Encodes.lt (hencodes : Encodes digits bytes) : ∀ byte ∈ bytes, byte < 256 := by
  induction hencodes with
  | nil => simp
  | cons hhigh hlow hrest ih =>
    refine List.forall_mem_cons.2 ⟨?_, ih⟩
    have := hhigh.1
    have := hlow.1
    omega

theorem decodeHex?_of_encodes (hencodes : Encodes digits bytes) : decodeHex? digits = some bytes := by
  induction hencodes with
  | nil => rfl
  | cons hhigh hlow hrest ih => simp [decodeHex?, hex?_pair hhigh hlow, ih]

theorem Encodes.unique (hencodes : Encodes digits bytes) (hother : Encodes digits others) :
    others = bytes := by
  have heq := decodeHex?_of_encodes hother
  rw [decodeHex?_of_encodes hencodes] at heq
  exact (Option.some.inj heq).symm

theorem isHex_of_encodes (hencodes : Encodes digits bytes) : ∀ c ∈ digits, isHex c := by
  induction hencodes with
  | nil => simp
  | cons hhigh hlow hrest ih =>
    exact List.forall_mem_cons.2 ⟨hhigh.facts.2.1, List.forall_mem_cons.2 ⟨hlow.facts.2.1, ih⟩⟩

theorem even_of_decodeHex? (hdecode : decodeHex? digits = some bytes) : Even digits.length := by
  fun_induction decodeHex? digits generalizing bytes with
  | case1 => simp
  | case2 => cases hdecode
  | case3 c d digits ih =>
    obtain ⟨byte, -, hrest⟩ := Option.bind_eq_some_iff.1 hdecode
    obtain ⟨later, hlater, -⟩ := Option.bind_eq_some_iff.1 hrest
    simpa [Nat.even_add_one] using ih hlater

/-- Digits come in pairs if there is an even number of them. -/
theorem exists_encodes : ∀ digits : Text, Even digits.length → (∀ c ∈ digits, isHex c) →
    ∃ bytes, Encodes digits bytes
  | [], _, _ => ⟨[], .nil⟩
  | [_], heven, _ => absurd heven (by simp)
  | c :: d :: digits, heven, hhex => by
    obtain ⟨hc, hd, hdigits⟩ : isHex c ∧ isHex d ∧ ∀ c ∈ digits, isHex c := by simpa using hhex
    have hrest : Even digits.length := by simpa [Nat.even_add_one] using heven
    obtain ⟨high, hhigh⟩ := exists_isDigitOf hc
    obtain ⟨low, hlow⟩ := exists_isDigitOf hd
    obtain ⟨bytes, hbytes⟩ := exists_encodes digits hrest hdigits
    exact ⟨_, .cons hhigh hlow hbytes⟩

theorem encodes_iff :
    Encodes digits bytes ↔ (∀ c ∈ digits, isHex c) ∧ decodeHex? digits = some bytes := by
  refine ⟨fun hencodes => ⟨isHex_of_encodes hencodes, decodeHex?_of_encodes hencodes⟩, ?_⟩
  rintro ⟨hhex, hdecode⟩
  obtain ⟨others, hothers⟩ := exists_encodes digits (even_of_decodeHex? hdecode) hhex
  rw [decodeHex?_of_encodes hothers] at hdecode
  exact Option.some.inj hdecode ▸ hothers

instance (digits : Text) (bytes : List Nat) : Decidable (Encodes digits bytes) :=
  decidable_of_iff (digits.all isHex ∧ decodeHex? digits = some bytes)
    (by rw [List.all_eq_true, encodes_iff])

theorem spell_of_encodes (hencodes : Encodes digits bytes) : digits.map Char.toLower = spell bytes := by
  induction hencodes with
  | nil => rfl
  | @cons c d high low digits bytes hhigh hlow hrest ih =>
    have hhalves : (16 * high + low) / 16 = high ∧ (16 * high + low) % 16 = low := by
      have := hlow.1
      omega
    rw [List.map_cons, List.map_cons, ih, hhigh.facts.2.2, hlow.facts.2.2, spell, spell,
      List.flatMap_cons, hhalves.1, hhalves.2]
    rfl

theorem encodes_spell (hbytes : ∀ byte ∈ bytes, byte < 256) : Encodes (spell bytes) bytes := by
  induction bytes with
  | nil => exact .nil
  | cons byte bytes ih =>
    obtain ⟨hbyte, hrest⟩ := List.forall_mem_cons.1 hbytes
    have hhigh : IsDigitOf (byte / 16) (byte / 16).digitChar := ⟨by omega, .inl rfl⟩
    have hlow : IsDigitOf (byte % 16) (byte % 16).digitChar := ⟨by omega, .inl rfl⟩
    have hencodes := Encodes.cons hhigh hlow (ih hrest)
    rwa [Nat.div_add_mod] at hencodes

theorem spell_inj (hbytes : ∀ byte ∈ bytes, byte < 256) (hothers : ∀ byte ∈ others, byte < 256)
    (heq : spell bytes = spell others) : bytes = others := by
  have hencodes := encodes_spell hbytes
  rw [heq] at hencodes
  exact (encodes_spell hothers).unique hencodes

/-! ### Numbers -/

theorem littleEndian_eq_ofDigits (bytes : List Nat) : littleEndian bytes = Nat.ofDigits 256 bytes := by
  rw [littleEndian, Nat.ofDigits_eq_foldr]
  rfl

theorem littleEndian_eq_sum (bytes : List Nat) :
    littleEndian bytes = (bytes.mapIdx fun i byte => byte * 256 ^ i).sum := by
  rw [littleEndian_eq_ofDigits, Nat.ofDigits_eq_sum_mapIdx]

theorem littleEndian_lt {most : Nat} (hbytes : ∀ byte ∈ bytes, byte < 256)
    (hlength : bytes.length ≤ most) : littleEndian bytes < 256 ^ most := by
  rw [littleEndian_eq_ofDigits]
  exact (Nat.ofDigits_lt_base_pow_length (by decide) hbytes).trans_le
    (Nat.pow_le_pow_right (by decide) hlength)

theorem littleEndian_le_largest64 (hbytes : ∀ byte ∈ bytes, byte < 256) (hlength : bytes.length ≤ 8) :
    littleEndian bytes ≤ largest64 :=
  Nat.le_of_lt_succ (littleEndian_lt hbytes hlength)

/-- No bit is lost at the top of a word as long as there are no more than eight bytes. -/
theorem toNat_shiftTogether (hbytes : ∀ byte ∈ bytes, byte < 256) (hlength : bytes.length ≤ 8) :
    (shiftTogether bytes).toNat = littleEndian bytes := by
  rw [shiftTogether, List.foldl_reverse]
  induction bytes with
  | nil => rfl
  | cons byte bytes ih =>
    obtain ⟨hbyte, hrest⟩ := List.forall_mem_cons.1 hbytes
    rw [List.length_cons] at hlength
    have hhigh : littleEndian bytes < 256 ^ 7 := littleEndian_lt hrest (by omega)
    have hshift : littleEndian bytes <<< 8 % 2 ^ 64 = littleEndian bytes <<< 8 := by
      rw [Nat.shiftLeft_eq]
      omega
    have hlow : (UInt64.ofNat byte).toNat = byte := UInt64.toNat_ofNat_of_lt' (by
      rw [UInt64.size]
      omega)
    rw [List.foldr_cons, UInt64.toNat_or, UInt64.toNat_shiftLeft, ih hrest (by omega), hlow]
    change littleEndian bytes <<< 8 % 2 ^ 64 ||| byte = byte + 256 * littleEndian bytes
    rw [hshift, ← Nat.shiftLeft_add_eq_or_of_lt hbyte, Nat.shiftLeft_eq]
    omega

theorem decimal_inj {m n : Nat} (heq : decimal m = decimal n) : m = n := by
  have hread : continue? 10 0 (Nat.toDigits 10 m) = some m :=
    continue?_toDigits (by decide) (by decide) m
  rw [show Nat.toDigits 10 m = Nat.toDigits 10 n from heq,
    continue?_toDigits (by decide) (by decide)] at hread
  exact (Option.some.inj hread).symm

/-! ### What a store leaves behind -/

/-- What bytes are kept as, if `length` of them were announced. -/
def kept (length : Nat) (bytes : List Nat) : ValueData :=
  if length ≤ 8 ∧ bytes.length = length then .scalar (decimal (littleEndian bytes))
  else .scalar ('0' :: 'x' :: spell bytes)

theorem storedData?_of_encodes (hencodes : Encodes digits bytes) (length : Nat) :
    storedData? digits length = some (kept length bytes) := by
  rw [storedData?, decodeHex?_of_encodes hencodes, spell_of_encodes hencodes, kept]
  dsimp only [Option.bind_eq_bind, Option.bind_some]
  split <;> rfl

/-- Digits behind `0x` are no decimal number. -/
theorem decimal_ne_address (n : Nat) (t : Text) : decimal n ≠ '0' :: 'x' :: t := by
  intro heq
  have hmem : 'x' ∈ decimal n := by simp [heq]
  have hdigit := (isRun_decimal n).2 'x' hmem
  exact absurd hdigit (by decide)

theorem kept_inj (hbytes : ∀ byte ∈ bytes, byte < 256) (hothers : ∀ byte ∈ others, byte < 256) :
    kept length bytes = kept length others ↔ bytes = others := by
  refine ⟨fun heq => ?_, fun heq => heq ▸ rfl⟩
  unfold kept at heq
  split at heq
  · next hnumber =>
    split at heq
    · next hother =>
      have hsame := decimal_inj (ValueData.scalar.inj heq)
      rw [littleEndian_eq_ofDigits, littleEndian_eq_ofDigits] at hsame
      exact Nat.ofDigits_inj_of_len_eq (by decide) (hnumber.2.trans hother.2.symm) hbytes hothers hsame
    · exact absurd (ValueData.scalar.inj heq) (decimal_ne_address _ _)
  · split at heq
    · exact absurd (ValueData.scalar.inj heq).symm (decimal_ne_address _ _)
    · have hdigits := ValueData.scalar.inj heq
      exact spell_inj hbytes hothers (by simpa using hdigits)

end Memlog

namespace ProgramState
open Memlog

/-- The event stores these bytes at the address, announced as so many. -/
def Writes (address length : Nat) (event : MemlogEvent) (bytes : List Nat) : Prop :=
  ∃ site pointer digits, event = .store site pointer length digits ∧ address? pointer = some address ∧
    Encodes digits bytes

/-- Apply events one after another. -/
def applyAll (events : List MemlogEvent) (state : ProgramState) : ProgramState :=
  events.foldl (fun state event => (state.applyMemlog event).2) state

/-- How often bytes follow that differ from those before them. -/
def changes : List Nat → List (List Nat) → Nat
  | _, [] => 0
  | before, bytes :: later => (if bytes = before then 0 else 1) + changes bytes later

variable {state : ProgramState} {event : MemlogEvent} {address length : Nat} {bytes others : List Nat}
  {value : Value} {events : List MemlogEvent} {written : List (List Nat)}

theorem valueAt?_of_writes (hvalue : state.valueAt? address = some value)
    (hwrites : Writes address length event bytes) :
    (state.applyMemlog event).2.valueAt? address =
      some (if value.data = kept length bytes then value else value.assign (kept length bytes)) := by
  obtain ⟨id, hid, hfound⟩ := Option.bind_eq_some_iff.1 hvalue
  obtain ⟨site, pointer, digits, rfl, hpointer, hencodes⟩ := hwrites
  simp only [applyMemlog, hpointer, storedData?_of_encodes hencodes length, hid]
  rw [valueAt?]
  change (state.idAt? address).bind (fun other => (state.values.modify id _)[other]?) = _
  rw [hid, Option.bind_some, Array.getElem?_modify, if_pos rfl, hfound, Option.map_some]

/-- A store leaves its data, and the history has grown if there was other data before. -/
theorem exists_valueAt?_of_writes (hvalue : state.valueAt? address = some value)
    (hwrites : Writes address length event bytes) :
    ∃ next, (state.applyMemlog event).2.valueAt? address = some next ∧ next.data = kept length bytes ∧
      next.history.length = value.history.length + if value.data = kept length bytes then 0 else 1 := by
  refine ⟨_, valueAt?_of_writes hvalue hwrites, ?_, ?_⟩
  · split
    · assumption
    · rfl
  · split
    · rfl
    · rfl

theorem Writes.lt (hwrites : Writes address length event bytes) : ∀ byte ∈ bytes, byte < 256 := by
  obtain ⟨site, pointer, digits, -, -, hencodes⟩ := hwrites
  exact hencodes.lt

/-- Of stores of one length at one address, the history keeps count of those that change the bytes. -/
theorem length_history_applyAll (hvalue : state.valueAt? address = some value)
    (hdata : value.data = kept length bytes) (hbytes : ∀ byte ∈ bytes, byte < 256)
    (hwrites : List.Forall₂ (Writes address length) events written) :
    ∃ last, (state.applyAll events).valueAt? address = some last ∧
      last.history.length = value.history.length + changes bytes written := by
  induction hwrites generalizing state value bytes with
  | nil => exact ⟨value, hvalue, rfl⟩
  | @cons event others events written hfirst hlater ih =>
    obtain ⟨next, hnext, hkept, hlength⟩ := exists_valueAt?_of_writes hvalue hfirst
    obtain ⟨last, hlast, htotal⟩ := ih hnext hkept hfirst.lt
    refine ⟨last, hlast, ?_⟩
    rw [htotal, hlength, hdata, changes]
    simp only [kept_inj hbytes hfirst.lt, eq_comm (a := bytes), Nat.add_assoc]

/-- An even number of hexadecimal digits in either case stands for bytes, and what a store of them
    leaves behind tells these bytes from all others. Up to eight bytes, if that is how many were
    announced, are the number that they give, the lowest first, which a word of 64 bits holds. At an
    address that has a value the history grows by one where other bytes are stored than before, and does
    not where they are the same. -/
theorem stores_faithfully {digits : Text} (heven : Even digits.length)
    (hhex : ∀ c ∈ digits, CharClass.isHex c) (length : Nat) :
    ∃ bytes data, Encodes digits bytes ∧ (∀ others, Encodes digits others → others = bytes) ∧
      storedData? digits length = some data ∧
      (length ≤ 8 → bytes.length = length →
        data = .scalar (Numeral.decimal (bytes.mapIdx fun i byte => byte * 256 ^ i).sum) ∧
          (bytes.mapIdx fun i byte => byte * 256 ^ i).sum ≤ Numeral.largest64 ∧
          (shiftTogether bytes).toNat = (bytes.mapIdx fun i byte => byte * 256 ^ i).sum) ∧
      (∀ other others, Encodes other others →
        (storedData? other length = some data ↔ others = bytes)) ∧
      ∀ (state : ProgramState) address site pointer value, address? pointer = some address →
        state.valueAt? address = some value →
        ∃ stored, (state.applyMemlog (.store site pointer length digits)).2.valueAt? address =
            some stored ∧ stored.data = data ∧
          ∀ events written, List.Forall₂ (Writes address length) events written →
            ∃ last, ((state.applyMemlog (.store site pointer length digits)).2.applyAll events).valueAt?
                address = some last ∧
              last.history.length = stored.history.length + changes bytes written := by
  obtain ⟨bytes, hencodes⟩ := exists_encodes digits heven hhex
  refine ⟨bytes, kept length bytes, hencodes, fun others hothers => hencodes.unique hothers,
    storedData?_of_encodes hencodes length, ?_, ?_, ?_⟩
  · intro hsmall hlength
    rw [← littleEndian_eq_sum, kept, if_pos ⟨hsmall, hlength⟩]
    exact ⟨rfl, littleEndian_le_largest64 hencodes.lt (by omega),
      toNat_shiftTogether hencodes.lt (by omega)⟩
  · intro other others hothers
    rw [storedData?_of_encodes hothers, Option.some.injEq, kept_inj hothers.lt hencodes.lt]
  · intro state address site pointer value hpointer hvalue
    have hwrites : Writes address length (.store site pointer length digits) bytes :=
      ⟨site, pointer, digits, rfl, hpointer, hencodes⟩
    obtain ⟨stored, hstored, hkept, -⟩ := exists_valueAt?_of_writes hvalue hwrites
    refine ⟨stored, hstored, hkept, ?_⟩
    intro events written hevents
    exact length_history_applyAll hstored hkept hencodes.lt hevents

/-- Eight bytes with the highest bit set, stored again in lower case, then with another byte, and then as
    at first. -/
theorem stores_faithfully_eight_bytes :
    let digits := "fF00000000000080".toList
    let start := applyAll [.alloc 1 "0x1000".toList 8, .store 2 "0x1000".toList 8 digits] {}
    storedData? digits 8 = some (.scalar "9223372036854776063".toList) ∧
      ∃ stored last, start.valueAt? 0x1000 = some stored ∧
        (start.applyAll [.store 3 "0x1000".toList 8 "ff00000000000080".toList,
          .store 4 "0x1000".toList 8 "ff00000000000081".toList,
          .store 2 "0x1000".toList 8 digits]).valueAt? 0x1000 = some last ∧
        last.history.length = stored.history.length + 2 := by
  intro digits start
  have heven : Even digits.length := by decide
  obtain ⟨bytes, data, -, hunique, hdata, hnumber, -, hhistory⟩ :=
    stores_faithfully heven (List.all_eq_true.1 rfl) 8
  obtain rfl := hunique [255, 0, 0, 0, 0, 0, 0, 128] (by decide)
  obtain ⟨rfl, -, -⟩ := hnumber (by decide) rfl
  refine ⟨hdata.trans (by decide +kernel), ?_⟩
  obtain ⟨value, hvalue⟩ : ∃ value, (applyAll [.alloc 1 "0x1000".toList 8] {}).valueAt? 0x1000 =
      some value := ⟨_, rfl⟩
  have hpointer : address? "0x1000".toList = some 0x1000 := by decide
  have hwrites (site : Nat) (digits : Text) (bytes : List Nat) (hencodes : Encodes digits bytes) :
      Writes 0x1000 8 (.store site "0x1000".toList 8 digits) bytes :=
    ⟨site, _, digits, rfl, hpointer, hencodes⟩
  obtain ⟨stored, hstored, -, hevents⟩ := hhistory _ 0x1000 2 _ value hpointer hvalue
  obtain ⟨last, hlast, hlength⟩ := hevents _ _
    (.cons (hwrites 3 "ff00000000000080".toList [255, 0, 0, 0, 0, 0, 0, 128] (by decide))
      (.cons (hwrites 4 "ff00000000000081".toList [255, 0, 0, 0, 0, 0, 0, 129] (by decide))
        (.cons (hwrites 2 digits [255, 0, 0, 0, 0, 0, 0, 128] (by decide)) .nil)))
  exact ⟨stored, last, hstored, hlast, hlength⟩

end ProgramState
end DebugClient
