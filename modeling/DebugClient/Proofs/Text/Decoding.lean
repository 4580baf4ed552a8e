import DebugClient.Text.Utf8
import Mathlib.Data.List.Basic
import Mathlib.Data.List.Infix

/-!
Decoding what has been encoded. Bytes stand for a text if they are its encoding, and for none
otherwise. Wherever the bytes of a text are cut, what has come in is decoded up to the last character
that is there as a whole, and the bytes of the one behind it are kept.
-/

namespace DebugClient.Utf8

theorem run_append (state : State) (front back : List UInt8) :
    run state (front ++ back) = ((run state front).1 ++ (run (run state front).2 back).1,
      (run (run state front).2 back).2) := by
  induction front generalizing state with
  | nil => rfl
  | cons b front ih =>
    simp only [List.cons_append, run, ih]
    simp

/-! ### One character -/

/-- From this state on, the bytes complete the character, and nothing is decoded before the last of
    them. -/
structure Spells (c : Char) (state : State) (bytes : List UInt8) : Prop where
  run_eq : run state bytes = ([.char c], .start)
  inside : ∀ k < bytes.length, ∃ next, run state (bytes.take k) = ([], next) ∧
    next.bytesRead = state.bytesRead + k

theorem spells_last {c : Char} {state : State} {b : UInt8}
    (hstep : step state b.toNat = ([.char c], .start)) : Spells c state [b] := by
  constructor
  · rw [run, hstep]
    rfl
  · intro k hk
    obtain rfl : k = 0 := by simpa using hk
    exact ⟨state, rfl, rfl⟩

theorem spells_cons {c : Char} {state next : State} {b : UInt8} {bytes : List UInt8}
    (hstep : step state b.toNat = ([], next)) (hread : next.bytesRead = state.bytesRead + 1)
    (hspells : Spells c next bytes) : Spells c state (b :: bytes) := by
  constructor
  · rw [run, hstep]
    dsimp only
    rw [hspells.run_eq]
    rfl
  · intro k hk
    cases k with
    | zero => exact ⟨state, rfl, rfl⟩
    | succ k =>
      obtain ⟨last, hrun, hlast⟩ := hspells.inside k (by simpa using hk)
      refine ⟨last, ?_, by omega⟩
      rw [List.take_succ_cons, run, hstep]
      dsimp only
      rw [hrun]
      rfl

section
variable {v : Nat}

theorem first_of_le_127 (hv : v ≤ 127) : first v = ([.char (Char.ofNat v)], .start) := by
  rw [first, if_pos (by omega)]

theorem first_of_two (hlow : 127 < v) (hhigh : v ≤ 2047) :
    first (v / 64 + 192) = ([], .inside 1 (v / 64) 0 0x80 0xBF) := by
  rw [first, if_neg (by omega), if_pos (by omega), Nat.add_sub_cancel]

/-- Of three bytes the second may be confined, to rule out what fewer would do for and the
    surrogates. -/
theorem first_of_three (hlow : 2047 < v) (hhigh : v ≤ 65535) (hvalid : v < 0xD800 ∨ 0xDFFF < v) :
    ∃ low high, first (v / 4096 + 224) = ([], .inside 1 (v / 4096) 1 low high) ∧
      low ≤ v / 64 % 64 + 128 ∧ v / 64 % 64 + 128 ≤ high := by
  rw [first, if_neg (by omega), if_neg (by omega)]
  by_cases hleast : v / 4096 + 224 = 0xE0
  · rw [if_pos hleast]
    exact ⟨_, _, by rw [show v / 4096 = 0 by omega], by omega, by omega⟩
  · rw [if_neg hleast]
    by_cases hsurrogates : v / 4096 + 224 = 0xED
    · rw [if_pos hsurrogates]
      exact ⟨_, _, by rw [show v / 4096 = 0xD by omega], by omega, by omega⟩
    · rw [if_neg hsurrogates, if_pos (by omega), Nat.add_sub_cancel]
      exact ⟨_, _, rfl, by omega, by omega⟩

/-- Of four bytes the second may be confined, to rule out what fewer would do for and what is beyond
    the last character. -/
theorem first_of_four (hlow : 65535 < v) (hhigh : v < 0x110000) :
    ∃ low high, first (v / 262144 + 240) = ([], .inside 1 (v / 262144) 2 low high) ∧
      low ≤ v / 4096 % 64 + 128 ∧ v / 4096 % 64 + 128 ≤ high := by
  rw [first, if_neg (by omega), if_neg (by omega), if_neg (by omega), if_neg (by omega),
    if_neg (by omega)]
  by_cases hleast : v / 262144 + 240 = 0xF0
  · rw [if_pos hleast]
    exact ⟨_, _, by rw [show v / 262144 = 0 by omega], by omega, by omega⟩
  · rw [if_neg hleast]
    by_cases hgreatest : v / 262144 + 240 = 0xF4
    · rw [if_neg (by omega), if_pos hgreatest]
      exact ⟨_, _, by rw [show v / 262144 = 4 by omega], by omega, by omega⟩
    · rw [if_pos (by omega), Nat.add_sub_cancel]
      exact ⟨_, _, rfl, by omega, by omega⟩

theorem step_inside_zero {read code low high b : Nat} (hlow : low ≤ b) (hhigh : b ≤ high) :
    step (.inside read code 0 low high) b = ([.char (Char.ofNat (code * 64 + (b - 0x80)))], .start) := by
  rw [step, if_pos ⟨hlow, hhigh⟩]

theorem step_inside_succ {read code missing low high b : Nat} (hlow : low ≤ b) (hhigh : b ≤ high) :
    step (.inside read code (missing + 1) low high) b =
      ([], .inside (read + 1) (code * 64 + (b - 0x80)) missing 0x80 0xBF) := by
  rw [step, if_pos ⟨hlow, hhigh⟩]

/-- A byte of the second kind carries six bits. -/
theorem toNat_ofNat_tail (n : Nat) : (UInt8.ofNat (n % 64 + 128)).toNat = n % 64 + 128 := by
  rw [UInt8.toNat_ofNat']
  omega

end

theorem spells_utf8EncodeChar (c : Char) : Spells c .start (String.utf8EncodeChar c) := by
  have hvalid : c.val.toNat < 0xD800 ∨ 0xDFFF < c.val.toNat ∧ c.val.toNat < 0x110000 := c.valid
  have hchar : Char.ofNat c.val.toNat = c := Char.ofNat_toNat c
  rw [String.utf8EncodeChar]
  generalize c.val.toNat = v at hvalid hchar ⊢
  by_cases hone : v ≤ 127
  · rw [if_pos hone]
    have hlead : (UInt8.ofNat v).toNat = v := by
      rw [UInt8.toNat_ofNat']
      omega
    apply spells_last
    rw [hlead, step, first_of_le_127 hone, hchar]
  rw [if_neg hone]
  by_cases htwo : v ≤ 2047
  · rw [if_pos htwo]
    have hlead : (UInt8.ofNat (v / 64 % 32 + 192)).toNat = v / 64 + 192 := by
      rw [UInt8.toNat_ofNat']
      omega
    have hsum : v / 64 * 64 + (v % 64 + 128 - 0x80) = v := by omega
    refine spells_cons (by rw [hlead, step, first_of_two (by omega) htwo]) rfl (spells_last ?_)
    rw [toNat_ofNat_tail, step_inside_zero (by omega) (by omega), hsum, hchar]
  rw [if_neg htwo]
  by_cases hthree : v ≤ 65535
  · rw [if_pos hthree]
    obtain ⟨low, high, hfirst, hlow, hhigh⟩ := first_of_three (v := v) (by omega) hthree (by omega)
    have hlead : (UInt8.ofNat (v / 4096 % 16 + 224)).toNat = v / 4096 + 224 := by
      rw [UInt8.toNat_ofNat']
      omega
    have hsum : (v / 4096 * 64 + (v / 64 % 64 + 128 - 0x80)) * 64 + (v % 64 + 128 - 0x80) = v := by
      omega
    refine spells_cons (by rw [hlead, step, hfirst]) rfl (spells_cons
      (by rw [toNat_ofNat_tail, step_inside_succ hlow hhigh]) rfl (spells_last ?_))
    rw [toNat_ofNat_tail, step_inside_zero (by omega) (by omega), hsum, hchar]
  rw [if_neg hthree]
  obtain ⟨low, high, hfirst, hlow, hhigh⟩ := first_of_four (v := v) (by omega) (by omega)
  have hlead : (UInt8.ofNat (v / 262144 % 8 + 240)).toNat = v / 262144 + 240 := by
    rw [UInt8.toNat_ofNat']
    omega
  have hsum : ((v / 262144 * 64 + (v / 4096 % 64 + 128 - 0x80)) * 64 +
      (v / 64 % 64 + 128 - 0x80)) * 64 + (v % 64 + 128 - 0x80) = v := by omega
  refine spells_cons (by rw [hlead, step, hfirst]) rfl (spells_cons
    (by rw [toNat_ofNat_tail, step_inside_succ hlow hhigh]) rfl (spells_cons
      (by rw [toNat_ofNat_tail, step_inside_succ (by omega) (by omega)]) rfl (spells_last ?_)))
  rw [toNat_ofNat_tail, step_inside_zero (by omega) (by omega), hsum, hchar]

/-! ### A text -/

theorem encode_append (s t : Text) : encode (s ++ t) = encode s ++ encode t := List.flatMap_append

theorem run_encode (t : Text) : run .start (encode t) = (t.map .char, .start) := by
  induction t with
  | nil => rfl
  | cons c t ih =>
    have hrun := (spells_utf8EncodeChar c).run_eq
    change run .start (String.utf8EncodeChar c ++ encode t) = _
    rw [run_append, hrun, ih]
    rfl

/-! ### What has been decoded is encoded so -/

theorem run_cons (state : State) (b : UInt8) (bytes : List UInt8) :
    run state (b :: bytes) = ((step state b.toNat).1 ++ (run (step state b.toNat).2 bytes).1,
      (run (step state b.toNat).2 bytes).2) := rfl

/-- A run that ends between characters, without a fault. -/
def Decodes (state : State) (bytes : List UInt8) (t : Text) : Prop :=
  run state bytes = (t.map .char, .start)

section
variable {read code missing low high : Nat} {bytes : List UInt8} {t : Text}

/-- Inside a character the next byte is within its bounds. -/
theorem bounds_of_decodes {bytes : List UInt8}
    (hdecodes : Decodes (.inside read code missing low high) bytes t) :
    ∃ b rest, bytes = b :: rest ∧ low ≤ b.toNat ∧ b.toNat ≤ high := by
  cases bytes with
  | nil =>
    have hstate := congrArg Prod.snd hdecodes
    cases hstate
  | cons b rest =>
    refine ⟨b, rest, rfl, ?_⟩
    by_contra hout
    rw [Decodes, run_cons, step, if_neg hout] at hdecodes
    have hmem : Decoded.fault ∈ t.map Decoded.char := by
      rw [← (Prod.mk.inj hdecodes).1]
      simp
    simp at hmem

theorem decodes_inside_zero (hdecodes : Decodes (.inside read code 0 low high) bytes t) :
    ∃ b rest others, bytes = b :: rest ∧ low ≤ b.toNat ∧ b.toNat ≤ high ∧
      t = Char.ofNat (code * 64 + (b.toNat - 0x80)) :: others ∧ Decodes .start rest others := by
  obtain ⟨b, rest, rfl, hlow, hhigh⟩ := bounds_of_decodes hdecodes
  rw [Decodes, run_cons, step_inside_zero hlow hhigh] at hdecodes
  obtain ⟨hout, hstate⟩ := Prod.mk.inj hdecodes
  cases t with
  | nil => cases hout
  | cons c others =>
    obtain ⟨hfirst, hothers⟩ := List.cons.inj hout
    refine ⟨b, rest, others, rfl, hlow, hhigh, ?_, Prod.ext hothers hstate⟩
    rw [Decoded.char.inj hfirst]

theorem decodes_inside_succ (hdecodes : Decodes (.inside read code (missing + 1) low high) bytes t) :
    ∃ b rest, bytes = b :: rest ∧ low ≤ b.toNat ∧ b.toNat ≤ high ∧
      Decodes (.inside (read + 1) (code * 64 + (b.toNat - 0x80)) missing 0x80 0xBF) rest t := by
  obtain ⟨b, rest, rfl, hlow, hhigh⟩ := bounds_of_decodes hdecodes
  rw [Decodes, run_cons, step_inside_succ hlow hhigh] at hdecodes
  exact ⟨b, rest, rfl, hlow, hhigh, hdecodes⟩

end

/-- The first byte of a character says how many there are, and confines the second. -/
theorem first_cases (b : Nat) (hb : b < 256) :
    (b ≤ 127 ∧ first b = ([.char (Char.ofNat b)], .start)) ∨
    (0xC2 ≤ b ∧ b ≤ 0xDF ∧ first b = ([], .inside 1 (b - 0xC0) 0 0x80 0xBF)) ∨
    (∃ low high, 0xE0 ≤ b ∧ b ≤ 0xEF ∧ first b = ([], .inside 1 (b - 0xE0) 1 low high) ∧
      0x80 ≤ low ∧ high ≤ 0xBF ∧ (b = 0xE0 → 0xA0 ≤ low) ∧ (b = 0xED → high ≤ 0x9F)) ∨
    (∃ low high, 0xF0 ≤ b ∧ b ≤ 0xF4 ∧ first b = ([], .inside 1 (b - 0xF0) 2 low high) ∧
      0x80 ≤ low ∧ high ≤ 0xBF ∧ (b = 0xF0 → 0x90 ≤ low) ∧ (b = 0xF4 → high ≤ 0x8F)) ∨
    first b = ([.fault], .start) := by
  unfold first
  split
  · exact .inl ⟨by omega, rfl⟩
  split
  · next h => exact .inr (.inl ⟨h.1, h.2, rfl⟩)
  split
  · next h =>
    subst h
    exact .inr (.inr (.inl ⟨0xA0, 0xBF, by omega, by omega, rfl, by omega⟩))
  split
  · next h =>
    subst h
    exact .inr (.inr (.inl ⟨0x80, 0x9F, by omega, by omega, rfl, by omega⟩))
  split
  · exact .inr (.inr (.inl ⟨0x80, 0xBF, by omega, by omega, rfl, by omega⟩))
  split
  · next h =>
    subst h
    exact .inr (.inr (.inr (.inl ⟨0x90, 0xBF, by omega, by omega, rfl, by omega⟩)))
  split
  · exact .inr (.inr (.inr (.inl ⟨0x80, 0xBF, by omega, by omega, rfl, by omega⟩)))
  split
  · next h =>
    subst h
    exact .inr (.inr (.inr (.inl ⟨0x80, 0x8F, by omega, by omega, rfl, by omega⟩)))
  · exact .inr (.inr (.inr (.inr rfl)))

/-- The bytes of a character, from its code point. -/
theorem utf8EncodeChar_ofNat {v : Nat} (hvalid : v < 0xD800 ∨ 0xDFFF < v ∧ v < 0x110000) :
    String.utf8EncodeChar (Char.ofNat v) =
      if v ≤ 127 then [UInt8.ofNat v]
      else if v ≤ 2047 then [UInt8.ofNat (v / 64 % 32 + 192), UInt8.ofNat (v % 64 + 128)]
      else if v ≤ 65535 then
        [UInt8.ofNat (v / 4096 % 16 + 224), UInt8.ofNat (v / 64 % 64 + 128), UInt8.ofNat (v % 64 + 128)]
      else [UInt8.ofNat (v / 262144 % 8 + 240), UInt8.ofNat (v / 4096 % 64 + 128),
        UInt8.ofNat (v / 64 % 64 + 128), UInt8.ofNat (v % 64 + 128)] := by
  have hv : (Char.ofNat v).val.toNat = v := by
    have hchar : v.isValidChar := hvalid
    rw [Char.ofNat, dif_pos hchar]
    rfl
  rw [String.utf8EncodeChar, hv]

theorem eq_ofNat {b : UInt8} {n : Nat} (hb : b.toNat = n) : b = UInt8.ofNat n := by
  rw [← hb, UInt8.ofNat_toNat]

theorem exists_char_of_decodes {b : UInt8} {bytes : List UInt8} {t : Text}
    (hdecodes : Decodes .start (b :: bytes) t) :
    ∃ c back others, b :: bytes = String.utf8EncodeChar c ++ back ∧ t = c :: others ∧
      Decodes .start back others := by
  have hb : b.toNat < 256 := b.toNat_lt
  rcases first_cases b.toNat hb with ⟨hle, hfirst⟩ | ⟨hlow, hhigh, hfirst⟩ |
    ⟨low, high, hlow, hhigh, hfirst, hbounds⟩ | ⟨low, high, hlow, hhigh, hfirst, hbounds⟩ | hfirst
  · rw [Decodes, run_cons, step, hfirst] at hdecodes
    obtain ⟨hout, hstate⟩ := Prod.mk.inj hdecodes
    cases t with
    | nil => cases hout
    | cons c others =>
      obtain ⟨hc, hothers⟩ := List.cons.inj hout
      refine ⟨c, bytes, others, ?_, rfl, Prod.ext hothers hstate⟩
      rw [← Decoded.char.inj hc, utf8EncodeChar_ofNat (by omega), if_pos hle, UInt8.ofNat_toNat]
      rfl
  · rw [Decodes, run_cons, step, hfirst] at hdecodes
    obtain ⟨c, rest, others, rfl, hc, hc', rfl, hrest⟩ := decodes_inside_zero hdecodes
    refine ⟨_, rest, others, ?_, rfl, hrest⟩
    rw [utf8EncodeChar_ofNat (by omega), if_neg (by omega), if_pos (by omega),
      ← eq_ofNat (b := b) (by omega), ← eq_ofNat (b := c) (by omega)]
    rfl
  · rw [Decodes, run_cons, step, hfirst] at hdecodes
    obtain ⟨c, rest, rfl, hc, hc', hsecond⟩ := decodes_inside_succ hdecodes
    obtain ⟨d, rest, others, rfl, hd, hd', rfl, hrest⟩ := decodes_inside_zero hsecond
    refine ⟨_, rest, others, ?_, rfl, hrest⟩
    rw [utf8EncodeChar_ofNat (by omega), if_neg (by omega), if_neg (by omega), if_pos (by omega),
      ← eq_ofNat (b := b) (by omega), ← eq_ofNat (b := c) (by omega), ← eq_ofNat (b := d) (by omega)]
    rfl
  · rw [Decodes, run_cons, step, hfirst] at hdecodes
    obtain ⟨c, rest, rfl, hc, hc', hsecond⟩ := decodes_inside_succ hdecodes
    obtain ⟨d, rest, rfl, hd, hd', hthird⟩ := decodes_inside_succ hsecond
    obtain ⟨e, rest, others, rfl, he, he', rfl, hrest⟩ := decodes_inside_zero hthird
    refine ⟨_, rest, others, ?_, rfl, hrest⟩
    rw [utf8EncodeChar_ofNat (by omega), if_neg (by omega), if_neg (by omega), if_neg (by omega),
      ← eq_ofNat (b := b) (by omega), ← eq_ofNat (b := c) (by omega), ← eq_ofNat (b := d) (by omega),
      ← eq_ofNat (b := e) (by omega)]
    rfl
  · rw [Decodes, run_cons, step, hfirst] at hdecodes
    cases t with
    | nil => cases (Prod.mk.inj hdecodes).1
    | cons c others => cases (List.cons.inj (Prod.mk.inj hdecodes).1).1

theorem eq_encode_of_decodes {bytes : List UInt8} {t : Text} (hdecodes : Decodes .start bytes t) :
    bytes = encode t := by
  induction t generalizing bytes with
  | nil =>
    cases bytes with
    | nil => rfl
    | cons b bytes =>
      obtain ⟨c, back, others, -, hnil, -⟩ := exists_char_of_decodes hdecodes
      cases hnil
  | cons c t ih =>
    cases bytes with
    | nil => cases (Prod.mk.inj hdecodes).1
    | cons b bytes =>
      obtain ⟨d, back, others, hbytes, hcons, hback⟩ := exists_char_of_decodes hdecodes
      obtain ⟨rfl, rfl⟩ := List.cons.inj hcons
      rw [hbytes, ih hback]
      rfl

theorem map_char_toChar {out : List Decoded} (hsound : .fault ∉ out) :
    (out.map Decoded.toChar).map .char = out := by
  rw [List.map_map, List.map_congr_left (g := id), List.map_id]
  intro decoded hmem
  cases decoded with
  | char c => rfl
  | fault => exact absurd hmem hsound

/-- The bytes that stand for a text are its encoding and no others. -/
theorem decode?_eq_some_iff {bytes : List UInt8} {t : Text} :
    decode? bytes = some t ↔ bytes = encode t := by
  constructor
  · intro hdecode
    unfold decode? at hdecode
    split at hdecode
    · next out hrun =>
      split at hdecode
      · cases hdecode
      · next hsound =>
        cases hdecode
        apply eq_encode_of_decodes
        rw [Decodes, hrun, map_char_toChar hsound]
    · cases hdecode
  · rintro rfl
    have hsound : Decoded.fault ∉ t.map Decoded.char := by simp
    rw [decode?, run_encode]
    dsimp only
    rw [if_neg hsound, List.map_map]
    exact congrArg some (List.map_id t)

/-! ### Bytes that are cut -/

/-- These are the first bytes of a character, but not all of them, or nothing. -/
def IsPart (part : List UInt8) : Prop :=
  part = [] ∨ ∃ c, part <+: String.utf8EncodeChar c ∧ part.length < (String.utf8EncodeChar c).length

/-- Wherever the bytes of a text are cut, there is a part of a character behind whole ones. -/
theorem exists_part_of_prefix {bytes : List UInt8} {t : Text} (hlead : bytes <+: encode t) :
    ∃ front back part, t = front ++ back ∧ bytes = encode front ++ part ∧ IsPart part ∧
      part <+: encode back := by
  induction t generalizing bytes with
  | nil =>
    obtain rfl := List.prefix_nil.1 hlead
    exact ⟨[], [], [], rfl, rfl, .inl rfl, List.nil_prefix⟩
  | cons c t ih =>
    have hcons : encode (c :: t) = String.utf8EncodeChar c ++ encode t := rfl
    by_cases hshort : bytes.length < (String.utf8EncodeChar c).length
    · have hlead' := hlead
      rw [hcons] at hlead'
      have hpart : bytes <+: String.utf8EncodeChar c :=
        List.prefix_of_prefix_length_le hlead' (List.prefix_append _ _) (Nat.le_of_lt hshort)
      exact ⟨[], c :: t, bytes, rfl, rfl, .inr ⟨c, hpart, hshort⟩, hlead⟩
    · rw [hcons] at hlead
      obtain ⟨rest, rfl⟩ : String.utf8EncodeChar c <+: bytes :=
        List.prefix_of_prefix_length_le (List.prefix_append _ _) hlead (Nat.le_of_not_lt hshort)
      obtain ⟨front, back, part, rfl, rfl, hpart, hback⟩ := ih ((List.prefix_append_right_inj _).1 hlead)
      refine ⟨c :: front, back, part, rfl, ?_, hpart, hback⟩
      exact (List.append_assoc (String.utf8EncodeChar c) (encode front) part).symm

theorem IsPart.run_eq {part : List UInt8} (hpart : IsPart part) :
    ∃ state, run .start part = ([], state) ∧ state.bytesRead = part.length := by
  rcases hpart with rfl | ⟨c, hlead, hshort⟩
  · exact ⟨.start, rfl, rfl⟩
  · obtain ⟨state, hrun, hread⟩ := (spells_utf8EncodeChar c).inside part.length hshort
    rw [← List.prefix_iff_eq_take.1 hlead] at hrun
    exact ⟨state, hrun, by simpa [State.bytesRead] using hread⟩

/-- Of bytes cut from a text the whole characters are decoded, and the part of one behind them is
    kept. -/
theorem decodeArrived_encode {part : List UInt8} (t : Text) (hpart : IsPart part) :
    decodeArrived (encode t ++ part) = (t, part) := by
  obtain ⟨state, hrun, hread⟩ := hpart.run_eq
  have hall : run .start (encode t ++ part) = (t.map .char, state) := by
    rw [run_append, run_encode, hrun, List.append_nil]
  have hsound : Decoded.fault ∉ t.map Decoded.char := by simp
  have htext : (t.map Decoded.char).map Decoded.toChar = t := by
    rw [List.map_map]
    exact List.map_id t
  rw [decodeArrived, hall]
  dsimp only
  rw [if_neg hsound, htext, hread, List.length_append, Nat.add_sub_cancel, List.drop_left]

end DebugClient.Utf8
