import Mathlib.Data.List.Basic
import Mathlib.Data.List.Forall2
import Mathlib.Data.List.Nodup
import DebugClient.Json.Quote
import DebugClient.Json.Record
import DebugClient.Proofs.Text.Joining

/-!
What has been written as JSON is read back: strings whatever characters they hold, numbers within
their limit, and from these lists and records, wherever they stand.
-/

namespace DebugClient.Json
open Numeral

/-- What may stand behind a value: a comma or a closing bracket, if anything. -/
def Delimited (t : Text) : Prop := ∀ c ∈ t.head?, c = ',' ∨ c = ']' ∨ c = '}'

/-- The reader takes what is written off the front of the text and gives the value. -/
def Reads {α : Type} (read : Text → Except Fault (α × Text)) (written : Text) (a : α) : Prop :=
  ∀ rest, Delimited rest → read (written ++ rest) = .ok (a, rest)

/-- Begins as strings, numbers, lists and objects do. -/
def Opens (t : Text) : Prop := ∃ c s, t = c :: s ∧ (c = '"' ∨ c = '[' ∨ c = '{' ∨ c.isDigit)

theorem delimited_cons {c : Char} (hc : c = ',' ∨ c = ']' ∨ c = '}') (t : Text) :
    Delimited (c :: t) := by
  intro d hd
  rw [List.head?_cons, Option.mem_some_iff] at hd
  rwa [← hd]

theorem skipSpace_cons {c : Char} (hc : isSpace c = false) (t : Text) :
    skipSpace (c :: t) = c :: t := List.dropWhile_cons_of_neg (by rw [hc]; exact Bool.false_ne_true)

theorem isSpace_of_isDigit {c : Char} (hc : c.isDigit) : isSpace c = false := by
  simp only [isSpace, Bool.or_eq_false_iff, beq_eq_false_iff_ne]
  refine ⟨⟨⟨?_, ?_⟩, ?_⟩, ?_⟩ <;> rintro rfl <;> exact absurd hc (by decide)

/-- A value that opens is not taken for white space, for the end of a list or for `null`. -/
theorem Opens.exists_cons {t : Text} (hopens : Opens t) :
    ∃ c s, t = c :: s ∧ isSpace c = false ∧ c ≠ ']' ∧ c ≠ 'n' := by
  obtain ⟨c, s, rfl, hc⟩ := hopens
  refine ⟨c, s, rfl, ?_⟩
  rcases hc with rfl | rfl | rfl | hdigit
  · decide
  · decide
  · decide
  · refine ⟨isSpace_of_isDigit hdigit, ?_, ?_⟩ <;> rintro rfl <;> exact absurd hdigit (by decide)

/-! ### Strings -/

theorem fourHex?_of_lt : ∀ n < 0x20,
    fourHex? '0' '0' (n / 16).digitChar (n % 16).digitChar = some n := by
  decide

theorem stringRest_escapeChar (c : Char) (t : Text) :
    stringRest (escapeChar c ++ t) = addChar c (stringRest t) := by
  unfold escapeChar
  split
  · rfl
  · rfl
  · rfl
  · rfl
  · rfl
  · rfl
  · rfl
  · rename_i hquote hbackslash _ _ _ _ _
    by_cases hcontrol : isControl c
    -- The other control characters are written by their numbers, which are no halves of a pair.
    · have hlt : c.toNat < 0x20 := by simpa [isControl] using hcontrol
      have htrailing : isTrailing c.toNat = false := by
        rw [isTrailing, Bool.and_eq_false_iff, decide_eq_false_iff_not]
        omega
      have hleading : isLeading c.toNat = false := by
        rw [isLeading, Bool.and_eq_false_iff, decide_eq_false_iff_not]
        omega
      rw [if_pos hcontrol]
      simp only [List.cons_append, List.nil_append, stringRest, fourHex?_of_lt _ hlt, htrailing,
        hleading, Bool.false_eq_true, if_false, Char.ofNat_toNat]
    · rw [if_neg hcontrol, List.singleton_append, stringRest, if_neg hcontrol]
      · exact hquote
      · exact fun _ _ _ _ _ heq => absurd heq hbackslash
      · exact fun _ heq => absurd heq hbackslash
      · exact fun heq => absurd heq hbackslash
      · exact fun _ _ heq => absurd heq hbackslash

theorem stringRest_flatMap_escapeChar (s t : Text) :
    stringRest (s.flatMap escapeChar ++ '"' :: t) = .ok (s, t) := by
  induction s with
  | nil => rfl
  | cons c s ih =>
    rw [List.flatMap_cons, List.append_assoc, stringRest_escapeChar, ih]
    rfl

theorem stringRest_quote (s t : Text) : ∃ rest, quote s ++ t = '"' :: rest ∧
    stringRest rest = .ok (s, t) := by
  refine ⟨s.flatMap escapeChar ++ '"' :: t, ?_, stringRest_flatMap_escapeChar s t⟩
  simp [quote]

theorem reads_string (s : Text) : Reads string (quote s) s := by
  intro rest _
  obtain ⟨t, heq, hrest⟩ := stringRest_quote s rest
  rw [heq, string, skipSpace_cons (by rfl)]
  exact hrest

theorem opens_quote (s : Text) : Opens (quote s) := ⟨'"', _, rfl, .inl rfl⟩

/-! ### Numbers -/

theorem significand_append {m k : Nat} {s : Text} (hs : significand m s = (k, 0)) (t : Text) :
    significand m (s ++ t) = significand k t := by
  induction s generalizing m with
  | nil =>
    rw [significand] at hs
    rw [List.nil_append, (Prod.mk.inj hs).1]
  | cons c s ih =>
    rw [significand] at hs
    rw [List.cons_append, significand]
    split at hs
    · rename_i hle
      rw [if_pos hle]
      exact ih hs
    · cases hs

theorem digitChar_of_lt_ten : ∀ n < 10, n.digitChar.toNat - '0'.toNat = n := by decide

theorem significand_digitChar {m d : Nat} (hd : d < 10) (hle : m * 10 + d ≤ largest64) :
    significand m [d.digitChar] = (m * 10 + d, 0) := by
  rw [significand, digitChar_of_lt_ten d hd, if_pos hle, significand]

theorem significand_decimal {n : Nat} (hn : n ≤ largest64) : significand 0 (decimal n) = (n, 0) := by
  rw [decimal]
  induction n using Nat.strongRecOn with
  | _ n ih =>
    rcases Nat.lt_or_ge n 10 with hlt | hge
    · rw [Nat.toDigits_of_lt_base hlt, significand_digitChar hlt (by omega)]
      simp
    · have hdigit : n / 10 * 10 + n % 10 = n := by omega
      rw [Nat.toDigits_of_base_le (by decide) hge,
        significand_append (ih (n / 10) (by omega) (by omega)),
        significand_digitChar (by omega) (by omega), hdigit]

theorem isDigit_of_mem_decimal {n : Nat} {c : Char} (hc : c ∈ decimal n) : c.isDigit :=
  Nat.isDigit_of_mem_toDigits (by decide) (by decide) hc

theorem digitChar_ne_zero : ∀ n < 10, 0 < n → n.digitChar ≠ '0' := by decide

/-- A decimal number begins with a zero only if it is zero. -/
theorem head?_decimal {n : Nat} (hn : 0 < n) : (decimal n).head? ≠ some '0' := by
  rw [decimal]
  induction n using Nat.strongRecOn with
  | _ n ih =>
    rcases Nat.lt_or_ge n 10 with hlt | hge
    · rw [Nat.toDigits_of_lt_base hlt, List.head?_cons]
      exact mt Option.some.inj (digitChar_ne_zero n hlt hn)
    · rw [Nat.toDigits_of_base_le (by decide) hge, List.head?_append_of_ne_nil _ Nat.toDigits_ne_nil]
      exact ih (n / 10) (by omega) (by omega)

theorem exists_decimal_eq_cons (n : Nat) : ∃ c digits, decimal n = c :: digits ∧ c.isDigit ∧
    (c = '0' → digits = []) := by
  obtain ⟨c, digits, heq⟩ := List.exists_cons_of_ne_nil
    (show decimal n ≠ [] from Nat.toDigits_ne_nil)
  refine ⟨c, digits, heq, isDigit_of_mem_decimal (heq ▸ List.mem_cons_self), ?_⟩
  rintro rfl
  rcases Nat.eq_zero_or_pos n with rfl | hpos
  · exact (List.cons.inj heq).2.symm
  · exact absurd (congrArg List.head? heq) (head?_decimal hpos)

theorem takeWhile_decimal {rest : Text} (hrest : Delimited rest) (n : Nat) :
    (decimal n ++ rest).takeWhile Char.isDigit = decimal n ∧
      (decimal n ++ rest).dropWhile Char.isDigit = rest := by
  have hdigits : ∀ c ∈ decimal n, c.isDigit := fun c => isDigit_of_mem_decimal
  have hnone : rest = [] ∨ ∃ c t, rest = c :: t ∧ c.isDigit = false := by
    cases rest with
    | nil => exact .inl rfl
    | cons c t =>
      refine .inr ⟨c, t, rfl, ?_⟩
      rcases hrest c rfl with rfl | rfl | rfl <;> rfl
  rw [List.takeWhile_append_of_pos hdigits, List.dropWhile_append_of_pos hdigits]
  rcases hnone with rfl | ⟨c, t, rfl, hc⟩
  · exact ⟨List.append_nil _, rfl⟩
  · rw [List.takeWhile_cons, List.dropWhile_cons, hc]
    exact ⟨List.append_nil _, rfl⟩

theorem number_decimal {n : Nat} (hn : n ≤ largest64) {rest : Text} (hrest : Delimited rest) :
    number (decimal n ++ rest) = .ok (.natural n, rest) := by
  obtain ⟨c, digits, heq, hdigit, hzero⟩ := exists_decimal_eq_cons n
  obtain ⟨htake, hdrop⟩ := takeWhile_decimal hrest n
  have hsign : c ≠ '-' := by
    rintro rfl
    exact absurd hdigit (by decide)
  have hform : (!c.isDigit || (c == '0' && decide (1 < (c :: digits).length))) = false := by
    rw [hdigit, Bool.not_true, Bool.false_or, Bool.and_eq_false_imp, beq_iff_eq]
    rintro rfl
    rw [hzero rfl]
    rfl
  rw [heq, List.cons_append] at htake hdrop
  have hsignificand := significand_decimal hn
  rw [heq] at hsignificand
  have hunsigned : unsigned (c :: (digits ++ rest)) = .ok (.natural n, rest) := by
    rw [unsigned]
    dsimp only
    rw [htake, hdrop, if_neg (by rw [hform]; exact Bool.false_ne_true), hsignificand]
    dsimp only
    split
    · rcases hrest _ rfl with hc | hc | hc <;> cases hc
    · rcases hrest _ rfl with hc | hc | hc <;> cases hc
    · rcases hrest _ rfl with hc | hc | hc <;> cases hc
    · rfl
  rw [heq, List.cons_append, number]
  · exact hunsigned
  · exact fun _ hminus => absurd (List.cons.inj hminus).1 hsign

theorem reads_natural {limit n : Nat} (hn : n ≤ limit) (hlimit : limit ≤ largest64) :
    Reads (natural limit) (decimal n) n := by
  intro rest hrest
  obtain ⟨c, digits, heq, hdigit, -⟩ := exists_decimal_eq_cons n
  have hnumber := number_decimal (Nat.le_trans hn hlimit) hrest
  rw [heq, List.cons_append] at hnumber
  rw [natural, heq, List.cons_append, skipSpace_cons (isSpace_of_isDigit hdigit)]
  dsimp only
  rw [hdigit, Bool.true_or, if_pos rfl, hnumber]
  exact if_pos hn

theorem opens_decimal (n : Nat) : Opens (decimal n) :=
  have ⟨c, digits, heq, hdigit, _⟩ := exists_decimal_eq_cons n
  ⟨c, digits, heq, .inr (.inr (.inr hdigit))⟩

section
variable {α : Type} {read : Text → Except Fault (α × Text)}

/-! ### Values that may be missing -/

theorem Reads.optional {t : Text} {a : α} (hread : Reads read t a) (hopens : Opens t) :
    Reads (optional read) t (some a) := by
  intro rest hrest
  have hvalue := hread rest hrest
  obtain ⟨c, s, rfl, hspace, -, hnull⟩ := hopens.exists_cons
  rw [List.cons_append] at hvalue ⊢
  rw [Json.optional, skipSpace_cons hspace]
  split
  · rename_i heq
    exact absurd (List.cons.inj heq).1 hnull
  · rw [hvalue]
    rfl

theorem reads_null : Reads (optional read) "null".toList none := fun _ _ => rfl

/-! ### Lists -/

theorem intercalate_cons {β : Type} (separator item : List β) (items : List (List β)) :
    separator.intercalate (item :: items) = item ++ items.flatMap (separator ++ ·) := by
  induction items generalizing item with
  | nil => simp [List.intercalate]
  | cons next items ih =>
    rw [List.intercalate_cons_cons, ih, List.flatMap_cons, List.append_assoc]
    simp

theorem length_le_length_flatMap (items : List Text) :
    items.length ≤ (items.flatMap ([','] ++ ·)).length := by
  induction items with
  | nil => exact Nat.le_refl _
  | cons item items ih =>
    rw [List.flatMap_cons, List.length_append, List.length_append, List.length_cons]
    simp only [List.length_singleton]
    omega

theorem delimited_flatMap (items : List Text) {close : Char} (hclose : close = ']' ∨ close = '}')
    (rest : Text) : Delimited (items.flatMap ([','] ++ ·) ++ close :: rest) := by
  cases items with
  | nil => exact delimited_cons (.inr hclose) rest
  | cons item items => exact delimited_cons (.inl rfl) _

theorem nextElement_true {t : Text} (hopens : Opens t) (rest : Text) :
    nextElement true (t ++ rest) = .ok (some (t ++ rest)) := by
  obtain ⟨c, s, rfl, hspace, hend, -⟩ := hopens.exists_cons
  rw [List.cons_append, nextElement, skipSpace_cons hspace]
  split
  · rename_i heq
    cases heq
  · rename_i heq
    exact absurd (List.cons.inj heq).1 hend
  · rename_i heq
    rw [if_pos rfl, heq]

theorem nextElement_false {t : Text} (hopens : Opens t) (rest : Text) :
    nextElement false ([','] ++ t ++ rest) = .ok (some (t ++ rest)) := by
  obtain ⟨c, s, rfl, hspace, hend, -⟩ := hopens.exists_cons
  have htext : [','] ++ (c :: s) ++ rest = ',' :: c :: (s ++ rest) := rfl
  rw [htext, nextElement, skipSpace_cons (by rfl)]
  split
  · rename_i heq
    cases heq
  · rename_i heq
    cases heq
  · rename_i heq
    obtain ⟨rfl, rfl⟩ := List.cons.inj heq
    rw [if_neg Bool.false_ne_true, if_pos rfl, skipSpace_cons hspace]
    split
    · rename_i heq
      cases heq
    · rename_i heq
      exact absurd (List.cons.inj heq).1 hend
    · rfl

/-- Elements that have been written, each behind its comma, and the end of the list. -/
theorem elements_flatMap {items : List Text} {as : List α} (hread : List.Forall₂ (Reads read) items as)
    (hopens : ∀ item ∈ items, Opens item) {rounds : Nat} (hrounds : items.length < rounds)
    (rest : Text) :
    elements read rounds false (items.flatMap ([','] ++ ·) ++ ']' :: rest) = .ok (as, rest) := by
  induction hread generalizing rounds with
  | nil =>
    obtain ⟨rounds, rfl⟩ := Nat.exists_eq_succ_of_ne_zero (Nat.ne_of_gt hrounds)
    rfl
  | @cons item a items as hitem hread ih =>
    obtain ⟨rounds, rfl⟩ := Nat.exists_eq_succ_of_ne_zero (Nat.ne_of_gt (Nat.zero_lt_of_lt hrounds))
    obtain ⟨hhead, htail⟩ := List.forall_mem_cons.1 hopens
    rw [List.flatMap_cons, List.append_assoc, elements, nextElement_false hhead]
    have hothers := ih htail (Nat.lt_of_succ_lt_succ hrounds)
    have hvalue := hitem _ (delimited_flatMap items (.inl rfl) rest)
    simp only [bind, Except.bind, hvalue, hothers]

theorem reads_list {items : List Text} {as : List α} (hread : List.Forall₂ (Reads read) items as)
    (hopens : ∀ item ∈ items, Opens item) : Reads (list read) (writeList items) as := by
  intro rest _
  cases hread with
  | nil => rfl
  | @cons item a items as hitem hread =>
    obtain ⟨hhead, htail⟩ := List.forall_mem_cons.1 hopens
    have htext : writeList (item :: items) ++ rest =
        '[' :: (item ++ (items.flatMap ([','] ++ ·) ++ ']' :: rest)) := by
      rw [writeList, intercalate_cons]
      simp
    have hvalue := hitem _ (delimited_flatMap items (.inl rfl) rest)
    have hrounds : items.length < (item ++ (items.flatMap ([','] ++ ·) ++ ']' :: rest)).length := by
      have hle := length_le_length_flatMap items
      rw [List.length_append, List.length_append, List.length_cons]
      omega
    rw [htext, list, skipSpace_cons (by rfl)]
    change elements read _ true _ = _
    rw [elements, nextElement_true hhead]
    simp only [bind, Except.bind, hvalue, elements_flatMap hread htail hrounds]

end

/-! ### Records -/

section
variable {α : Type} {fields : List (Field α)}

def writeMember (member : Text × Text) : Text := quote member.1 ++ ':' :: member.2

/-- What is written under a field's name is read by it as a change to the record. -/
def Fills (fields : List (Field α)) (member : Text × Text) (change : α → α) : Prop :=
  ∃ field, fields.find? (·.name = member.1) = some field ∧ Reads field.read member.2 change

/-- The record with the changes made and the members' names noted. -/
def Draft.fill (draft : Draft α) (written : List (Text × Text)) (changes : List (α → α)) :
    Draft α where
  value := changes.foldl (fun a change => change a) draft.value
  present := (written.map Prod.fst).reverse ++ draft.present

theorem Draft.fill_cons (draft : Draft α) (member : Text × Text) (written : List (Text × Text))
    (change : α → α) (changes : List (α → α)) :
    draft.fill (member :: written) (change :: changes) =
      fill { value := change draft.value, present := member.1 :: draft.present } written changes := by
  rw [fill, List.map_cons, List.reverse_cons, List.append_assoc]
  rfl

theorem Reads.field {β : Type} {read : Text → Except Fault (β × Text)} {t : Text} {b : β}
    (hread : Reads read t b) (name : String) (presence : Presence) (set : β → α → α) :
    Reads (Field.of name presence read set).read t (set b) := by
  intro rest hrest
  dsimp only [Field.of]
  rw [hread rest hrest]
  rfl

theorem fieldMember_of_fills {member : Text × Text} {change : α → α}
    (hfills : Fills fields member change) {draft : Draft α} (hnew : member.1 ∉ draft.present)
    {rest : Text} (hrest : Delimited rest) :
    fieldMember fields member.1 draft (':' :: member.2 ++ rest) =
      .ok ({ value := change draft.value, present := member.1 :: draft.present }, rest) := by
  obtain ⟨field, hfield, hread⟩ := hfills
  have hcolon : colon (':' :: member.2 ++ rest) = .ok (member.2 ++ rest) := by
    rw [colon, List.cons_append, skipSpace_cons (by rfl)]
    rfl
  rw [fieldMember, hfield]
  dsimp only
  rw [if_neg hnew, hcolon]
  simp only [bind, Except.bind, hread rest hrest]

/-- A member is read in one round, behind its comma unless it is the first. -/
theorem members_of_fills {member : Text × Text} {change : α → α}
    (hfills : Fills fields member change) {draft : Draft α} (hnew : member.1 ∉ draft.present)
    {rest : Text} (hrest : Delimited rest) (rounds : Nat) :
    let next : Draft α := { value := change draft.value, present := member.1 :: draft.present }
    members (fieldMember fields) (rounds + 1) true draft (writeMember member ++ rest) =
        members (fieldMember fields) rounds false next rest ∧
      members (fieldMember fields) (rounds + 1) false draft ([','] ++ writeMember member ++ rest) =
        members (fieldMember fields) rounds false next rest := by
  obtain ⟨t, heq, hname⟩ := stringRest_quote member.1 (':' :: member.2 ++ rest)
  have hmember := fieldMember_of_fills hfills hnew hrest
  have htext : writeMember member ++ rest = '"' :: t := by
    rw [writeMember, List.append_assoc, heq]
  refine ⟨?_, ?_⟩
  · rw [htext, members, skipSpace_cons (by rfl)]
    simp only [bind, Except.bind, hname, hmember, if_true]
  · rw [List.append_assoc, htext, members, List.singleton_append, skipSpace_cons (by rfl)]
    simp only [skipSpace_cons (show isSpace '"' = false by rfl), bind, Except.bind, hname, hmember,
      Bool.false_eq_true, if_false]

/-- Members that have been written, each behind its comma, and the end of the object. -/
theorem members_flatMap {written : List (Text × Text)} {changes : List (α → α)}
    (hfills : List.Forall₂ (Fills fields) written changes) {draft : Draft α}
    (hnames : (draft.fill written changes).present.Nodup) {rounds : Nat}
    (hrounds : written.length < rounds) (rest : Text) :
    members (fieldMember fields) rounds false draft
        ((written.map writeMember).flatMap ([','] ++ ·) ++ '}' :: rest) =
      .ok (draft.fill written changes, rest) := by
  induction hfills generalizing draft rounds with
  | nil =>
    obtain ⟨rounds, rfl⟩ := Nat.exists_eq_succ_of_ne_zero (Nat.ne_of_gt hrounds)
    rfl
  | @cons member change written changes hmember hfills ih =>
    obtain ⟨rounds, rfl⟩ := Nat.exists_eq_succ_of_ne_zero (Nat.ne_of_gt (Nat.zero_lt_of_lt hrounds))
    rw [Draft.fill_cons] at hnames
    have hnew : member.1 ∉ draft.present :=
      (List.nodup_cons.1 (List.nodup_append.1 hnames).2.1).1
    rw [List.map_cons, List.flatMap_cons, List.append_assoc,
      (members_of_fills hmember hnew (delimited_flatMap _ (.inr rfl) rest) rounds).2,
      ih hnames (Nat.lt_of_succ_lt_succ hrounds), Draft.fill_cons]

/-- An object is read as a record if its members fill fields of the record, none of them twice and
    no needed one missing. -/
theorem reads_record {written : List (Text × Text)} {changes : List (α → α)} {initial a : α}
    (hfills : List.Forall₂ (Fills fields) written changes) (hnames : (written.map Prod.fst).Nodup)
    (hneeded : ∀ field ∈ fields, field.presence = .needed → field.name ∈ written.map Prod.fst)
    (hvalue : changes.foldl (fun a change => change a) initial = a) :
    Reads (record fields initial) (writeObject written) a := by
  intro rest _
  have hpresent : ((Draft.mk initial []).fill written changes).present =
      (written.map Prod.fst).reverse := List.append_nil _
  have hmembers : ∃ t, writeObject written ++ rest = '{' :: t ∧
      members (fieldMember fields) (t.length + 1) true (.mk initial []) t =
        .ok ((Draft.mk initial []).fill written changes, rest) := by
    cases hfills with
    | nil => exact ⟨'}' :: rest, rfl, rfl⟩
    | @cons member change written changes hmember hfills =>
      let others := (written.map writeMember).flatMap ([','] ++ ·) ++ '}' :: rest
      have htext : writeObject (member :: written) ++ rest = '{' :: (writeMember member ++ others) := by
        change '{' :: [','].intercalate (writeMember member :: written.map writeMember) ++ ['}'] ++
          rest = _
        rw [intercalate_cons]
        simp [others]
      have hrounds : written.length < (writeMember member ++ others).length := by
        have hle := length_le_length_flatMap (written.map writeMember)
        rw [List.length_map] at hle
        rw [List.length_append, List.length_append, List.length_cons]
        omega
      rw [← List.nodup_reverse, ← hpresent, Draft.fill_cons] at hnames
      refine ⟨writeMember member ++ others, htext, ?_⟩
      rw [(members_of_fills hmember List.not_mem_nil (delimited_flatMap _ (.inr rfl) rest) _).1,
        members_flatMap hfills hnames hrounds, Draft.fill_cons]
  have hcomplete : (fields.all fun field => field.presence ≠ .needed ||
      ((Draft.mk initial []).fill written changes).present.contains field.name) = true := by
    rw [hpresent, List.all_eq_true]
    intro field hfield
    by_cases hpresence : field.presence = .needed
    · have hname := hneeded field hfield hpresence
      simpa [hpresence] using hname
    · simp [hpresence]
  obtain ⟨t, htext, hmembers⟩ := hmembers
  rw [htext, record, skipSpace_cons (by rfl)]
  simp only [bind, Except.bind, hmembers, hcomplete, if_true]
  rw [← hvalue]
  rfl

theorem opens_writeObject (written : List (Text × Text)) : Opens (writeObject written) :=
  ⟨'{', _, rfl, .inr (.inr (.inl rfl))⟩

end

/-! ### Line breaks -/

theorem newline_notMem_escapeChar (c : Char) : '\n' ∉ escapeChar c := by
  have hdigit : ∀ n < 16, n.digitChar ≠ '\n' := by decide
  unfold escapeChar
  split
  · decide
  · decide
  · decide
  · decide
  · decide
  · decide
  · decide
  · rename_i hnewline _ _
    by_cases hcontrol : isControl c
    · have hlt : c.toNat < 0x20 := by simpa [isControl] using hcontrol
      have hhigh := hdigit (c.toNat / 16) (by omega)
      have hlow := hdigit (c.toNat % 16) (by omega)
      rw [if_pos hcontrol]
      simp [hhigh.symm, hlow.symm]
    · rw [if_neg hcontrol, List.mem_singleton]
      exact fun heq => hnewline heq.symm

theorem newline_notMem_quote (s : Text) : '\n' ∉ quote s := by
  have hchars : '\n' ∉ s.flatMap escapeChar := by
    rw [List.mem_flatMap]
    rintro ⟨c, -, hc⟩
    exact newline_notMem_escapeChar c hc
  simp [quote, hchars]

theorem newline_notMem_decimal (n : Nat) : '\n' ∉ decimal n := fun hmem =>
  absurd (isDigit_of_mem_decimal hmem) (by decide)

theorem newline_notMem_writeObject {members : List (Text × Text)}
    (hvalues : ∀ member ∈ members, '\n' ∉ member.2) : '\n' ∉ writeObject members := by
  have hmembers : ∀ item ∈ members.map writeMember, '\n' ∉ item := by
    intro item hitem
    obtain ⟨member, hmember, rfl⟩ := List.mem_map.1 hitem
    simp [writeMember, newline_notMem_quote, hvalues member hmember]
  have hinside : '\n' ∉ [','].intercalate (members.map writeMember) :=
    Text.notMem_intercalate (by decide) hmembers
  change '\n' ∉ '{' :: [','].intercalate (members.map writeMember) ++ ['}']
  simp [hinside]

theorem newline_notMem_writeList {items : List Text} (hitems : ∀ item ∈ items, '\n' ∉ item) :
    '\n' ∉ writeList items := by
  have hinside : '\n' ∉ [','].intercalate items := Text.notMem_intercalate (by decide) hitems
  simp [writeList, hinside]

end DebugClient.Json
