import Mathlib.Order.Interval.Set.Basic
import DebugClient.Memory.Observation
import DebugClient.Proofs.Text.Joining
import DebugClient.Proofs.Text.Runs

/-!
Arrays taken apart. The elements of an array stand side by side in the memory of the array, at a
distance that its type tells even where only the first of them were printed.
-/

namespace DebugClient

/-- The addresses that a value takes up. -/
def Value.bytes (value : Value) : Set Nat :=
  match value.address, value.size with
  | some address, some size => Set.Ico address (address + size)
  | _, _ => ∅

namespace Observation
open Text Numeral

/-! ### Array types -/

/-- The base type in front of the first bracket of a type, the white space between them, and the
    length in the brackets. -/
structure IsDimension (base gap inside : Text) (length : Nat) : Prop where
  outside : '[' ∉ base
  firm : trimEnd base = base
  blank : IsGap gap
  closed : ']' ∉ inside
  counted : decimal? largest64 (trim inside) = some length

/-- An array type, its length in the first dimension, and the type of its elements. -/
inductive IsArrayOf : Text → Nat → Text → Prop
  /-- Such as `int [3]`. -/
  | one {base gap inside : Text} {length : Nat} (hdimension : IsDimension base gap inside length) :
      IsArrayOf (base ++ gap ++ '[' :: (inside ++ [']'])) length base
  /-- Such as `char [4][2]`, whose elements are of the type `char [2]`. -/
  | several {base gap inside : Text} {length : Nat} (hdimension : IsDimension base gap inside length)
      (dimensions : Text) :
      IsArrayOf (base ++ gap ++ '[' :: (inside ++ ']' :: '[' :: dimensions)) length
        (base ++ ' ' :: '[' :: dimensions)
  /-- Such as `int (*[3])(void)`, whose elements are of the type `int (*)(void)`. -/
  | within {base gap inside : Text} {length : Nat} (hdimension : IsDimension base gap inside length)
      {c : Char} (hc : c ≠ '[') (rest : Text) :
      IsArrayOf (base ++ gap ++ '[' :: (inside ++ ']' :: c :: rest)) length (base ++ c :: rest)

/-- The length of an array of which so many elements were printed: the one that its type declares, if
    that many fit in. -/
inductive IsLength (type : Text) (printed : Nat) : Nat → Prop
  | declared {length : Nat} {element : Text} (htype : IsArrayOf type length element)
      (hfits : printed ≤ length) : IsLength type printed length
  | printed (hshort : ∀ length element, IsArrayOf type length element → length < printed) :
      IsLength type printed printed

section
variable {type base gap inside rest element : Text} {length printed : Nat}

theorem IsDimension.splitArrayType?_eq (hdimension : IsDimension base gap inside length) (rest : Text) :
    splitArrayType? (base ++ gap ++ '[' :: (inside ++ ']' :: rest)) =
      some (if rest.head? = some '[' then base ++ ' ' :: rest else base ++ rest, length) := by
  have hhead : '[' ∉ base ++ gap := by
    rw [List.mem_append, not_or]
    exact ⟨hdimension.outside, fun hmem => absurd (hdimension.blank _ hmem) (by decide)⟩
  obtain ⟨htake, hdrop⟩ := whiles_append_cons hhead (inside ++ ']' :: rest)
  obtain ⟨htake', hdrop'⟩ := whiles_append_cons hdimension.closed rest
  have hbase : trimEnd (base ++ gap) = base := by
    rw [trimEnd_append_of_blank hdimension.blank, hdimension.firm]
  simp only [splitArrayType?, hdrop, hdrop', htake, htake', hdimension.counted, hbase, Option.map_some]

theorem exists_isDimension (hsplit : splitArrayType? type = some (element, length)) :
    ∃ base gap inside rest, IsDimension base gap inside length ∧
      type = base ++ gap ++ '[' :: (inside ++ ']' :: rest) := by
  rw [splitArrayType?] at hsplit
  split at hsplit
  · cases hsplit
  next _ behind hdrop =>
  split at hsplit
  · cases hsplit
  next _ rest hdrop' =>
  obtain ⟨declared, hcounted, heq⟩ := Option.map_eq_some_iff.1 hsplit
  obtain ⟨-, rfl⟩ := Prod.mk.inj heq
  obtain ⟨hhead, htype⟩ := eq_append_cons_of_dropWhile hdrop
  obtain ⟨hclosed, hbehind⟩ := eq_append_cons_of_dropWhile hdrop'
  obtain ⟨gap, hgap, hbase⟩ := exists_eq_trimEnd (type.takeWhile (· ≠ '['))
  rw [hbase, List.mem_append, not_or] at hhead
  refine ⟨_, gap, _, rest, ⟨hhead.1, trimEnd_trimEnd _, hgap, hclosed, hcounted⟩, ?_⟩
  rw [← hbase, ← hbehind, ← htype]

theorem splitArrayType?_eq_some_iff :
    splitArrayType? type = some (element, length) ↔ IsArrayOf type length element := by
  constructor
  · intro hsplit
    obtain ⟨base, gap, inside, rest, hdimension, rfl⟩ := exists_isDimension hsplit
    rw [hdimension.splitArrayType?_eq] at hsplit
    obtain ⟨rfl, -⟩ := Prod.mk.inj (Option.some.inj hsplit)
    match rest with
    | [] =>
      rw [if_neg (by exact nofun), List.append_nil]
      exact .one hdimension
    | c :: rest =>
      by_cases hc : c = '['
      · subst hc
        exact .several hdimension rest
      · rw [if_neg (by simpa using hc)]
        exact .within hdimension hc rest
  · rintro (hdimension | ⟨hdimension, dimensions⟩ | ⟨hdimension, hc, rest⟩)
    · rw [hdimension.splitArrayType?_eq, if_neg (by exact nofun), List.append_nil]
    · rw [hdimension.splitArrayType?_eq, List.head?_cons, if_pos rfl]
    · rw [hdimension.splitArrayType?_eq, if_neg (by simpa using hc)]

theorem IsArrayOf.unique {other : Text} {count : Nat} (htype : IsArrayOf type length element)
    (hother : IsArrayOf type count other) : count = length ∧ other = element := by
  have hsplit := splitArrayType?_eq_some_iff.2 htype
  rw [splitArrayType?_eq_some_iff.2 hother] at hsplit
  obtain ⟨rfl, rfl⟩ := Prod.mk.inj (Option.some.inj hsplit)
  exact ⟨rfl, rfl⟩

/-- The shape of an array is either declared by its type or that of what was printed. -/
theorem arrayShape_cases (type : Text) (printed : Nat) :
    (∃ element length, IsArrayOf type length element ∧ printed ≤ length ∧
        arrayShape type printed = (element, length)) ∨
      ((∀ length element, IsArrayOf type length element → length < printed) ∧
        arrayShape type printed = (type, printed)) := by
  rw [arrayShape]
  split
  · next element declared hsplit =>
    have htype := splitArrayType?_eq_some_iff.1 hsplit
    by_cases hfits : printed ≤ declared
    · exact .inl ⟨element, declared, htype, hfits, if_pos hfits⟩
    · refine .inr ⟨fun length other hother => ?_, if_neg hfits⟩
      rw [(htype.unique hother).1]
      omega
  · next hnone =>
    refine .inr ⟨fun length element htype => ?_, rfl⟩
    rw [splitArrayType?_eq_some_iff.2 htype] at hnone
    cases hnone

/-- The type of an array and how many elements were printed tell one length. -/
theorem isLength_iff : IsLength type printed length ↔ length = (arrayShape type printed).2 := by
  rcases arrayShape_cases type printed with ⟨element, declared, htype, hfits, hshape⟩ | ⟨hshort, hshape⟩
  · rw [hshape]
    constructor
    · rintro (⟨hother, -⟩ | hshort)
      · exact (htype.unique hother).1
      · exact absurd (hshort declared element htype) (by omega)
    · rintro rfl
      exact .declared htype hfits
  · rw [hshape]
    constructor
    · rintro (⟨htype, hfits⟩ | -)
      · exact absurd (hshort _ _ htype) (by omega)
      · rfl
    · rintro rfl
      exact .printed hshort

theorem le_arrayShape_snd (type : Text) (printed : Nat) : printed ≤ (arrayShape type printed).2 := by
  rcases arrayShape_cases type printed with ⟨element, declared, -, hfits, hshape⟩ | ⟨-, hshape⟩
  · rw [hshape]
    exact hfits
  · rw [hshape]

/-- Elements have the type that is left behind the first dimension, if that dimension is the length. -/
theorem arrayShape_fst_of_isArrayOf (htype : IsArrayOf type (arrayShape type printed).2 element) :
    (arrayShape type printed).1 = element := by
  rcases arrayShape_cases type printed with ⟨other, declared, hother, -, hshape⟩ | ⟨hshort, hshape⟩
  · rw [hshape] at htype ⊢
    exact (htype.unique hother).2
  · rw [hshape] at htype
    exact absurd (hshort printed element htype) (Nat.lt_irrefl printed)

theorem arrayShape_fst_of_not_isArrayOf
    (hnone : ∀ element, ¬ IsArrayOf type (arrayShape type printed).2 element) :
    (arrayShape type printed).1 = type := by
  rcases arrayShape_cases type printed with ⟨element, declared, htype, -, hshape⟩ | ⟨-, hshape⟩
  · rw [hshape] at hnone
    exact absurd htype (hnone element)
  · rw [hshape]

end

/-! ### Elements in memory -/

/-- A value at the place of one element of an array. -/
structure StandsAt (observation : Observation) (start stride length i : Nat) (value : Value) : Prop where
  name_eq : value.name = observation.name
  location_eq : value.location = .stack observation.frame
  address_eq : value.address = some (start + i * stride)
  size_eq : value.size = some stride
  slot_eq : value.slot = some { start, index := i, length }

/-- The elements of an array in the memory that starts there and has that size, side by side in the
    order that they were printed in. -/
structure LaidOut (observation : Observation) (elements : List Literal) (start size length : Nat)
    (values : List Value) : Prop where
  length_eq : values.length = elements.length
  data_eq : values.map (·.data) = elements.map (Literal.data (.stack observation.frame))
  stands : ∀ (i : Nat) (value : Value), values[i]? = some value →
    StandsAt observation start (size / length) length i value
  type_eq : ∀ element, IsArrayOf observation.type length element →
    ∀ value ∈ values, value.type = element
  type_kept : (∀ element, ¬ IsArrayOf observation.type length element) →
    ∀ value ∈ values, value.type = observation.type
  index_lt : ∀ value ∈ values, ∀ slot ∈ value.slot, slot.index < slot.length
  representable : ∀ value ∈ values, ∀ address ∈ value.address, address ≤ largest64
  inside : ∀ value ∈ values, value.bytes ⊆ Set.Ico start (start + size)
  apart : values.Pairwise fun value other => ∀ address ∈ value.bytes, address ∉ other.bytes

/-- The array as one value, with all of its elements in the text. -/
structure KeptWhole (observation : Observation) (start size : Nat) (value : Value) : Prop where
  name_eq : value.name = observation.name
  type_eq : value.type = observation.type
  location_eq : value.location = .stack observation.frame
  address_eq : value.address = some start
  size_eq : value.size = some size
  slot_eq : value.slot = none
  data_eq : value.data = .scalar observation.literal.render

section
variable {observation : Observation} {elements : List Literal} {type : Text}
  {start stride size length i : Nat} {value : Value}

theorem StandsAt.bytes_eq (hplace : StandsAt observation start stride length i value) :
    value.bytes = Set.Ico (start + i * stride) (start + i * stride + stride) := by
  rw [Value.bytes, hplace.address_eq, hplace.size_eq]

theorem map_data_elementValues :
    (observation.elementValues type start stride length elements).map (·.data) =
      elements.map (Literal.data (.stack observation.frame)) := by
  conv_rhs => rw [← List.zipIdx_map_fst 0 elements, List.map_map]
  rw [elementValues, List.map_map]
  rfl

theorem type_of_mem_elementValues
    (hmem : value ∈ observation.elementValues type start stride length elements) :
    value.type = type := by
  obtain ⟨_, -, rfl⟩ := List.mem_map.1 hmem
  rfl

theorem getElem?_elementValues
    (hvalue : (observation.elementValues type start stride length elements)[i]? = some value) :
    i < elements.length ∧ StandsAt observation start stride length i value := by
  rw [elementValues, List.getElem?_map, List.getElem?_zipIdx, Option.map_map, Nat.zero_add] at hvalue
  obtain ⟨element, helement, rfl⟩ := Option.map_eq_some_iff.1 hvalue
  exact ⟨(List.getElem?_eq_some_iff.1 helement).1, rfl, rfl, rfl, rfl, rfl⟩

theorem mem_elementValues
    (hmem : value ∈ observation.elementValues type start stride length elements) :
    ∃ i < elements.length, StandsAt observation start stride length i value := by
  obtain ⟨i, hvalue⟩ := List.mem_iff_getElem?.1 hmem
  exact ⟨i, getElem?_elementValues hvalue⟩

/-- The place of an element is over where the next one begins. -/
theorem place_le (start stride : Nat) {i j : Nat} (hlt : i < j) :
    start + i * stride + stride ≤ start + j * stride := by
  have hmul : (i + 1) * stride ≤ j * stride := Nat.mul_le_mul_right stride hlt
  rw [Nat.succ_mul] at hmul
  omega

theorem laidOut_elementValues (hprinted : elements.length ≤ length) (hdvd : length ∣ size)
    (hpos : 0 < size) (hfits : start + size ≤ largest64 + 1)
    (htype : ∀ element, IsArrayOf observation.type length element → type = element)
    (hkept : (∀ element, ¬ IsArrayOf observation.type length element) → type = observation.type) :
    LaidOut observation elements start size length
      (observation.elementValues type start (size / length) length elements) := by
  have hsize : length * (size / length) = size := Nat.mul_div_cancel' hdvd
  have hstride : 0 < size / length := by
    refine Nat.pos_of_ne_zero fun hzero => ?_
    rw [hzero] at hsize
    omega
  -- The last place that an element can take is over where the array is.
  have hend {i : Nat} (hi : i < elements.length) :
      start + i * (size / length) + size / length ≤ start + size := by
    have hplace := place_le start (size / length) (Nat.lt_of_lt_of_le hi hprinted)
    rwa [hsize] at hplace
  constructor
  case length_eq => rw [elementValues, List.length_map, List.length_zipIdx]
  case data_eq => exact map_data_elementValues
  case stands => exact fun i value hvalue => (getElem?_elementValues hvalue).2
  case type_eq =>
    intro element helement value hmem
    rw [type_of_mem_elementValues hmem, htype element helement]
  case type_kept =>
    intro hnone value hmem
    rw [type_of_mem_elementValues hmem, hkept hnone]
  case index_lt =>
    intro value hmem slot hslot
    obtain ⟨i, hi, hplace⟩ := mem_elementValues hmem
    rw [Option.mem_def, hplace.slot_eq] at hslot
    rw [← Option.some.inj hslot]
    exact Nat.lt_of_lt_of_le hi hprinted
  case representable =>
    intro value hmem address haddress
    obtain ⟨i, hi, hplace⟩ := mem_elementValues hmem
    rw [Option.mem_def, hplace.address_eq] at haddress
    have hwithin := hend hi
    rw [← Option.some.inj haddress]
    omega
  case inside =>
    intro value hmem
    obtain ⟨i, hi, hplace⟩ := mem_elementValues hmem
    rw [hplace.bytes_eq]
    exact Set.Ico_subset_Ico (by omega) (hend hi)
  case apart =>
    rw [List.pairwise_iff_getElem]
    intro i j hi hj hlt
    obtain ⟨-, hplace⟩ := getElem?_elementValues (List.getElem?_eq_getElem hi)
    obtain ⟨-, hplace'⟩ := getElem?_elementValues (List.getElem?_eq_getElem hj)
    rw [hplace.bytes_eq, hplace'.bytes_eq]
    rintro address ⟨-, hbefore⟩ ⟨hbehind, -⟩
    have hnext := place_le start (size / length) hlt
    omega

end

/-- An array whose address and size are known consists of its elements, if its length divides its size,
    and is kept whole otherwise. -/
theorem values_of_elements {observation : Observation} {elements : List Literal} {start size : Nat}
    (helements : observation.literal = .elements elements) (hne : elements ≠ [])
    (haddress : observation.address = some start) (hsize : observation.size = some size)
    (hpos : 0 < size) (hfits : start + size ≤ largest64 + 1) :
    ∃ length, (∀ other, IsLength observation.type elements.length other ↔ other = length) ∧
      (length ∣ size → LaidOut observation elements start size length observation.values) ∧
      (¬ length ∣ size → ∃ value, observation.values = [value] ∧
        KeptWhole observation start size value) := by
  have hprinted : 0 < elements.length := List.length_pos_iff.2 hne
  refine ⟨(arrayShape observation.type elements.length).2, fun other => isLength_iff, ?_, ?_⟩
  · intro hdvd
    have hlength := le_arrayShape_snd observation.type elements.length
    have hvalues : observation.values = observation.elementValues
        (arrayShape observation.type elements.length).1 start
        (size / (arrayShape observation.type elements.length).2)
        (arrayShape observation.type elements.length).2 elements := by
      rw [values, helements, haddress, hsize]
      exact if_pos ⟨Nat.lt_of_lt_of_le hprinted hlength, Nat.mod_eq_zero_of_dvd hdvd⟩
    rw [hvalues]
    exact laidOut_elementValues hlength hdvd hpos hfits
      (fun element => arrayShape_fst_of_isArrayOf) arrayShape_fst_of_not_isArrayOf
  · intro hdvd
    refine ⟨observation.wholeValue, ?_, rfl, rfl, rfl, haddress, hsize, rfl, ?_⟩
    · rw [values, helements, haddress, hsize]
      exact if_neg fun hdivides => hdvd (Nat.dvd_of_mod_eq_zero hdivides.2)
    · rw [helements]
      exact congrArg (Literal.data _) helements

/-- Two rows of three, of a print that was cut short. -/
def grid : Observation where
  name := "grid".toList
  type := "int [3][2]".toList
  address := some 0x100
  size := some 24
  frame := 0
  literal := .elements [.elements [.scalar "1".toList, .scalar "2".toList],
    .elements [.scalar "3".toList, .scalar "4".toList]]

/-- The rows are as far apart as in the whole grid. -/
theorem laidOut_grid : ∃ rows, grid.literal = .elements rows ∧ rows.length = 2 ∧
    LaidOut grid rows 0x100 24 3 grid.values ∧ ∀ row ∈ grid.values, row.type = "int [2]".toList := by
  have hdimension : IsDimension "int".toList " ".toList "3".toList 3 :=
    ⟨by decide, by decide, by decide, by decide, by decide⟩
  have htype : IsArrayOf grid.type 3 "int [2]".toList := .several hdimension "2]".toList
  obtain ⟨length, hlength, hlaid, -⟩ := @values_of_elements grid _ 0x100 24 rfl (List.cons_ne_nil _ _)
    rfl rfl (by decide) (by decide)
  obtain rfl : 3 = length := (hlength 3).1 (.declared htype (by decide))
  exact ⟨_, rfl, rfl, hlaid (by decide), (hlaid (by decide)).type_eq _ htype⟩

end Observation
end DebugClient
