import Mathlib.Algebra.BigOperators.Ring.Finset
import DebugClient.Proofs.Reply.Abbreviation

/-!
How much a printed value expands to. No array in it has more elements than the limit, at any depth,
but an array in an array is expanded for each of them: all arrays together are bounded by the shape of
the value only, and this bound is reached at every depth.
-/

namespace DebugClient.Literal
open Text

/-! ### Counting -/

mutual
/-- The elements of all arrays in a value, each as often as it stands there. -/
def arrayElements : Literal → Nat
  | .scalar _ | .pointer _ => 0
  | .fields members => arrayElementsInFields members
  | .elements values => arrayElementsInList values

def arrayElementsInFields : List (Text × Literal) → Nat
  | [] => 0
  | (_, value) :: others => arrayElements value + arrayElementsInFields others

def arrayElementsInList : List Literal → Nat
  | [] => 0
  | element :: others => (1 + arrayElements element) + arrayElementsInList others
end

mutual
/-- The arrays in a value, each as often as it stands there. -/
def arrays : Literal → Nat
  | .scalar _ | .pointer _ => 0
  | .fields members => arraysInFields members
  | .elements values => 1 + arraysInList values

def arraysInFields : List (Text × Literal) → Nat
  | [] => 0
  | (_, value) :: others => arrays value + arraysInFields others

def arraysInList : List Literal → Nat
  | [] => 0
  | element :: others => arrays element + arraysInList others
end

mutual
/-- The most elements that the arrays of a value of this shape can have. -/
def capacity : Literal → Nat
  | .scalar _ | .pointer _ => 0
  | .fields members => capacityOfFields members
  | .elements values => elementLimit * capacityOfList values

def capacityOfFields : List (Text × Literal) → Nat
  | [] => 0
  | (_, value) :: others => capacity value + capacityOfFields others

def capacityOfList : List Literal → Nat
  | [] => 0
  | element :: others => max (1 + capacity element) (capacityOfList others)
end

/-- No array in the value is longer than the limit. -/
inductive Limited : Literal → Prop
  | scalar (t : Text) : Limited (.scalar t)
  | pointer (address : Nat) : Limited (.pointer address)
  | fields {fields : List (Text × Literal)} (hfields : ∀ field ∈ fields, Limited field.2) :
      Limited (.fields fields)
  | elements {elements : List Literal} (hlimit : elements.length ≤ elementLimit)
      (helements : ∀ element ∈ elements, Limited element) : Limited (.elements elements)

variable {elements : List Literal} {fields : List (Text × Literal)} {literal : Literal}

theorem arrayElementsInFields_le
    (hfields : ∀ field ∈ fields, field.2.arrayElements ≤ field.2.capacity) :
    arrayElementsInFields fields ≤ capacityOfFields fields := by
  induction fields with
  | nil => exact Nat.le_refl 0
  | cons field others ih =>
    obtain ⟨hfield, hothers⟩ := List.forall_mem_cons.1 hfields
    exact Nat.add_le_add hfield (ih hothers)

theorem arrayElementsInList_le
    (helements : ∀ element ∈ elements, element.arrayElements ≤ element.capacity) :
    arrayElementsInList elements ≤ elements.length * capacityOfList elements := by
  induction elements with
  | nil => exact Nat.le_of_eq (Nat.zero_mul _).symm
  | cons element others ih =>
    obtain ⟨helement, hothers⟩ := List.forall_mem_cons.1 helements
    have hfirst : 1 + element.arrayElements ≤ capacityOfList (element :: others) :=
      Nat.le_trans (Nat.add_le_add_left helement 1) (Nat.le_max_left _ _)
    have hrest : arrayElementsInList others ≤
        others.length * capacityOfList (element :: others) :=
      Nat.le_trans (ih hothers) (Nat.mul_le_mul_left _ (Nat.le_max_right _ _))
    rw [List.length_cons, Nat.succ_mul, Nat.add_comm, arrayElementsInList]
    exact Nat.add_le_add hfirst hrest

theorem Limited.arrayElements_le (hlimited : Limited literal) :
    literal.arrayElements ≤ literal.capacity := by
  induction hlimited with
  | scalar => exact Nat.le_refl 0
  | pointer => exact Nat.le_refl 0
  | fields _ ih => exact arrayElementsInFields_le ih
  | elements hlimit _ ih =>
    exact Nat.le_trans (arrayElementsInList_le ih) (Nat.mul_le_mul_right _ hlimit)

theorem arrayElementsInFields_le_arrays
    (hfields : ∀ field ∈ fields, field.2.arrayElements ≤ elementLimit * field.2.arrays) :
    arrayElementsInFields fields ≤ elementLimit * arraysInFields fields := by
  induction fields with
  | nil => exact Nat.le_refl 0
  | cons field others ih =>
    obtain ⟨hfield, hothers⟩ := List.forall_mem_cons.1 hfields
    rw [arrayElementsInFields, arraysInFields, Nat.mul_add]
    exact Nat.add_le_add hfield (ih hothers)

theorem arrayElementsInList_le_arrays
    (helements : ∀ element ∈ elements, element.arrayElements ≤ elementLimit * element.arrays) :
    arrayElementsInList elements ≤ elements.length + elementLimit * arraysInList elements := by
  induction elements with
  | nil => exact Nat.le_refl 0
  | cons element others ih =>
    obtain ⟨helement, hothers⟩ := List.forall_mem_cons.1 helements
    have hrest := ih hothers
    rw [arrayElementsInList, arraysInList, List.length_cons, Nat.mul_add]
    omega

/-- The limit holds for each array by itself. -/
theorem Limited.arrayElements_le_arrays (hlimited : Limited literal) :
    literal.arrayElements ≤ elementLimit * literal.arrays := by
  induction hlimited with
  | scalar => exact Nat.le_refl 0
  | pointer => exact Nat.le_refl 0
  | fields _ ih => exact arrayElementsInFields_le_arrays ih
  | elements hlimit _ ih =>
    have hall := arrayElementsInList_le_arrays ih
    rw [arrayElements, arrays, Nat.mul_add, Nat.mul_one]
    omega

/-! ### Reading -/

theorem length_expandRuns_le (room : Nat) (runs : List (Literal × Nat)) :
    (expandRuns room runs).length ≤ room := by
  induction runs generalizing room with
  | nil => exact Nat.zero_le room
  | cons run others ih =>
    have hrest := ih (room - min run.2 room)
    rw [expandRuns, List.length_append, List.length_replicate]
    omega

theorem exists_run_of_mem_expandRuns {room : Nat} {runs : List (Literal × Nat)}
    (hmem : literal ∈ expandRuns room runs) : ∃ run ∈ runs, run.1 = literal := by
  induction runs generalizing room with
  | nil => cases hmem
  | cons run others ih =>
    rw [expandRuns, List.mem_append] at hmem
    rcases hmem with hfirst | hrest
    · exact ⟨run, List.mem_cons_self, (List.eq_of_mem_replicate hfirst).symm⟩
    · obtain ⟨other, hother, heq⟩ := ih hrest
      exact ⟨other, List.mem_cons_of_mem run hother, heq⟩

/-- Whatever the text, every array in what is read from it stops at the limit. -/
theorem limited_read (t : Text) : Limited (read t) := by
  induction hlength : t.length using Nat.strong_induction_on generalizing t with
  | _ length ih =>
    subst hlength
    rw [read_eq]
    cases hbraced : braced? (trim t) with
    | none =>
      dsimp only
      split
      · exact .pointer _
      · exact .scalar _
    | some inner =>
      have hinner : inner.length < t.length :=
        Nat.lt_of_lt_of_le (length_braced? hbraced) (length_trim_le t)
      dsimp only
      split
      · refine .fields fun field hfield => ?_
        obtain ⟨item, hitem, hread⟩ := List.mem_filterMap.1 hfield
        obtain ⟨⟨name, value⟩, hassignment, rfl⟩ := Option.map_eq_some_iff.1 hread
        have hvalue := Assignment.length_of_read? hassignment
        have hwithin := length_items hitem
        exact ih value.length (by omega) value rfl
      · refine .elements (length_expandRuns_le _ _) fun element helement => ?_
        obtain ⟨run, hrun, rfl⟩ := exists_run_of_mem_expandRuns helement
        obtain ⟨item, hitem, rfl⟩ := List.mem_map.1 hrun
        have hwithin := length_dropEllipsis (fun _ => length_items) hitem
        have hpart := length_runOf item
        exact ih (runOf item).1.length (by omega) _ rfl

/-! ### Arrays of arrays -/

/-- Arrays in arrays so many levels deep, each of them as long as the limit allows. -/
def filled : Nat → Literal
  | 0 => .scalar ['0']
  | depth + 1 => .elements (List.replicate elementLimit (filled depth))

theorem abbreviates_zero : Abbreviates (.scalar ['0']) ['0'] :=
  .scalar (@isBare_of_ends '0' '0' [] [] rfl (by decide) (by decide) (by decide) (by decide)
    (by decide) (by decide) (by decide))

/-- An array of equal elements is printed as a single one with how often it is repeated. -/
theorem abbreviates_replicate {value : Text} {count : Nat} (hvalue : Abbreviates literal value)
    (hcount : 1 ≤ count) (hlimit : count ≤ elementLimit) :
    Abbreviates (.elements (List.replicate count literal))
      ('{' :: commaSeparated [value ++ repeatMark count] ++ ['}']) := by
  refine .elements (by rwa [List.length_replicate]) ?_ (.whole _)
  have hitems : AbbreviatesElements (List.replicate count literal ++ []) [value ++ repeatMark count] :=
    .run hcount hvalue .nil
  rwa [List.append_nil] at hitems

theorem exists_abbreviates_filled (depth : Nat) : ∃ t, Abbreviates (filled depth) t := by
  induction depth with
  | zero => exact ⟨_, abbreviates_zero⟩
  | succ depth ih =>
    obtain ⟨t, ht⟩ := ih
    exact ⟨_, abbreviates_replicate ht (by decide) (Nat.le_refl elementLimit)⟩

theorem arrayElementsInList_replicate (count : Nat) (literal : Literal) :
    arrayElementsInList (List.replicate count literal) = count * (1 + literal.arrayElements) := by
  induction count with
  | zero => exact (Nat.zero_mul _).symm
  | succ count ih => rw [List.replicate_succ, arrayElementsInList, ih, Nat.succ_mul, Nat.add_comm]

theorem arraysInList_replicate (count : Nat) (literal : Literal) :
    arraysInList (List.replicate count literal) = count * literal.arrays := by
  induction count with
  | zero => exact (Nat.zero_mul _).symm
  | succ count ih => rw [List.replicate_succ, arraysInList, ih, Nat.succ_mul, Nat.add_comm]

theorem capacityOfList_replicate {count : Nat} (hcount : 1 ≤ count) (literal : Literal) :
    capacityOfList (List.replicate count literal) = 1 + literal.capacity := by
  induction count, hcount using Nat.le_induction with
  | base => exact Nat.max_zero _
  | succ count _ ih => rw [List.replicate_succ, capacityOfList, ih, Nat.max_self]

/-- The elements of the outermost array, of all arrays in it, and so on. -/
theorem arrayElements_filled (depth : Nat) :
    (filled depth).arrayElements = ∑ level ∈ Finset.range depth, elementLimit ^ (level + 1) := by
  induction depth with
  | zero => rfl
  | succ depth ih =>
    rw [filled, arrayElements, arrayElementsInList_replicate, ih, Finset.sum_range_succ', Nat.mul_add,
      Finset.mul_sum, Nat.add_comm]
    simp only [pow_succ', pow_zero]

theorem capacity_filled (depth : Nat) : (filled depth).capacity = (filled depth).arrayElements := by
  induction depth with
  | zero => rfl
  | succ depth ih =>
    rw [filled, capacity, capacityOfList_replicate (by decide), ih, arrayElements,
      arrayElementsInList_replicate]

/-- Each array that is read stops at the limit, so a value in which there is no more than one array has
    no more elements than that. All arrays in a value have at most as many as its shape has room for; and
    for every depth there is a text from which arrays of that depth are read that have as many. -/
theorem arrayElements_read (t : Text) (depth : Nat) :
    Limited (read t) ∧ ((read t).arrays ≤ 1 → (read t).arrayElements ≤ elementLimit) ∧
      (read t).arrayElements ≤ (read t).capacity ∧
      ∃ other, (read other).arrayElements = (read other).capacity ∧
        (read other).arrayElements = ∑ level ∈ Finset.range depth, elementLimit ^ (level + 1) := by
  have hlimited := limited_read t
  obtain ⟨other, hother⟩ := exists_abbreviates_filled depth
  refine ⟨hlimited, fun hone => ?_, hlimited.arrayElements_le, other, ?_, ?_⟩
  · calc (read t).arrayElements ≤ elementLimit * (read t).arrays := hlimited.arrayElements_le_arrays
      _ ≤ elementLimit * 1 := Nat.mul_le_mul_left elementLimit hone
      _ = elementLimit := Nat.mul_one elementLimit
  · rw [hother.read_eq, capacity_filled]
  · rw [hother.read_eq, arrayElements_filled]

/-- An array that is just full, alone in its text. -/
theorem arrayElements_read_full :
    (read "\x7b0 <repeats 10000 times>\x7d".toList).arrayElements ≤ elementLimit ∧
      (read "\x7b0 <repeats 10000 times>\x7d".toList).arrayElements = elementLimit := by
  have hread : read "\x7b0 <repeats 10000 times>\x7d".toList = filled 1 :=
    (@abbreviates_replicate _ _ elementLimit abbreviates_zero (by decide) (by decide)).read_eq
  have hone : (filled 1).arrays ≤ 1 := by
    rw [filled, arrays, arraysInList_replicate, filled, arrays, Nat.mul_zero]
  rw [← hread] at hone
  refine ⟨(arrayElements_read _ 1).2.1 hone, ?_⟩
  rw [hread, arrayElements_filled, Finset.sum_range_one, pow_one]

/-- Two arrays that are full each. -/
theorem not_arrayElements_read_le : ¬ ∀ t, (read t).arrayElements ≤ elementLimit := by
  intro hclaim
  have hrow := @abbreviates_replicate _ _ elementLimit abbreviates_zero (by decide) (by decide)
  have hrows := @abbreviates_replicate _ _ 2 hrow (by decide) (by decide)
  have hle := hclaim "\x7b\x7b0 <repeats 10000 times>\x7d <repeats 2 times>\x7d".toList
  have hread : read "\x7b\x7b0 <repeats 10000 times>\x7d <repeats 2 times>\x7d".toList =
      .elements (List.replicate 2 (filled 1)) := hrows.read_eq
  rw [hread, arrayElements, arrayElementsInList_replicate, arrayElements_filled] at hle
  revert hle
  decide

end DebugClient.Literal
