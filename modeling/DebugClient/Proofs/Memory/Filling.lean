import Mathlib.Data.List.Nodup
import DebugClient.Proofs.Memory.Allocation
import DebugClient.Proofs.Memory.Coherence
import DebugClient.Proofs.Memory.Rendering

/-!
Arrays on the heap, put together from the memory log. A block is a value of its own from the moment when
it is allocated, and what is stored at its start is assigned to that value. What is stored behind it
makes values that are counted to the array. So the first element of an array is shown by itself, and all
others in one group, in whatever order they have been stored.
-/

namespace DebugClient

/-- The event allocates a block. -/
def MemlogEvent.Allocates (event : MemlogEvent) (start length : Nat) : Prop :=
  ∃ site pointer, event = .alloc site pointer length ∧ Memlog.address? pointer = some start

/-- Elements of one size side by side. -/
structure HeapArray where
  start : Nat
  count : Nat
  size : Nat
  deriving DecidableEq, Repr

namespace HeapArray
open Memlog

def length (array : HeapArray) : Nat := array.count * array.size

def addressOf (array : HeapArray) (i : Nat) : Nat := array.start + i * array.size

/-- The block as a value. -/
def whole (array : HeapArray) : Value := heapValue array.start array.length

/-- An element as a value that is counted to the array. -/
def element (array : HeapArray) (data : Nat → ValueData) (i : Nat) : Value :=
  Value.assign (data i) { heapValue (array.addressOf i) array.size with
    slot := some { start := array.start, index := i, length := array.count } }

/-- The value on the heap that holds an element once it has been stored. -/
def holder (array : HeapArray) (data : Nat → ValueData) (i : Nat) : Value :=
  if i = 0 then array.whole.assign (data 0) else array.element data i

@[simp] theorem addressOf_zero (array : HeapArray) : array.addressOf 0 = array.start := by
  simp [addressOf]

theorem addressOf_inj {array : HeapArray} (hsize : 0 < array.size) {i j : Nat} :
    array.addressOf i = array.addressOf j ↔ i = j := by
  rw [addressOf, addressOf, Nat.add_left_cancel_iff, Nat.mul_left_inj (by omega)]

theorem addressOf_lt_addressOf {array : HeapArray} (hsize : 0 < array.size) {i j : Nat} (hlt : i < j) :
    array.addressOf i < array.addressOf j := by
  rw [addressOf, addressOf, Nat.add_lt_add_iff_left, Nat.mul_lt_mul_right hsize]
  exact hlt

/-- The elements are in the block. -/
theorem addressOf_lt_end {array : HeapArray} (hsize : 0 < array.size) {i : Nat} (hi : i < array.count) :
    array.addressOf i < array.start + array.length := by
  rw [addressOf, length, Nat.add_lt_add_iff_left, Nat.mul_lt_mul_right hsize]
  exact hi

/-- The line for the first element, which stands for the whole block. -/
def firstLine (array : HeapArray) (data : Nat → ValueData) : Text :=
  '*' :: Numeral.address array.start ++ " (".toList ++ unsignedType array.length ++ "): ".toList ++
    (data 0).render ++ ['\n']

/-- The line for all other elements, labelled by the first of them. -/
def groupLine (array : HeapArray) (data : Nat → ValueData) : Text :=
  '*' :: Numeral.address (array.addressOf 1) ++ " (".toList ++ unsignedType array.size ++
    "): [".toList ++
    commaSeparated ((List.range' 1 (array.count - 1)).map fun i => (data i).render) ++ "]\n".toList

end HeapArray

namespace ProgramState
open Memlog

variable {state next : ProgramState} {address start length id : Nat} {value : Value}

/-! ### What is on the heap -/

/-- The value on the heap at an address. -/
def heapAt? (address : Nat) (state : ProgramState) : Option Value :=
  (state.heap.find? address).bind fun id => state.values[id]?

/-- The values on the heap with their addresses. -/
def heapEntries (state : ProgramState) : List (Nat × Value) :=
  state.heap.entries.filterMap fun (address, id) => state.values[id]?.map fun value => (address, value)

theorem map_heapEntries (state : ProgramState) : state.heapEntries.map (·.2) = state.heapValues := by
  rw [heapEntries, heapValues, AddressMap.values, List.map_filterMap, List.filterMap_map]
  congr 1
  funext entry
  simp [Function.comp_def]

theorem mem_heapEntries_iff :
    (address, value) ∈ state.heapEntries ↔ state.heapAt? address = some value := by
  simp only [heapEntries, List.mem_filterMap, Option.map_eq_some_iff, Prod.mk.injEq, Prod.exists,
    heapAt?, Option.bind_eq_some_iff, AddressMap.find?_eq_some_iff]
  constructor
  · rintro ⟨address, id, hmem, value, hvalue, rfl, rfl⟩
    exact ⟨id, hmem, hvalue⟩
  · rintro ⟨id, hmem, hvalue⟩
    exact ⟨address, id, hmem, value, hvalue, rfl, rfl⟩

theorem ascending_heapEntries (state : ProgramState) :
    state.heapEntries.Pairwise fun a b => a.1 < b.1 := by
  refine state.heap.ascending.filterMap _ ?_
  rintro ⟨address, id⟩ ⟨other, id'⟩ hlt ⟨a, value⟩ hfirst ⟨b, value'⟩ hsecond
  obtain ⟨_, _, hfirst⟩ := Option.map_eq_some_iff.1 (Option.mem_def.1 hfirst)
  obtain ⟨_, _, hsecond⟩ := Option.map_eq_some_iff.1 (Option.mem_def.1 hsecond)
  cases hfirst
  cases hsecond
  exact hlt

/-- As each address has one place in the order, the values on the heap are known by their addresses. -/
theorem heapEntries_eq {entries : List (Nat × Value)}
    (hascending : entries.Pairwise fun a b => a.1 < b.1)
    (hmem : ∀ address value, (address, value) ∈ entries ↔ state.heapAt? address = some value) :
    state.heapEntries = entries := by
  have hnodup (entries : List (Nat × Value)) (hascending : entries.Pairwise fun a b => a.1 < b.1) :
      entries.Nodup := by
    refine hascending.imp ?_
    rintro a b hlt rfl
    exact Nat.lt_irrefl _ hlt
  have hperm : state.heapEntries.Perm entries := by
    rw [List.perm_ext_iff_of_nodup (hnodup _ state.ascending_heapEntries) (hnodup _ hascending)]
    rintro ⟨address, value⟩
    rw [mem_heapEntries_iff, hmem]
  refine hperm.eq_of_pairwise ?_ state.ascending_heapEntries hascending
  intro a b _ _ hlt hgt
  exact absurd (Nat.lt_trans hlt hgt) (Nat.lt_irrefl _)

/-- The values below an address, and those from there on. -/
theorem heapEntries_eq_append (state : ProgramState) (start : Nat) :
    state.heapEntries = state.heapEntries.filter (·.1 < start) ++
      state.heapEntries.filter (start ≤ ·.1) := by
  apply heapEntries_eq
  · refine List.pairwise_append.2
      ⟨state.ascending_heapEntries.filter _, state.ascending_heapEntries.filter _, ?_⟩
    intro a ha b hb
    have hbelow := of_decide_eq_true (List.mem_filter.1 ha).2
    have habove := of_decide_eq_true (List.mem_filter.1 hb).2
    exact Nat.lt_of_lt_of_le hbelow habove
  · intro address value
    simp only [List.mem_append, List.mem_filter, mem_heapEntries_iff, decide_eq_true_eq,
      ← and_or_left]
    exact and_iff_left (Nat.lt_or_ge address start)

/-! ### Values that come to the heap -/

/-- A value has come to live on the heap at an address that nothing owned; all else is as it was. -/
structure Gains (state : ProgramState) (address : Nat) (value : Value) (next : ProgramState) : Prop where
  frames : next.frames = state.frames
  kept : ∀ id < state.values.size, next.values[id]? = state.values[id]?
  size_le : state.values.size ≤ next.values.size
  self : next.heapAt? address = some value
  other : ∀ other ≠ address, next.heapAt? other = state.heapAt? other
  fresh : next.idAt? address = some state.values.size
  owner : ∀ other ≠ address, next.idAt? other = state.idAt? other
  allocations : next.allocations = state.allocations

theorem Coherent.gains_recordValue (hcoherent : state.Coherent) (value : Value)
    (hlocation : value.location = .heap) (haddress : value.address = some address)
    (hnone : state.idAt? address = none) :
    state.Gains address value (state.recordValue value).2 := by
  obtain ⟨hnew, hpush⟩ := recordValue_of_idAt?_eq_none hnone haddress
  obtain ⟨id, next, hrecord, hsettles, -⟩ := settles_recordValue hcoherent.owners value
  rw [hrecord] at hnew hpush ⊢
  obtain rfl : id = state.values.size := hnew
  have hne : ∀ other ≠ address, value.address ≠ some other := by
    intro other hother hsame
    rw [haddress] at hsame
    exact hother (Option.some.inj hsame).symm
  constructor
  · rw [hsettles.frames, hlocation]
    refine (List.map_congr_left ?_).trans (List.map_id _)
    intro frame hframe
    refine adopt_of_unlisted (by simp) ?_
    intro hlisted
    exact absurd (lt_size_of_locationOf? (hcoherent.located frame hframe _ hlisted)) (Nat.lt_irrefl _)
  · intro other hlt
    exact hsettles.other other (Nat.ne_of_lt hlt)
  · dsimp only at hpush
    rw [hpush, Array.size_push]
    exact Nat.le_succ _
  · rw [heapAt?, hsettles.heap, if_pos haddress, if_pos hlocation, Option.bind_some, hsettles.self]
  · intro other hother
    rw [heapAt?, heapAt?, hsettles.heap, if_neg (hne other hother)]
    cases hfind : state.heap.find? other with
    | none => rfl
    | some owner =>
      have howns := ((hcoherent.heap other owner).1 hfind).1
      rw [Option.bind_some, Option.bind_some, hsettles.other]
      rintro rfl
      exact hne other hother (hsettles.owned other howns)
  · exact hsettles.find?_self haddress
  · intro other hother
    rw [idAt?, hsettles.owner, if_neg (hne other hother)]
    rfl
  · exact hsettles.allocations

/-- Changing the data of a value on the heap shows at its address only. -/
theorem Coherent.heapAt?_modifyValue (hcoherent : state.Coherent)
    (hfind : state.heap.find? address = some id) (change : Value → Value) (other : Nat) :
    (state.modifyValue id change).heapAt? other =
      if other = address then (state.heapAt? address).map change else state.heapAt? other := by
  have hheap : (state.modifyValue id change).heap = state.heap := rfl
  have hsame : ∀ found, state.heap.find? other = some found → found = id → other = address := by
    rintro found hfound rfl
    have hof := hcoherent.owners address found ((hcoherent.heap address found).1 hfind).1
    rw [hcoherent.owners other found ((hcoherent.heap other found).1 hfound).1] at hof
    exact Option.some.inj hof
  rw [heapAt?, hheap, ProgramState.modifyValue]
  by_cases heq : other = address
  · rw [if_pos heq, heq, heapAt?, hfind, Option.bind_some, Option.bind_some, Array.getElem?_modify,
      if_pos rfl]
  · rw [if_neg heq, heapAt?]
    cases hfound : state.heap.find? other with
    | none => rfl
    | some found =>
      rw [Option.bind_some, Option.bind_some, Array.getElem?_modify, if_neg]
      rintro rfl
      exact heq (hsame _ hfound rfl)

theorem Coherent.find?_heap_of_idAt? (hcoherent : state.Coherent) (hid : state.idAt? address = some id)
    (hvalue : state.heapAt? address = some value) : state.heap.find? address = some id := by
  obtain ⟨found, hfind, -⟩ := Option.bind_eq_some_iff.1 hvalue
  have howns := ((hcoherent.heap address found).1 hfind).1
  rw [idAt?, howns] at hid
  rw [hfind, hid]

/-! ### A block that is filled -/

/-- The range of the array is free: no value and no block begins there, and no value on the heap is
    counted to an array at its start. -/
structure Untouched (array : HeapArray) (state : ProgramState) : Prop where
  values : ∀ address, array.start ≤ address → address < array.start + array.length →
    state.idAt? address = none
  blocks : ∀ address, array.start ≤ address → address < array.start + array.length →
    state.allocationLength? address = none
  members : ∀ address value, state.heapAt? address = some value → ¬ value.IsMemberOf array.start

/-- The array has been allocated, and these of its elements have been stored. -/
structure Filled (array : HeapArray) (data : Nat → ValueData) (stored : List Nat)
    (state next : ProgramState) : Prop where
  coherent : next.Coherent
  frames : next.frames = state.frames
  allocations : next.allocations = state.allocations.insert array.start array.length
  size_le : state.values.size ≤ next.values.size
  kept : ∀ id < state.values.size, next.values[id]? = state.values[id]?
  /-- The block is a new value. -/
  fresh : ∃ id, next.idAt? array.start = some id ∧ state.values.size ≤ id
  first : next.heapAt? array.start =
    some (if 0 ∈ stored then array.whole.assign (data 0) else array.whole)
  elements : ∀ i ∈ stored, 0 < i → next.heapAt? (array.addressOf i) = some (array.element data i)
  free : ∀ i < array.count, 0 < i → i ∉ stored → next.idAt? (array.addressOf i) = none
  outside : ∀ address ≠ array.start, (∀ i ∈ stored, address ≠ array.addressOf i) →
    next.heapAt? address = state.heapAt? address

variable {array : HeapArray} {data : Nat → ValueData} {stored : List Nat} {i : Nat}

theorem untouched_iff : Untouched array state ↔
    (∀ entry ∈ state.byAddress.entries,
      ¬ (array.start ≤ entry.1 ∧ entry.1 < array.start + array.length)) ∧
    (∀ entry ∈ state.allocations.entries,
      ¬ (array.start ≤ entry.1 ∧ entry.1 < array.start + array.length)) ∧
    ∀ value ∈ state.heapValues, ¬ value.IsMemberOf array.start := by
  have hrange (map : AddressMap Nat) :
      (∀ address, array.start ≤ address → address < array.start + array.length →
        map.find? address = none) ↔
      ∀ entry ∈ map.entries, ¬ (array.start ≤ entry.1 ∧ entry.1 < array.start + array.length) := by
    constructor
    · rintro hnone ⟨address, found⟩ hmem ⟨hle, hlt⟩
      have hfind := AddressMap.find?_eq_some_iff.2 hmem
      rw [hnone address hle hlt] at hfind
      cases hfind
    · intro hentries address hle hlt
      rw [Option.eq_none_iff_forall_ne_some]
      intro found hfind
      exact hentries _ (AddressMap.find?_eq_some_iff.1 hfind) ⟨hle, hlt⟩
  rw [← hrange, ← hrange, ← map_heapEntries]
  constructor
  · rintro ⟨hvalues, hblocks, hmembers⟩
    refine ⟨hvalues, hblocks, ?_⟩
    intro value hmem
    obtain ⟨⟨address, value⟩, hentry, rfl⟩ := List.mem_map.1 hmem
    exact hmembers address value (mem_heapEntries_iff.1 hentry)
  · rintro ⟨hvalues, hblocks, hmembers⟩
    refine ⟨hvalues, hblocks, ?_⟩
    intro address value hvalue
    exact hmembers value (List.mem_map_of_mem (f := (·.2)) (mem_heapEntries_iff.2 hvalue))

instance : Decidable (Untouched array state) := decidable_of_iff _ untouched_iff.symm

theorem filled_of_allocates (hcoherent : state.Coherent) (hsize : 0 < array.size)
    (hcount : 0 < array.count) (huntouched : Untouched array state) {event : MemlogEvent}
    (hallocates : event.Allocates array.start array.length) :
    Filled array data [] state (state.applyMemlog event).2 := by
  have hcoherent' := hcoherent.applyMemlog event
  obtain ⟨site, pointer, rfl, hpointer⟩ := hallocates
  have hfree : ∀ i < array.count, state.idAt? (array.addressOf i) = none := by
    intro i hi
    exact huntouched.values _ (Nat.le_add_right _ _) (array.addressOf_lt_end hsize hi)
  have hgains := (hcoherent.with_allocations (state.allocations.insert array.start array.length)
    ).gains_recordValue array.whole rfl rfl (array.addressOf_zero ▸ hfree 0 hcount)
  simp only [applyMemlog, hpointer] at hcoherent' ⊢
  refine ⟨hcoherent', hgains.frames, hgains.allocations, hgains.size_le, hgains.kept,
    ⟨_, hgains.fresh, Nat.le_refl _⟩, hgains.self, ?_, ?_, ?_⟩
  · intro i hmem
    cases hmem
  · intro i hi hpos _
    refine (hgains.owner _ ?_).trans (hfree i hi)
    rw [← array.addressOf_zero, Ne, array.addressOf_inj hsize]
    omega
  · intro address hne _
    exact hgains.other address hne

/-- As no block begins in its range, the block is the one in which its elements are found. -/
theorem Filled.block (hfilled : Filled array data stored state next) (hsize : 0 < array.size)
    (huntouched : Untouched array state) (hi : i < array.count)
    (hend : array.addressOf i < Numeral.largest64) :
    next.allocationContaining? (array.addressOf i) = some array.start := by
  have hinside := array.addressOf_lt_end hsize hi
  have hlength (other : Nat) : next.allocationLength? other =
      if other = array.start then some array.length else state.allocationLength? other := by
    rw [allocationLength?, hfilled.allocations, AddressMap.find?_insert]
    rfl
  rw [allocationContaining?_eq_some_iff hend]
  refine ⟨⟨array.length, by rw [hlength, if_pos rfl], Nat.le_add_right _ _, hinside⟩, ?_⟩
  intro other hsome hle
  by_contra hbehind
  rw [hlength, if_neg (by omega), huntouched.blocks other (by omega) (by omega)] at hsome
  cases hsome

theorem exists_scalar_of_stores {event : MemlogEvent} {data : ValueData}
    (hstores : event.Stores address length data) : ∃ text, data = .scalar text := by
  obtain ⟨site, pointer, bytes, -, -, hdata⟩ := hstores
  unfold storedData? at hdata
  obtain ⟨raw, -, hdata⟩ := Option.bind_eq_some_iff.1 hdata
  split at hdata <;> exact ⟨_, (Option.some.inj hdata).symm⟩

/-- The first element is assigned to the block. -/
theorem Filled.store_first (hfilled : Filled array data stored state next) (hsize : 0 < array.size)
    (hnew : 0 ∉ stored) {event : MemlogEvent}
    (hstores : event.Stores array.start array.size (data 0)) :
    Filled array data (0 :: stored) state (next.applyMemlog event).2 := by
  obtain ⟨text, hscalar⟩ := exists_scalar_of_stores hstores
  obtain ⟨id, hid, hfresh⟩ := hfilled.fresh
  have hcoherent := hfilled.coherent.applyMemlog event
  have hfirst := hfilled.first
  rw [if_neg hnew] at hfirst
  have hheap := hfilled.coherent.heapAt?_modifyValue (hfilled.coherent.find?_heap_of_idAt? hid hfirst)
    fun value => if value.data = data 0 then value else value.assign (data 0)
  obtain ⟨site, pointer, bytes, rfl, hpointer, hbytes⟩ := hstores
  simp only [applyMemlog, hpointer, hbytes, hid] at hcoherent ⊢
  refine ⟨hcoherent, hfilled.frames, hfilled.allocations, ?_, ?_, ⟨id, hid, hfresh⟩, ?_, ?_, ?_, ?_⟩
  · rw [modifyValue, Array.size_modify]
    exact hfilled.size_le
  · intro other hlt
    rw [modifyValue, Array.getElem?_modify, if_neg (by omega)]
    exact hfilled.kept other hlt
  · have hne : array.whole.data ≠ data 0 := by
      rw [hscalar]
      intro heq
      cases heq
    rw [hheap, if_pos rfl, hfirst, Option.map_some, if_neg hne, if_pos List.mem_cons_self]
  · intro i hi hpos
    rw [hheap, if_neg (by rw [← array.addressOf_zero, array.addressOf_inj hsize]; omega)]
    exact hfilled.elements i (List.mem_of_ne_of_mem (by omega) hi) hpos
  · intro i hi hpos hmem
    exact hfilled.free i hi hpos fun hstored => hmem (List.mem_cons_of_mem 0 hstored)
  · intro address hne hothers
    rw [hheap, if_neg hne]
    exact hfilled.outside address hne fun i hi => hothers i (List.mem_cons_of_mem 0 hi)

/-- Any other element makes a value that has its place in the array. -/
theorem Filled.store_behind (hfilled : Filled array data stored state next) (hsize : 0 < array.size)
    (huntouched : Untouched array state) (hi : i < array.count) (hpos : 0 < i) (hnew : i ∉ stored)
    (hend : array.addressOf i < Numeral.largest64) {event : MemlogEvent}
    (hstores : event.Stores (array.addressOf i) array.size (data i)) :
    Filled array data (i :: stored) state (next.applyMemlog event).2 := by
  have hcoherent := hfilled.coherent.applyMemlog event
  have hfree := hfilled.free i hi hpos hnew
  have hblock := hfilled.block hsize huntouched hi hend
  have hlength : next.allocationLength? array.start = some array.length := by
    rw [allocationLength?, hfilled.allocations, AddressMap.find?_insert, if_pos rfl]
  have hplace : slotIn array.start array.length (array.addressOf i) array.size =
      { start := array.start, index := i, length := array.count } := by
    rw [slotIn, HeapArray.addressOf, HeapArray.length, Nat.add_sub_cancel_left,
      Nat.mul_div_cancel _ hsize, Nat.mul_div_cancel _ hsize, Nat.max_eq_left (by omega)]
  have hgains := hfilled.coherent.gains_recordValue (array.element data i) rfl rfl hfree
  have happly : (next.applyMemlog event).2 = (next.recordValue (array.element data i)).2 := by
    obtain ⟨site, pointer, bytes, rfl, hpointer, hbytes⟩ := hstores
    simp only [applyMemlog, hpointer, hbytes, hfree, hblock, hlength, Option.getD_some, hplace,
      if_neg (Nat.ne_of_gt hsize)]
    rfl
  have hinj (j : Nat) (hj : j ≠ i) : array.addressOf j ≠ array.addressOf i := by
    rwa [Ne, array.addressOf_inj hsize]
  have hstart : array.start ≠ array.addressOf i := by
    rw [← array.addressOf_zero]
    exact hinj 0 (by omega)
  obtain ⟨id, hid, hfresh⟩ := hfilled.fresh
  rw [happly] at hcoherent ⊢
  refine ⟨hcoherent, hgains.frames.trans hfilled.frames, hgains.allocations.trans hfilled.allocations,
    Nat.le_trans hfilled.size_le hgains.size_le, ?_, ⟨id, (hgains.owner _ hstart).trans hid, hfresh⟩,
    ?_, ?_, ?_, ?_⟩
  · intro other hlt
    rw [hgains.kept other (Nat.lt_of_lt_of_le hlt hfilled.size_le)]
    exact hfilled.kept other hlt
  · have hmem : 0 ∈ i :: stored ↔ 0 ∈ stored := by
      rw [List.mem_cons, or_iff_right (by omega)]
    rw [hgains.other _ hstart, hfilled.first]
    simp only [hmem]
  · intro j hj hposj
    by_cases heq : j = i
    · rw [heq]
      exact hgains.self
    · rw [hgains.other _ (hinj j heq)]
      exact hfilled.elements j (List.mem_of_ne_of_mem heq hj) hposj
  · intro j hj hposj hmem
    obtain ⟨hne, hbefore⟩ := not_or.1 (mt List.mem_cons.2 hmem)
    rw [hgains.owner _ (hinj j hne)]
    exact hfilled.free j hj hposj hbefore
  · intro address hne hothers
    rw [hgains.other address (hothers i List.mem_cons_self)]
    exact hfilled.outside address hne fun j hj => hothers j (List.mem_cons_of_mem i hj)

/-- The elements may be stored in any order. -/
theorem Filled.store_all (hsize : 0 < array.size) (huntouched : Untouched array state)
    (hend : ∀ i < array.count, array.addressOf i < Numeral.largest64) {store : Nat → MemlogEvent}
    (hstores : ∀ i < array.count, (store i).Stores (array.addressOf i) array.size (data i))
    {order : List Nat} (hfilled : Filled array data stored state next)
    (horder : ∀ i ∈ order, i < array.count) (hnodup : (order ++ stored).Nodup) :
    Filled array data (order.reverse ++ stored) state
      (next.performAll (order.map fun i => .memlog (store i))) := by
  induction order generalizing stored next with
  | nil => exact hfilled
  | cons i order ih =>
    obtain ⟨hi, hrest⟩ := List.forall_mem_cons.1 horder
    obtain ⟨hnew, hothers⟩ := List.nodup_cons.1 hnodup
    have hstored : i ∉ stored := fun hmem => hnew (List.mem_append_right order hmem)
    have hstep : Filled array data (i :: stored) state (next.applyMemlog (store i)).2 := by
      by_cases hzero : i = 0
      · subst hzero
        exact hfilled.store_first hsize hstored (array.addressOf_zero ▸ hstores 0 hi)
      · exact hfilled.store_behind hsize huntouched hi (by omega) hstored (hend i hi) (hstores i hi)
    rw [List.reverse_cons, List.append_assoc, List.singleton_append]
    exact ih hstep hrest (List.nodup_middle.2 hnodup)

/-! ### How it is shown -/

/-- No value that was on the heap has an address in the range. -/
theorem Untouched.end_le (huntouched : Untouched array state) (hcoherent : state.Coherent)
    (hvalue : state.heapAt? address = some value) (hle : array.start ≤ address) :
    array.start + array.length ≤ address := by
  obtain ⟨id, hfind, -⟩ := Option.bind_eq_some_iff.1 hvalue
  have howns := ((hcoherent.heap address id).1 hfind).1
  by_contra hinside
  have hnone := huntouched.values address hle (by omega)
  rw [idAt?, howns] at hnone
  cases hnone

/-- Once all elements are stored, each of them is found where it belongs. -/
theorem Filled.heapAt?_addressOf (hfilled : Filled array data stored state next)
    (hstored : ∀ i, i ∈ stored ↔ i < array.count) (hi : i < array.count) :
    next.heapAt? (array.addressOf i) = some (array.holder data i) := by
  have hmem := (hstored i).2 hi
  by_cases hzero : i = 0
  · rw [hzero] at hmem
    rw [hzero, HeapArray.addressOf_zero, hfilled.first, if_pos hmem, HeapArray.holder, if_pos rfl]
  · rw [hfilled.elements i hmem (by omega), HeapArray.holder, if_neg hzero]

/-- Everywhere else the heap is as it was. -/
theorem Filled.heapAt?_of_outside (hfilled : Filled array data stored state next)
    (hstored : ∀ i, i ∈ stored ↔ i < array.count) (hcount : 0 < array.count)
    (houtside : ∀ i < array.count, array.addressOf i ≠ address) :
    next.heapAt? address = state.heapAt? address := by
  apply hfilled.outside
  · rintro rfl
    exact houtside 0 hcount array.addressOf_zero
  · rintro i hi rfl
    exact houtside i ((hstored i).1 hi) rfl

/-- The values below, the elements and the values above follow one another by their addresses. -/
theorem Untouched.ascending_around (huntouched : Untouched array state) (hcoherent : state.Coherent)
    (hsize : 0 < array.size) :
    (state.heapEntries.filter (·.1 < array.start) ++
      ((List.range array.count).map (fun i => (array.addressOf i, array.holder data i)) ++
        state.heapEntries.filter (array.start ≤ ·.1))).Pairwise fun a b => a.1 < b.1 := by
  have hkept (keep : Nat × Value → Bool) := state.ascending_heapEntries.filter keep
  refine List.pairwise_append.2 ⟨hkept _, List.pairwise_append.2 ⟨?_, hkept _, ?_⟩, ?_⟩
  · exact List.pairwise_lt_range.map _ fun i j hlt => array.addressOf_lt_addressOf hsize hlt
  · intro element helement above habove
    obtain ⟨i, hi, rfl⟩ := List.mem_map.1 helement
    obtain ⟨hmem, hle⟩ := List.mem_filter.1 habove
    exact Nat.lt_of_lt_of_le (array.addressOf_lt_end hsize (List.mem_range.1 hi))
      (huntouched.end_le hcoherent (mem_heapEntries_iff.1 hmem) (of_decide_eq_true hle))
  · intro below hbelow other hother
    have hlt := of_decide_eq_true (List.mem_filter.1 hbelow).2
    rcases List.mem_append.1 hother with hmem | hmem
    · obtain ⟨i, -, rfl⟩ := List.mem_map.1 hmem
      exact Nat.lt_of_lt_of_le hlt (Nat.le_add_right _ _)
    · exact Nat.lt_of_lt_of_le hlt (of_decide_eq_true (List.mem_filter.1 hmem).2)

/-- The elements have come to stand between the values below and those above. -/
theorem Filled.heapEntries_eq (hfilled : Filled array data stored state next)
    (hcoherent : state.Coherent) (hsize : 0 < array.size) (huntouched : Untouched array state)
    (hstored : ∀ i, i ∈ stored ↔ i < array.count) (hcount : 0 < array.count) :
    next.heapEntries = state.heapEntries.filter (·.1 < array.start) ++
      ((List.range array.count).map (fun i => (array.addressOf i, array.holder data i)) ++
        state.heapEntries.filter (array.start ≤ ·.1)) := by
  apply ProgramState.heapEntries_eq (huntouched.ascending_around hcoherent hsize)
  intro address value
  simp only [List.mem_append, List.mem_filter, List.mem_map, List.mem_range, mem_heapEntries_iff,
    decide_eq_true_eq, Prod.mk.injEq]
  by_cases hinside : ∃ i < array.count, array.addressOf i = address
  · obtain ⟨i, hi, rfl⟩ := hinside
    have hstart : array.start ≤ array.addressOf i := Nat.le_add_right _ _
    rw [hfilled.heapAt?_addressOf hstored hi, Option.some.injEq]
    constructor
    · rintro (⟨-, hlt⟩ | ⟨j, -, hsame, hvalue⟩ | ⟨hvalue, hle⟩)
      · omega
      · rwa [(array.addressOf_inj hsize).1 hsame] at hvalue
      · have hend := huntouched.end_le hcoherent hvalue hle
        have hlt := array.addressOf_lt_end hsize hi
        omega
    · intro hvalue
      exact .inr (.inl ⟨i, hi, rfl, hvalue⟩)
  · have hnever : ∀ i < array.count, array.addressOf i ≠ address :=
      fun i hi hsame => hinside ⟨i, hi, hsame⟩
    rw [hfilled.heapAt?_of_outside hstored hcount hnever]
    constructor
    · rintro (⟨hvalue, -⟩ | ⟨i, hi, hsame, -⟩ | ⟨hvalue, -⟩)
      · exact hvalue
      · exact absurd hsame (hnever i hi)
      · exact hvalue
    · intro hvalue
      rcases Nat.lt_or_ge address array.start with hlt | hle
      · exact .inl ⟨hvalue, hlt⟩
      · exact .inr (.inr ⟨hvalue, hle⟩)

theorem frameValues_congr (hcoherent : state.Coherent) (hframes : next.frames = state.frames)
    (hkept : ∀ id < state.values.size, next.values[id]? = state.values[id]?) (index : Nat) :
    next.frameValues index = state.frameValues index := by
  unfold frameValues
  rw [hframes]
  split
  · next frame hframe =>
    apply List.filterMap_congr
    intro id hlisted
    apply hkept
    exact lt_size_of_locationOf? (hcoherent.located frame (List.mem_of_getElem? hframe) id hlisted)
  · rfl

end ProgramState

namespace HeapArray
open Memlog

variable {array : HeapArray} {data : Nat → ValueData} {others : Nat}

/-- The label of a value on the heap is made of its address and its type. -/
theorem label_assign_heapValue (address length : Nat) (data : ValueData) :
    ((heapValue address length).assign data).label =
      '*' :: Numeral.address address ++ " (".toList ++ unsignedType length ++ [')'] := by
  have htype : (unsignedType length).isEmpty = false := by
    unfold unsignedType
    split <;> rfl
  show (if (unsignedType length).isEmpty then _ else _) = _
  rw [htype]
  rfl

theorem renderAt_holder_zero {text : Text} (hscalar : data 0 = .scalar text) :
    (array.holder data 0).renderAt 0 = array.firstLine data := by
  have hlabel := label_assign_heapValue array.start array.length (data 0)
  rw [holder, if_pos rfl, firstLine, whole]
  rw [hscalar] at hlabel ⊢
  show indentation 0 ++ (Value.assign _ _).label ++ ": ".toList ++ _ ++ ['\n'] = _
  rw [hlabel]
  simp [indentation]

/-- Behind the first element there is at least one other. -/
theorem map_holder_range (hcount : array.count = others + 2) :
    (List.range array.count).map (array.holder data) =
      array.holder data 0 :: (array.element data 1 ::
        (List.range' 2 others).map (array.element data)) := by
  rw [hcount, List.range_eq_range', List.range'_succ, List.range'_succ, List.map_cons, List.map_cons]
  refine congrArg _ (congrArg _ (List.map_congr_left ?_))
  intro i hi
  have hlt := (List.mem_range'_1.1 hi).1
  rw [holder, if_neg (by omega)]

theorem isMemberOf_of_mem_elements {value : Value}
    (hmem : value ∈ array.element data 1 :: (List.range' 2 others).map (array.element data)) :
    value.IsMemberOf array.start := by
  rw [← List.map_cons (f := array.element data)] at hmem
  obtain ⟨i, -, rfl⟩ := List.mem_map.1 hmem
  exact ⟨_, rfl, rfl⟩

theorem ascending_elements :
    (array.element data 1 :: (List.range' 2 others).map (array.element data)).Pairwise
      fun a b => a.slot.elim 0 (·.index) ≤ b.slot.elim 0 (·.index) := by
  have hrange : 1 :: List.range' 2 others = List.range' 1 (others + 1) := by
    rw [List.range'_succ]
  rw [← List.map_cons (f := array.element data), hrange, List.pairwise_map]
  exact List.pairwise_le_range' 1

theorem groupLine_eq (hcount : array.count = others + 2) :
    array.groupLine data = indentation 0 ++ (array.element data 1).label ++ ": [".toList ++
      commaSeparated ((array.element data 1 :: (List.range' 2 others).map (array.element data)).map
        (·.data.render)) ++ "]\n".toList := by
  have hlabel : (array.element data 1).label = '*' :: Numeral.address (array.addressOf 1) ++
      " (".toList ++ unsignedType array.size ++ [')'] :=
    label_assign_heapValue (array.addressOf 1) array.size (data 1)
  have hrange : List.range' 1 (array.count - 1) = 1 :: List.range' 2 others := by
    rw [hcount]
    exact List.range'_succ
  rw [groupLine, hrange, hlabel, ← List.map_cons (f := array.element data), List.map_map]
  simp [indentation, Function.comp_def, element, Value.assign]

end HeapArray

namespace ProgramState
open Memlog

variable {state next : ProgramState} {array : HeapArray} {data : Nat → ValueData} {stored : List Nat}

/-- The values on the heap are rendered as before, but for two lines: one for the first element and one
    for all others. -/
theorem Filled.renderList_heapValues (hfilled : Filled array data stored state next)
    (hcoherent : state.Coherent) (hsize : 0 < array.size) (huntouched : Untouched array state)
    (hstored : ∀ i, i ∈ stored ↔ i < array.count) (hcount : 2 ≤ array.count) {text : Text}
    (hscalar : data 0 = .scalar text) :
    ∃ before behind, Value.renderList 0 state.heapValues = before ++ behind ∧
      Value.renderList 0 next.heapValues =
        before ++ (array.firstLine data ++ array.groupLine data) ++ behind := by
  have hapart (keep : Nat × Value → Bool) :
      ∀ value ∈ (state.heapEntries.filter keep).map (·.2), ¬ value.IsMemberOf array.start := by
    intro value hvalue
    obtain ⟨⟨address, value⟩, hmem, rfl⟩ := List.mem_map.1 hvalue
    exact huntouched.members address value (mem_heapEntries_iff.1 (List.mem_of_mem_filter hmem))
  obtain ⟨others, hothers⟩ : ∃ others, array.count = others + 2 := ⟨array.count - 2, by omega⟩
  have hlead : (array.holder data 0).slot = none := rfl
  obtain ⟨before, behind, hold, hnew⟩ := Value.renderList_of_adjacent 0 hlead
    (fun _ => HeapArray.isMemberOf_of_mem_elements) HeapArray.ascending_elements
    (hapart fun entry => entry.1 < array.start) (hapart fun entry => array.start ≤ entry.1)
  have hmiddle : ((List.range array.count).map fun i => (array.addressOf i, array.holder data i)).map
      (·.2) = (List.range array.count).map (array.holder data) := List.map_map
  refine ⟨before, behind, ?_, ?_⟩
  · rw [← map_heapEntries, state.heapEntries_eq_append array.start, List.map_append, hold]
  · rw [← map_heapEntries, hfilled.heapEntries_eq hcoherent hsize huntouched hstored (by omega),
      List.map_append, List.map_append, hmiddle, HeapArray.map_holder_range hothers, List.cons_append,
      hnew, HeapArray.renderAt_holder_zero hscalar, HeapArray.groupLine_eq hothers]

/-- Nothing changes on the stack. -/
theorem Filled.describe_eq (hfilled : Filled array data stored state next) (hcoherent : state.Coherent) :
    ∃ top, state.describe = top ++ Value.renderList 0 state.heapValues ∧
      next.describe = top ++ Value.renderList 0 next.heapValues := by
  have hframe : ∀ frame, next.describeFrame frame = state.describeFrame frame := by
    intro frame
    unfold describeFrame
    rw [frameValues_congr hcoherent hfilled.frames hfilled.kept]
  refine ⟨heading "STACK:".toList ++ state.frames.flatMap state.describeFrame ++
    '\n' :: heading "HEAP:".toList, ?_, ?_⟩
  · rw [describe]
  · rw [describe, hfilled.frames, List.flatMap_congr fun frame _ => hframe frame]

/-- Whatever has been performed before, and in whatever order the elements are stored, a description then
    has two more lines than before: one for the first element of the array, and one in which all its
    other elements are listed by ascending index. -/
theorem describe_stored_array {operations : List Operation} {array : HeapArray}
    {data : Nat → ValueData} {allocation : MemlogEvent} {store : Nat → MemlogEvent} {order : List Nat}
    (hadmits : AdmitsAll {} operations) (huntouched : Untouched array (performAll operations {}))
    (hsize : 0 < array.size) (hcount : 2 ≤ array.count)
    (hend : array.addressOf (array.count - 1) < Numeral.largest64)
    (hallocates : allocation.Allocates array.start array.length)
    (hstores : ∀ i < array.count, (store i).Stores (array.addressOf i) array.size (data i))
    (horder : order.Perm (List.range array.count)) :
    ∃ before behind, (performAll operations {}).describe = before ++ behind ∧
      (performAll (operations ++ .memlog allocation :: order.map fun i => .memlog (store i))
          {}).describe =
        before ++ (array.firstLine data ++ array.groupLine data) ++ behind := by
  have hcoherent := coherent_empty.performAll hadmits
  have hend' : ∀ i < array.count, array.addressOf i < Numeral.largest64 := by
    intro i hi
    refine Nat.lt_of_le_of_lt ?_ hend
    rw [HeapArray.addressOf, HeapArray.addressOf]
    exact Nat.add_le_add_left (Nat.mul_le_mul_right _ (by omega)) _
  have horder' : ∀ i ∈ order, i < array.count := fun i hi => List.mem_range.1 (horder.mem_iff.1 hi)
  have hnodup : (order ++ []).Nodup := by
    rw [List.append_nil, horder.nodup_iff]
    exact List.nodup_range
  have hfilled := (filled_of_allocates hcoherent hsize (by omega) huntouched hallocates).store_all hsize
    huntouched hend' hstores horder' hnodup
  have hstored : ∀ i, i ∈ order.reverse ++ [] ↔ i < array.count := by
    intro i
    rw [List.append_nil, List.mem_reverse, horder.mem_iff, List.mem_range]
  obtain ⟨text, hscalar⟩ := exists_scalar_of_stores (hstores 0 (by omega))
  obtain ⟨before, behind, hold, hnew⟩ := hfilled.renderList_heapValues hcoherent hsize huntouched hstored
    hcount hscalar
  obtain ⟨top, hbefore, hafter⟩ := hfilled.describe_eq hcoherent
  refine ⟨top ++ before, behind, ?_, ?_⟩
  · rw [hbefore, hold, List.append_assoc]
  · rw [performAll, List.foldl_append, List.foldl_cons]
    refine hafter.trans ?_
    rw [hnew]
    simp only [List.append_assoc]

/-- Three elements that are stored from the last one on, in a program that has another block. -/
theorem describe_stored_array_descending :
    let operations : List Operation := [.pushFrame "main".toList, .memlog (.alloc 1 "0x3000".toList 8)]
    let array : HeapArray := { start := 0x2000, count := 3, size := 4 }
    let data (i : Nat) : ValueData := .scalar (Numeral.decimal (7 * i))
    let allocation : MemlogEvent := .alloc 2 "0x2000".toList 12
    let store (i : Nat) : MemlogEvent :=
      .store 3 (Numeral.address (0x2000 + i * 4)) 4 (["00", "07", "0e"][i]!.toList ++ "000000".toList)
    AdmitsAll {} operations ∧ Untouched array (performAll operations {}) ∧
      0 < array.size ∧ 2 ≤ array.count ∧ array.addressOf (array.count - 1) < Numeral.largest64 ∧
      allocation.Allocates array.start array.length ∧
      (∀ i < array.count, (store i).Stores (array.addressOf i) array.size (data i)) ∧
      [2, 1, 0].Perm (List.range array.count) ∧
      array.firstLine data ++ array.groupLine data =
        "*0x2000 (byte[12]): 0\n*0x2004 (u32): [7, 14]\n".toList ∧
      ∃ before behind, (performAll operations {}).describe = before ++ behind ∧
        (performAll (operations ++ .memlog allocation :: [2, 1, 0].map fun i => .memlog (store i))
          {}).describe = before ++ (array.firstLine data ++ array.groupLine data) ++ behind := by
  intro operations array data allocation store
  have hadmits : AdmitsAll {} operations := by decide +kernel
  have huntouched : Untouched array (performAll operations {}) := by decide +kernel
  have hallocates : allocation.Allocates array.start array.length :=
    ⟨2, "0x2000".toList, rfl, by decide⟩
  have hstores : ∀ i < array.count, (store i).Stores (array.addressOf i) array.size (data i) := by
    intro i hi
    have hread : ∀ i < 3, Memlog.address? (Numeral.address (0x2000 + i * 4)) = some (0x2000 + i * 4) ∧
        Memlog.storedData? (["00", "07", "0e"][i]!.toList ++ "000000".toList) 4 = some (data i) := by
      decide +kernel
    exact ⟨3, _, _, rfl, (hread i hi).1, (hread i hi).2⟩
  have horder : [2, 1, 0].Perm (List.range array.count) := by decide
  exact ⟨hadmits, huntouched, by decide, by decide, by decide, hallocates, hstores, horder,
    by decide +kernel, describe_stored_array hadmits huntouched (by decide) (by decide) (by decide)
      hallocates hstores horder⟩

/-- The first element of an array has no part in the group. -/
theorem first_element_apart :
    let operations : List Operation :=
      [.memlog (.alloc 1 "0x2000".toList 8), .memlog (.store 2 "0x2000".toList 4 "01000000".toList),
        .memlog (.store 3 "0x2004".toList 4 "02000000".toList)]
    Untouched { start := 0x2000, count := 2, size := 4 } {} ∧
      "*0x2000 (u64): 1\n*0x2004 (u32): [2]\n".toList <:+ (performAll operations {}).describe ∧
      ¬ "[1, 2]".toList <:+: (performAll operations {}).describe := by
  decide +kernel

end ProgramState
end DebugClient
