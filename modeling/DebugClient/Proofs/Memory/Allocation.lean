import DebugClient.Proofs.Memory.Retirement

/-!
Heap blocks. A block is known by its start, with the length that was reported for it last; as it is never
reported that one is freed, blocks may come to overlap and to lie in one another. An address is looked up
in the block that starts nearest below it, and in no other one, so a block hides what reaches beyond it
of the blocks that start before.
-/

namespace DebugClient

namespace AddressMap

/-- The entry found is the one with the greatest address that is not above the given one. -/
theorem floor?_eq_some_iff {α : Type} {map : AddressMap α} {address start : Nat} {a : α} :
    map.floor? address = some (start, a) ↔ map.find? start = some a ∧ start ≤ address ∧
      ∀ other, (map.find? other).isSome → other ≤ address → other ≤ start := by
  let below := map.entries.filter fun entry => entry.1 ≤ address
  have hbelow : ∀ other b, (other, b) ∈ below ↔ map.find? other = some b ∧ other ≤ address := by
    intro other b
    rw [List.mem_filter, find?_eq_some_iff, decide_eq_true_eq]
  have hlast : ∀ entry, map.floor? address = some entry → entry ∈ below ∧
      ∀ other ∈ below, other.1 ≤ entry.1 := by
    intro entry hfloor
    obtain ⟨others, hothers⟩ := List.getLast?_eq_some_iff.1 hfloor
    have hascending : below.Pairwise fun a b => a.1 < b.1 := map.ascending.filter _
    rw [show below = others ++ [entry] from hothers] at hascending ⊢
    refine ⟨by simp, ?_⟩
    intro other hother
    rcases List.mem_append.1 hother with hbefore | hsame
    · exact Nat.le_of_lt ((List.pairwise_append.1 hascending).2.2 other hbefore entry (by simp))
    · exact Nat.le_of_eq (congrArg Prod.fst (List.mem_singleton.1 hsame))
  constructor
  · intro hfloor
    obtain ⟨hmem, hgreatest⟩ := hlast _ hfloor
    obtain ⟨hfind, hle⟩ := (hbelow start a).1 hmem
    refine ⟨hfind, hle, ?_⟩
    intro other hsome hother
    obtain ⟨b, hb⟩ := Option.isSome_iff_exists.1 hsome
    exact hgreatest (other, b) ((hbelow other b).2 ⟨hb, hother⟩)
  · rintro ⟨hfind, hle, hgreatest⟩
    have hmem : (start, a) ∈ below := (hbelow start a).2 ⟨hfind, hle⟩
    cases hfloor : map.floor? address with
    | none =>
      have hempty : below = [] := List.getLast?_eq_none_iff.1 hfloor
      rw [hempty] at hmem
      cases hmem
    | some entry =>
      obtain ⟨other, b⟩ := entry
      obtain ⟨hother, hbound⟩ := hlast _ hfloor
      obtain ⟨hfound, hbefore⟩ := (hbelow other b).1 hother
      have hsame : other = start :=
        Nat.le_antisymm (hgreatest other (by rw [hfound]; rfl) hbefore) (hbound _ hmem)
      subst hsame
      rw [hfind] at hfound
      cases hfound
      rfl

end AddressMap

/-- The event stores this data, so many bytes of it, at this address. -/
def MemlogEvent.Stores (event : MemlogEvent) (address length : Nat) (data : ValueData) : Prop :=
  ∃ site pointer bytes, event = .store site pointer length bytes ∧
    Memlog.address? pointer = some address ∧ Memlog.storedData? bytes length = some data

/-- The block that an operation reports: its start and its length. -/
def Operation.report? : Operation → Option (Nat × Nat)
  | .allocate start length => some (start, length)
  | .memlog (.alloc _ pointer length) => (Memlog.address? pointer).map fun start => (start, length)
  | _ => none

/-- The length that was reported last for the block that starts at this address. -/
def lengthReported? (operations : List Operation) (start : Nat) : Option Nat :=
  (operations.filterMap Operation.report?).reverse.lookup start

/-- A block that starts at this address has been reported, and it contains the other address. -/
def ReportedAround (operations : List Operation) (start address : Nat) : Prop :=
  ∃ length, lengthReported? operations start = some length ∧ start ≤ address ∧ address < start + length

/-- No block has been reported that starts behind the one address and not behind the other. -/
def NearestReport (operations : List Operation) (start address : Nat) : Prop :=
  ∀ other, (lengthReported? operations other).isSome → other ≤ address → other ≤ start

namespace ProgramState
open Memlog

variable {state : ProgramState} {address start : Nat} {value : Value}

/-! ### What is known of the blocks -/

@[simp] theorem allocations_attach (id : Nat) (state : ProgramState) :
    (state.attach id).allocations = state.allocations := by
  unfold attach
  split <;> rfl

@[simp] theorem allocations_recordValue (value : Value) (state : ProgramState) :
    (state.recordValue value).2.allocations = state.allocations := by
  unfold recordValue
  split <;> exact allocations_attach _ _

@[simp] theorem allocations_modifyAt (address : Nat) (change : Value → Value) (state : ProgramState) :
    (state.modifyAt address change).allocations = state.allocations := by
  unfold modifyAt
  split <;> rfl

theorem allocations_observe (value : Value) (state : ProgramState) :
    (state.observe value).2.allocations = state.allocations := by
  unfold observe
  split
  · exact allocations_recordValue value state
  · split
    · exact allocations_recordValue value state
    · split
      · exact allocations_attach _ _
      · exact allocations_recordValue value state

theorem allocations_popFrame (state : ProgramState) :
    state.popFrame.allocations = state.allocations := by
  unfold popFrame
  split
  · rfl
  · next frame hlast =>
    obtain ⟨byAddress, hfold, -⟩ :=
      foldl_disown_eq frame.values { state with frames := state.frames.dropLast }
    rw [hfold]

theorem allocations_syncFrames (backtrace : List StackFrame) (state : ProgramState) :
    (state.syncFrames backtrace).allocations = state.allocations := by
  have hpop (n : Nat) (state : ProgramState) : (state.popFrames n).allocations = state.allocations := by
    induction n generalizing state with
    | zero => rfl
    | succ n ih => exact (ih state.popFrame).trans (allocations_popFrame state)
  have hpush (names : List Text) (state : ProgramState) :
      (names.foldl (fun state name => state.pushFrame name) state).allocations = state.allocations := by
    induction names generalizing state with
    | nil => rfl
    | cons name names ih => exact ih (state.pushFrame name)
  exact (hpush _ _).trans (hpop _ _)

theorem allocations_applyMemlog (event : MemlogEvent) (state : ProgramState) :
    (state.applyMemlog event).2.allocations = match (Operation.memlog event).report? with
      | some (start, length) => state.allocations.insert start length
      | none => state.allocations := by
  cases event with
  | alloc site pointer length =>
    simp only [applyMemlog, Operation.report?]
    cases Memlog.address? pointer with
    | none => rfl
    | some start => exact allocations_recordValue _ _
  | store site pointer length bytes =>
    simp only [applyMemlog, Operation.report?]
    split
    · split
      · rfl
      · split
        · rfl
        · exact allocations_recordValue _ _
    · rfl
  | localVariable site name => rfl

/-- An operation puts down the block that it reports, in the place of any with the same start. -/
theorem allocations_perform (operation : Operation) (state : ProgramState) :
    (state.perform operation).allocations = match operation.report? with
      | some (start, length) => state.allocations.insert start length
      | none => state.allocations := by
  cases operation with
  | pushFrame name => rfl
  | popFrame => exact allocations_popFrame state
  | syncFrames backtrace => exact allocations_syncFrames backtrace state
  | record value => exact allocations_recordValue value state
  | observe value => exact allocations_observe value state
  | allocate start length => rfl
  | memlog event => exact allocations_applyMemlog event state
  | rollback address => exact allocations_modifyAt address _ state
  | assign address data => exact allocations_modifyAt address _ state

/-- Of each block the last report counts. -/
theorem allocationLength?_performAll (operations : List Operation) (start : Nat) :
    (performAll operations {}).allocationLength? start = lengthReported? operations start := by
  rw [allocationLength?, lengthReported?]
  induction operations using List.reverseRecOn with
  | nil => rfl
  | append_singleton operations operation ih =>
    rw [performAll, List.foldl_append, List.foldl_cons, List.foldl_nil, allocations_perform,
      List.filterMap_append]
    cases hreport : operation.report? with
    | none =>
      simp only [List.filterMap_cons, hreport, List.filterMap_nil, List.append_nil]
      exact ih
    | some report =>
      simp only [List.filterMap_cons, hreport, List.filterMap_nil, List.reverse_append,
        List.reverse_cons, List.reverse_nil, List.nil_append, List.singleton_append]
      rw [AddressMap.find?_insert, AddressMap.lookup_cons_eq_ite, ← ih]
      rfl

/-! ### Looking an address up -/

/-- The block found contains the address, and there is none that starts between. -/
theorem allocationContaining?_eq_some_iff (haddress : address < Numeral.largest64) :
    state.allocationContaining? address = some start ↔
      (∃ length, state.allocationLength? start = some length ∧ start ≤ address ∧
        address < start + length) ∧
      ∀ other, (state.allocationLength? other).isSome → other ≤ address → other ≤ start := by
  have hbound (length : Nat) :
      address < min (start + length) Numeral.largest64 ↔ address < start + length := by omega
  unfold allocationContaining?
  constructor
  · intro hfound
    split at hfound
    · next nearest length hfloor =>
      split at hfound
      · next hinside =>
        cases hfound
        obtain ⟨hfind, hle, hgreatest⟩ := AddressMap.floor?_eq_some_iff.1 hfloor
        exact ⟨⟨length, hfind, hle, (hbound length).1 hinside⟩, hgreatest⟩
      · cases hfound
    · cases hfound
  · rintro ⟨⟨length, hfind, hle, hinside⟩, hgreatest⟩
    rw [AddressMap.floor?_eq_some_iff.2 ⟨hfind, hle, hgreatest⟩]
    exact if_pos ((hbound length).2 hinside)

theorem valueAt?_recordValue (hnone : state.idAt? address = none)
    (haddress : value.address = some address) :
    (state.recordValue value).2.valueAt? address = some value := by
  have hid : (state.recordValue value).2.idAt? address = some state.values.size := by
    rw [recordValue, haddress, Option.bind_some, hnone]
    dsimp only
    rw [idAt?, byAddress_attach, AddressMap.find?_insert, if_pos rfl]
  rw [valueAt?, hid, Option.bind_some, (recordValue_of_idAt?_eq_none hnone haddress).2]
  exact Array.getElem?_push_size

/-- Where there is no value yet, something stored is recorded exactly if the address is found in a
    block; otherwise the event has no effect. -/
theorem applyMemlog_of_stores {event : MemlogEvent} {length : Nat} {data : ValueData}
    (hstores : event.Stores address length data) (hnone : state.idAt? address = none) :
    match state.allocationContaining? address with
    | some _ => ∃ id value, (state.applyMemlog event).1 = some id ∧
        (state.applyMemlog event).2.valueAt? address = some value ∧ value.data = data
    | none => state.applyMemlog event = (none, state) := by
  obtain ⟨site, pointer, bytes, rfl, hpointer, hbytes⟩ := hstores
  simp only [applyMemlog, hpointer, hbytes, hnone]
  cases state.allocationContaining? address with
  | none => rfl
  | some start =>
    refine ⟨_, _, rfl, valueAt?_recordValue hnone ?_, rfl⟩
    dsimp only [Value.assign]
    split <;> rfl

/-! ### Whatever has been reported -/

/-- How an address is looked up, and what that means for a store. -/
structure Locates (operations : List Operation) (address : Nat) : Prop where
  /-- The block found is the one around the address that no other block, starting in between, hides. -/
  found : ∀ start, (performAll operations {}).allocationContaining? address = some start ↔
    ReportedAround operations start address ∧ NearestReport operations start address
  /-- Outside of all blocks none is found. -/
  outside : (∀ start, ¬ ReportedAround operations start address) →
    (performAll operations {}).allocationContaining? address = none
  /-- A store where there is no value yet is recorded if the block is not hidden. -/
  recorded : ∀ event length data start, event.Stores address length data →
    (performAll operations {}).idAt? address = none →
    ReportedAround operations start address → NearestReport operations start address →
    ∃ id value, ((performAll operations {}).applyMemlog event).1 = some id ∧
      ((performAll operations {}).applyMemlog event).2.valueAt? address = some value ∧
      value.data = data
  /-- If all blocks around the address are hidden, the store is lost. -/
  lost : ∀ event length data, event.Stores address length data →
    (performAll operations {}).idAt? address = none →
    (∀ start, ReportedAround operations start address → ¬ NearestReport operations start address) →
    (performAll operations {}).applyMemlog event = (none, performAll operations {})

/-- Whatever has been reported and performed, of the blocks around an address the one that starts
    nearest is found, unless another block starts in between. -/
theorem locates_performAll (operations : List Operation) (haddress : address < Numeral.largest64) :
    Locates operations address := by
  have hfound : ∀ start, (performAll operations {}).allocationContaining? address = some start ↔
      ReportedAround operations start address ∧ NearestReport operations start address := by
    intro start
    rw [allocationContaining?_eq_some_iff haddress]
    simp only [allocationLength?_performAll]
    rfl
  have hnone : (∀ start, ReportedAround operations start address →
      ¬ NearestReport operations start address) →
      (performAll operations {}).allocationContaining? address = none := by
    intro hhidden
    rw [Option.eq_none_iff_forall_ne_some]
    intro start hsome
    obtain ⟨haround, hnearest⟩ := (hfound start).1 hsome
    exact hhidden start haround hnearest
  refine ⟨hfound, fun houtside => hnone fun start haround => absurd haround (houtside start), ?_, ?_⟩
  · intro event length data start hstores hfree haround hnearest
    have hstored := applyMemlog_of_stores hstores hfree
    rw [(hfound start).2 ⟨haround, hnearest⟩] at hstored
    exact hstored
  · intro event length data hstores hfree hhidden
    have hstored := applyMemlog_of_stores hstores hfree
    rw [hnone hhidden] at hstored
    exact hstored

/-- An address in the inner one of two blocks. -/
theorem locates_performAll_inner :
    let operations : List Operation :=
      [.memlog (.alloc 1 "0x1000".toList 64), .memlog (.alloc 2 "0x1010".toList 8)]
    0x1014 < Numeral.largest64 ∧ ReportedAround operations 0x1000 0x1014 ∧
      (performAll operations {}).allocationContaining? 0x1014 = some 0x1010 ∧
      Locates operations 0x1014 :=
  ⟨by decide, ⟨64, by decide⟩, by decide +kernel, locates_performAll _ (by decide)⟩

/-- A block that has been freed and is in the range of another one by now hides the rest of that. -/
theorem lost_behind_freed_block :
    let operations : List Operation :=
      [.memlog (.alloc 1 "0x1010".toList 8), .memlog (.alloc 2 "0x1000".toList 64)]
    ReportedAround operations 0x1000 0x1020 ∧ 0x1020 < Numeral.largest64 ∧
      (performAll operations {}).idAt? 0x1020 = none ∧
      (performAll operations {}).allocationContaining? 0x1020 = none ∧
      (performAll operations {}).applyMemlog
          (.store 3 "0x1020".toList 4 "07000000".toList) = (none, performAll operations {}) :=
  ⟨⟨64, by decide⟩, by decide, by decide +kernel, by decide +kernel, by decide +kernel⟩

end ProgramState
end DebugClient
