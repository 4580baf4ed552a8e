import DebugClient.Proofs.Memory.Allocation

/-!
What one event of the memory log does. Either it leaves everything as it is, or it touches one value,
and besides that value at most what its own address leads to. A store leaves its data in the value that
it touches. Where it makes a new one, that gets the place in its block at which pieces of the same
length that fill the block would stand.
-/

namespace DebugClient.ProgramState
open Memlog

/-- What a frame lists besides one value. -/
def Frame.without (id : Nat) (frame : Frame) : Frame :=
  { frame with values := frame.values.filter (· ≠ id) }

/-- All values but one, all that other addresses lead to and all else that the frames list are as they
    were. -/
structure TouchesOnly (state : ProgramState) (id : Nat) (address : Option Nat) (next : ProgramState) :
    Prop where
  values : ∀ other, other ≠ id → next.values[other]? = state.values[other]?
  owner : ∀ other, address ≠ some other → next.idAt? other = state.idAt? other
  heap : ∀ other, address ≠ some other → next.heap.find? other = state.heap.find? other
  allocations : ∀ other, address ≠ some other →
    next.allocationLength? other = state.allocationLength? other
  frames : next.frames.map (Frame.without id) = state.frames.map (Frame.without id)

/-- The place of so many bytes at an address: in a block around it, with as many pieces of this length
    in front of it as there is room for. -/
structure Places (state : ProgramState) (address length : Nat) (slot : ArraySlot) : Prop where
  positive : 0 < length
  le : slot.start + slot.index * length ≤ address
  lt : address < slot.start + (slot.index + 1) * length
  block : ∃ blockLength, state.allocationLength? slot.start = some blockLength ∧
    address < slot.start + blockLength ∧ slot.length = max (blockLength / length) 1

/-- The data has been stored in the value. If it was known before, only other data has made its history
    grow; if not, it has been recorded at its place. -/
structure Stored (state : ProgramState) (id address length : Nat) (data : ValueData)
    (next : ProgramState) : Prop where
  owner : next.idAt? address = some id
  value : ∃ value, next.values[id]? = some value ∧ value.data = data
  known : ∀ known, state.values[id]? = some known → next.values[id]? = some { known with
    data, history := if known.data = data then known.history else known.data :: known.history }
  new : state.values[id]? = none → ∀ value, next.values[id]? = some value →
    value.history = [.uninitialized] ∧
    (length = 0 ∧ value.slot = none ∨ ∃ slot, value.slot = some slot ∧ state.Places address length slot)

/-- What an event does, and what it leaves alone. -/
structure Atomic (state : ProgramState) (event : MemlogEvent) : Prop where
  refused : (state.applyMemlog event).1 = none → (state.applyMemlog event).2 = state
  applied : ∀ id, (state.applyMemlog event).1 = some id →
    state.TouchesOnly id event.target? (state.applyMemlog event).2
  stored : ∀ id address length data, (state.applyMemlog event).1 = some id →
    event.Stores address length data → state.Stored id address length data (state.applyMemlog event).2

variable {state : ProgramState} {event : MemlogEvent} {id address start length : Nat}

/-! ### What stays -/

theorem without_adopt (id : Nat) (location : Location) (frame : Frame) :
    Frame.without id (Frame.adopt id location frame) = Frame.without id frame := by
  unfold Frame.adopt
  split
  · split
    · rfl
    · simp [Frame.without]
  · simp [Frame.without]

theorem map_without_adopt (id : Nat) (location : Location) (frames : List Frame) :
    (frames.map (Frame.adopt id location)).map (Frame.without id) = frames.map (Frame.without id) := by
  rw [List.map_map]
  exact List.map_congr_left fun frame _ => without_adopt id location frame

/-- A block is reported at the address of the event. -/
theorem allocationLength?_applyMemlog {other : Nat} (hother : event.target? ≠ some other) :
    (state.applyMemlog event).2.allocationLength? other = state.allocationLength? other := by
  rw [allocationLength?, allocations_applyMemlog]
  cases event with
  | alloc site pointer length =>
    simp only [Operation.report?]
    cases hpointer : address? pointer with
    | none => rfl
    | some start =>
      have hne : other ≠ start := by
        rintro rfl
        exact hother hpointer
      simp only [Option.map_some]
      rw [AddressMap.find?_insert, if_neg hne, allocationLength?]
  | store site pointer length bytes => rfl
  | localVariable site name => rfl

theorem touchesOnly_applyMemlog (howners : state.OwnersHold)
    (hid : (state.applyMemlog event).1 = some id) :
    state.TouchesOnly id event.target? (state.applyMemlog event).2 := by
  have hallocations : ∀ other, event.target? ≠ some other →
      (state.applyMemlog event).2.allocationLength? other = state.allocationLength? other :=
    fun _ hother => allocationLength?_applyMemlog hother
  rcases applyMemlog_cases event state with heq | ⟨address, owner, data, -, -, heq⟩ |
    ⟨allocations, value, -, haddress, -, heq⟩
  · rw [heq] at hid
    cases hid
  · rw [heq] at hid hallocations ⊢
    cases hid
    refine ⟨?_, fun _ _ => rfl, fun _ _ => rfl, hallocations, rfl⟩
    intro other hother
    rw [modifyValue, Array.getElem?_modify, if_neg hother.symm]
  · have howners' : OwnersHold { state with allocations } := howners
    obtain ⟨recorded, next, hrecord, hsettles, -⟩ := settles_recordValue howners' value
    rw [heq, hrecord] at hid hallocations ⊢
    cases hid
    rw [← haddress] at hallocations ⊢
    refine ⟨hsettles.other, ?_, ?_, hallocations, ?_⟩
    · intro other hother
      rw [idAt?, hsettles.owner, if_neg hother, idAt?]
    · intro other hother
      rw [hsettles.heap, if_neg hother]
    · rw [hsettles.frames, map_without_adopt]

/-! ### What is stored -/

theorem exists_block_of_allocationContaining?
    (hblock : state.allocationContaining? address = some start) :
    ∃ blockLength, state.allocationLength? start = some blockLength ∧ start ≤ address ∧
      address < start + blockLength := by
  unfold allocationContaining? at hblock
  split at hblock
  · next nearest blockLength hfloor =>
    split at hblock
    · next hinside =>
      cases hblock
      obtain ⟨hfind, hle, -⟩ := AddressMap.floor?_eq_some_iff.1 hfloor
      exact ⟨blockLength, hfind, hle, by omega⟩
    · cases hblock
  · cases hblock

/-- As the address is in the block and the pieces have a length, the index is that of the piece around
    the address. -/
theorem places_slotIn {blockLength : Nat} (hlength : length ≠ 0)
    (hblock : state.allocationLength? start = some blockLength) (hle : start ≤ address)
    (hlt : address < start + blockLength) :
    state.Places address length (slotIn start blockLength address length) := by
  have hpositive : 0 < length := Nat.pos_of_ne_zero hlength
  have hfloor : (address - start) / length * length ≤ address - start := Nat.div_mul_le_self _ _
  have hceil : address - start < ((address - start) / length + 1) * length :=
    Nat.lt_mul_of_div_lt (Nat.lt_succ_self _) hpositive
  refine ⟨hpositive, ?_, ?_, blockLength, hblock, hlt, rfl⟩
  · dsimp only [slotIn]
    omega
  · dsimp only [slotIn]
    omega

/-- What is stored where there is no value yet is recorded as a new one. -/
theorem exists_recordValue_of_stores {data : ValueData} (hstores : event.Stores address length data)
    (hnone : state.idAt? address = none) (hid : (state.applyMemlog event).1 = some id) :
    ∃ value, value.address = some address ∧ value.data = data ∧ value.history = [.uninitialized] ∧
      (length = 0 ∧ value.slot = none ∨
        ∃ slot, value.slot = some slot ∧ state.Places address length slot) ∧
      state.applyMemlog event = (some (state.recordValue value).1, (state.recordValue value).2) := by
  obtain ⟨site, pointer, bytes, rfl, hpointer, hbytes⟩ := hstores
  simp only [applyMemlog, hpointer, hbytes, hnone] at hid ⊢
  cases hcontaining : state.allocationContaining? address with
  | none =>
    rw [hcontaining] at hid
    cases hid
  | some start =>
    obtain ⟨blockLength, hblock, hle, hlt⟩ := exists_block_of_allocationContaining? hcontaining
    by_cases hlength : length = 0
    · refine ⟨(heapValue address length).assign data, rfl, rfl, rfl, .inl ⟨hlength, rfl⟩, ?_⟩
      simp only [if_pos hlength]
    · refine ⟨Value.assign data { heapValue address length with
        slot := some (slotIn start blockLength address length) }, rfl, rfl, rfl,
        .inr ⟨_, rfl, places_slotIn hlength hblock hle hlt⟩, ?_⟩
      simp only [if_neg hlength, hblock, Option.getD_some]

theorem stored_applyMemlog {data : ValueData} (howners : state.OwnersHold)
    (hid : (state.applyMemlog event).1 = some id) (hstores : event.Stores address length data) :
    state.Stored id address length data (state.applyMemlog event).2 := by
  cases hknown : state.idAt? address with
  | some owner =>
    obtain ⟨known, hvalue, -⟩ := Option.bind_eq_some_iff.1 (howners address owner hknown)
    obtain ⟨site, pointer, bytes, rfl, hpointer, hbytes⟩ := hstores
    simp only [applyMemlog, hpointer, hbytes, hknown] at hid ⊢
    cases hid
    have hnext : (state.modifyValue id fun value =>
        if value.data = data then value else value.assign data).values[id]? = some { known with
          data
          history := if known.data = data then known.history else known.data :: known.history } := by
      rw [modifyValue, Array.getElem?_modify, if_pos rfl, hvalue, Option.map_some]
      split
      · next hsame =>
        subst hsame
        cases known
        rfl
      · rfl
    refine ⟨hknown, ⟨_, hnext, rfl⟩, ?_, ?_⟩
    · intro known' hvalue'
      rw [hvalue] at hvalue'
      cases hvalue'
      exact hnext
    · intro hnew
      rw [hvalue] at hnew
      cases hnew
  | none =>
    obtain ⟨value, haddress, hdata, hhistory, hslot, heq⟩ :=
      exists_recordValue_of_stores hstores hknown hid
    obtain ⟨hnumber, hvalues⟩ := recordValue_of_idAt?_eq_none hknown haddress
    obtain ⟨recorded, next, hrecord, hsettles, -⟩ := settles_recordValue howners value
    rw [heq] at hid ⊢
    rw [hrecord] at hid hnumber hvalues ⊢
    cases hid
    refine ⟨hsettles.find?_self haddress, ⟨value, hsettles.self, hdata⟩, ?_, ?_⟩
    · intro known hvalue
      have := (Array.getElem?_eq_some_iff.1 hvalue).1
      dsimp only at hnumber
      omega
    · rintro - value' hvalue'
      rw [hsettles.self] at hvalue'
      cases hvalue'
      exact ⟨hhistory, hslot⟩

/-- Whatever has been performed, an event is refused as a whole or touches one value and its own address
    only, and what it stores is what that value holds. -/
theorem atomic_performAll (operations : List Operation) (event : MemlogEvent) :
    (performAll operations {}).Atomic event := by
  have howners := (sound_empty.performAll operations).owners
  refine ⟨?_, fun id hid => touchesOnly_applyMemlog howners hid,
    fun id address length data hid hstores => stored_applyMemlog howners hid hstores⟩
  intro hnone
  rcases applyMemlog_cases event (performAll operations {}) with heq | ⟨_, _, _, -, -, heq⟩ |
    ⟨_, _, -, -, -, heq⟩
  · rw [heq]
  · rw [heq] at hnone
    cases hnone
  · rw [heq] at hnone
    cases hnone

end DebugClient.ProgramState
