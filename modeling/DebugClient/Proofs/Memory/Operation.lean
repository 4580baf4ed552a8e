import Mathlib.Data.List.Basic
import DebugClient.Memlog.Apply
import DebugClient.Proofs.Memory.AddressMap

/-!
What each operation on the picture of the target does. Values come to be known, or are seen again, in
one way: they settle under a number, own their address from then on, and are listed where their
location says. A frame that is left takes their addresses from the values listed in it. All other
operations change no more than the data of a value.
-/

namespace DebugClient

/-- What may happen to the picture of the target. -/
inductive Operation where
  | pushFrame (name : Text)
  | popFrame
  | syncFrames (backtrace : List StackFrame)
  | record (value : Value)
  | observe (value : Value)
  | allocate (start length : Nat)
  | memlog (event : MemlogEvent)
  | rollback (address : Nat)
  | assign (address : Nat) (data : ValueData)
  deriving DecidableEq

/-- The address at which an event happens. -/
def MemlogEvent.target? : MemlogEvent → Option Nat
  | .alloc _ pointer _ | .store _ pointer _ _ => Memlog.address? pointer
  | .localVariable _ _ => none

namespace ProgramState

def perform : Operation → ProgramState → ProgramState
  | .pushFrame name, state => state.pushFrame name
  | .popFrame, state => state.popFrame
  | .syncFrames backtrace, state => state.syncFrames backtrace
  | .record value, state => (state.recordValue value).2
  | .observe value, state => (state.observe value).2
  | .allocate start length, state => state.recordAllocation start length
  | .memlog event, state => (state.applyMemlog event).2
  | .rollback address, state => (state.rollbackAt address).2
  | .assign address data, state => state.modifyAt address (Value.assign data)

def performAll (operations : List Operation) (state : ProgramState) : ProgramState :=
  operations.foldl (fun state operation => state.perform operation) state

/-- A location is there if it is the heap or a frame of the stack. -/
def HasLocation (state : ProgramState) : Location → Prop
  | .stack frame => frame < state.frames.length
  | .heap => True

instance (state : ProgramState) (location : Location) : Decidable (state.HasLocation location) :=
  match location with
  | .stack _ => inferInstanceAs (Decidable (_ < _))
  | .heap => inferInstanceAs (Decidable True)

/-- A value that is recorded or observed has its location there. -/
def Admits (state : ProgramState) : Operation → Prop
  | .record value | .observe value => state.HasLocation value.location
  | _ => True

instance (state : ProgramState) (operation : Operation) : Decidable (state.Admits operation) :=
  match operation with
  | .record _ | .observe _ => inferInstanceAs (Decidable (HasLocation _ _))
  | .pushFrame _ | .popFrame | .syncFrames _ | .allocate _ _ | .memlog _ | .rollback _ | .assign _ _ =>
    inferInstanceAs (Decidable True)

/-- Each operation is admitted at the moment when it is performed. -/
def AdmitsAll : ProgramState → List Operation → Prop
  | _, [] => True
  | state, operation :: operations =>
    state.Admits operation ∧ (state.perform operation).AdmitsAll operations

instance decidableAdmitsAll : (state : ProgramState) → (operations : List Operation) →
    Decidable (state.AdmitsAll operations)
  | _, [] => inferInstanceAs (Decidable True)
  | state, operation :: operations =>
    have := decidableAdmitsAll (state.perform operation) operations
    inferInstanceAs (Decidable (_ ∧ _))

variable {state : ProgramState} {value : Value} {id : Nat}

/-! ### Values -/

/-- The address of the value with this number. -/
def addressOf? (id : Nat) (state : ProgramState) : Option Nat := state.values[id]?.bind (·.address)

/-- The location of the value with this number. -/
def locationOf? (id : Nat) (state : ProgramState) : Option Location :=
  state.values[id]?.map (·.location)

/-- The value has settled under its number: it owns its address, if it has one, and is listed where its
    location says and nowhere else. No other value had that address, and the number had no other
    address. All other values are as they were. -/
structure Settles (state : ProgramState) (id : Nat) (value : Value) (next : ProgramState) : Prop where
  self : next.values[id]? = some value
  other : ∀ other, other ≠ id → next.values[other]? = state.values[other]?
  owner : ∀ address, next.byAddress.find? address =
    if value.address = some address then some id else state.byAddress.find? address
  heap : ∀ address, next.heap.find? address =
    if value.address = some address then if value.location = .heap then some id else none
    else state.heap.find? address
  frames : next.frames = state.frames.map (Frame.adopt id value.location)
  allocations : next.allocations = state.allocations
  /-- The number has owned no address but that of the value. -/
  owned : ∀ address, state.byAddress.find? address = some id → value.address = some address
  /-- The address of the value has had no other owner. -/
  sole : ∀ address other, value.address = some address →
    state.byAddress.find? address = some other → other = id

theorem attach_of_value (hvalue : state.values[id]? = some value) :
    state.attach id = { state with
      heap := match value.address with
        | none => state.heap
        | some address =>
          if value.location = .heap then state.heap.insert address id else state.heap.erase address
      frames := state.frames.map (Frame.adopt id value.location) } := by
  rw [attach]
  split
  · next hnone => cases hvalue.symm.trans hnone
  · next found hfound =>
    cases hvalue.symm.trans hfound
    rfl

/-- A value that has been put in place and owns its address settles when it is attached. -/
theorem settles_attach {placed : ProgramState} (hself : placed.values[id]? = some value)
    (hother : ∀ other, other ≠ id → placed.values[other]? = state.values[other]?)
    (howner : ∀ address, placed.byAddress.find? address =
      if value.address = some address then some id else state.byAddress.find? address)
    (hsame : placed.heap = state.heap ∧ placed.frames = state.frames ∧
      placed.allocations = state.allocations)
    (howned : ∀ address, state.byAddress.find? address = some id → value.address = some address)
    (hsole : ∀ address other, value.address = some address →
      state.byAddress.find? address = some other → other = id) :
    state.Settles id value (placed.attach id) := by
  obtain ⟨hheap, hframes, hallocations⟩ := hsame
  rw [attach_of_value hself]
  refine ⟨hself, hother, howner, ?_, ?_, hallocations, howned, hsole⟩
  · intro address
    dsimp only
    rw [hheap]
    cases haddress : value.address with
    | none => simp
    | some own =>
      dsimp only
      by_cases hplace : value.location = .heap
      · rw [if_pos hplace, if_pos hplace, AddressMap.find?_insert]
        simp only [Option.some.injEq, eq_comm]
      · rw [if_neg hplace, if_neg hplace, AddressMap.find?_erase]
        simp only [Option.some.injEq, eq_comm]
  · rw [← hframes]

/-- Every owner of an address is a value with that address. -/
def OwnersHold (state : ProgramState) : Prop :=
  ∀ address id, state.byAddress.find? address = some id → state.addressOf? id = some address

theorem lt_size_of_addressOf? {address : Nat} (haddress : state.addressOf? id = some address) :
    id < state.values.size := by
  obtain ⟨value, hvalue, -⟩ := Option.bind_eq_some_iff.1 haddress
  exact (Array.getElem?_eq_some_iff.1 hvalue).1

/-- A value that takes the place of a known one, with the same address, settles. -/
theorem settles_modifyValue {known : Value} {change : Value → Value} (howners : state.OwnersHold)
    (hknown : state.values[id]? = some known) (haddress : (change known).address = known.address)
    (howns : ∀ address, known.address = some address → state.byAddress.find? address = some id) :
    state.Settles id (change known) ((state.modifyValue id change).attach id) := by
  apply settles_attach
  · simp [modifyValue, Array.getElem?_modify, hknown]
  · intro other hother
    simp [modifyValue, Array.getElem?_modify, hother.symm]
  · intro address
    rw [haddress]
    by_cases hown : known.address = some address
    · rw [if_pos hown]
      exact howns address hown
    · rw [if_neg hown]
      rfl
  · exact ⟨rfl, rfl, rfl⟩
  · intro address hfind
    have hof := howners address id hfind
    rw [haddress]
    simpa [addressOf?, hknown] using hof
  · intro address other hown hfind
    rw [haddress] at hown
    have := howns address hown
    rw [hfind] at this
    exact Option.some.inj this

/-- A value that is recorded settles, under the number of the owner of its address if there is one, and
    under a new number otherwise. -/
theorem settles_recordValue (howners : state.OwnersHold) (value : Value) :
    ∃ id next, state.recordValue value = (id, next) ∧ state.Settles id value next ∧
      ((∃ address, value.address = some address ∧ state.byAddress.find? address = some id) ∨
        id = state.values.size ∧ ∀ address, value.address = some address →
          state.byAddress.find? address = none) := by
  cases hknown : value.address.bind fun address => state.idAt? address with
  | some id =>
    obtain ⟨address, haddress, hfind⟩ := Option.bind_eq_some_iff.1 hknown
    obtain ⟨known, hvalue, hof⟩ := Option.bind_eq_some_iff.1 (howners address id hfind)
    refine ⟨id, (state.modifyValue id fun _ => value).attach id, ?_, ?_,
      .inl ⟨address, haddress, hfind⟩⟩
    · rw [recordValue, hknown]
    · apply settles_modifyValue howners hvalue
      · rw [haddress, hof]
      · intro other hother
        rw [hof] at hother
        cases hother
        exact hfind
  | none =>
    have hnew : ∀ address, value.address = some address →
        state.byAddress.find? address = none := by
      intro address haddress
      rw [haddress] at hknown
      exact hknown
    rw [recordValue]
    split
    · next known hsome => cases hknown.symm.trans hsome
    · refine ⟨_, _, rfl, ?_, .inr ⟨rfl, hnew⟩⟩
      apply settles_attach
      · simp
      · intro other hother
        simp [Array.getElem?_push, hother]
      · intro address
        cases haddress : value.address with
        | none => simp
        | some own =>
          dsimp only
          rw [AddressMap.find?_insert]
          simp only [Option.some.injEq, eq_comm]
      · exact ⟨rfl, rfl, rfl⟩
      · intro address hfind
        have := lt_size_of_addressOf? (howners address _ hfind)
        omega
      · intro address other haddress hfind
        rw [hnew address haddress] at hfind
        cases hfind

/-- A listed value that has an address owns it. -/
def ListedOwn (state : ProgramState) : Prop :=
  ∀ frame ∈ state.frames, ∀ id ∈ frame.values, ∀ address,
    state.addressOf? id = some address → state.byAddress.find? address = some id

@[simp] theorem address_updated (known seen : Value) :
    (updated known seen).address = known.address := by
  unfold updated
  dsimp only
  split <;> split <;> rfl

@[simp] theorem location_updated (known seen : Value) :
    (updated known seen).location = known.location := by
  unfold updated
  dsimp only
  split <;> split <;> rfl

/-- The value that an observed one may be another sight of owns the address it has. -/
theorem owns_of_findExisting? (howners : state.OwnersHold) (hlisted : state.ListedOwn)
    (hfind : state.findExisting? value = some id) :
    ∀ address, state.addressOf? id = some address → state.byAddress.find? address = some id := by
  intro address hof
  unfold findExisting? at hfind
  split at hfind
  · next own haddress =>
    rw [howners own id hfind] at hof
    cases hof
    exact hfind
  · cases hfind
  · next index haddress hlocation =>
    obtain ⟨frame, hframe, hsame⟩ := Option.bind_eq_some_iff.1 hfind
    exact hlisted frame (List.mem_of_getElem? hframe) id (List.mem_of_find?_eq_some hsame) address hof

/-- A value that is observed settles: as it is, or as another sight of a value of the same name and
    location that was known. -/
theorem settles_observe (howners : state.OwnersHold) (hlisted : state.ListedOwn) (value : Value) :
    ∃ id settled next, state.observe value = (id, next) ∧ state.Settles id settled next ∧
      settled.location = value.location ∧
      (settled = value ∨ ∃ known, state.values[id]? = some known ∧ known.name = value.name ∧
        settled = updated known value) := by
  obtain ⟨id, next, hrecord, hsettles, -⟩ := settles_recordValue howners value
  have hrecorded : ∃ id settled next, state.recordValue value = (id, next) ∧
      state.Settles id settled next ∧ settled.location = value.location ∧
      (settled = value ∨ ∃ known, state.values[id]? = some known ∧ known.name = value.name ∧
        settled = updated known value) :=
    ⟨id, value, next, hrecord, hsettles, rfl, .inl rfl⟩
  unfold observe
  split
  · exact hrecorded
  · next found hfind =>
    split
    · exact hrecorded
    · next known hknown =>
      split
      · next hsame =>
        obtain ⟨hname, hlocation⟩ := hsame
        have howns := owns_of_findExisting? howners hlisted hfind
        have hsight : state.Settles found (updated known value)
            ((state.modifyValue found fun known => updated known value).attach found) := by
          apply settles_modifyValue howners hknown (address_updated known value)
          intro address haddress
          apply howns
          simpa [addressOf?, hknown] using haddress
        refine ⟨found, updated known value, _, rfl, hsight, ?_, .inr ⟨known, hknown, hname, rfl⟩⟩
        rw [location_updated, hlocation]
      · exact hrecorded

/-! ### Frames -/

/-- Disowning a value takes no more than owners away. -/
theorem disown_eq (id : Nat) (state : ProgramState) :
    ∃ byAddress, state.disown id = { state with byAddress } ∧
      ∀ address other, byAddress.find? address = some other →
        state.byAddress.find? address = some other := by
  unfold disown
  split
  · split
    · refine ⟨_, rfl, ?_⟩
      intro address other hfind
      rw [AddressMap.find?_erase] at hfind
      split at hfind
      · cases hfind
      · exact hfind
    · exact ⟨state.byAddress, rfl, fun _ _ hfind => hfind⟩
  · exact ⟨state.byAddress, rfl, fun _ _ hfind => hfind⟩

/-- A disowned value owns no address, and all other owners stay. -/
theorem find?_disown (howners : state.OwnersHold) (id address other : Nat) :
    (state.disown id).byAddress.find? address = some other ↔
      state.byAddress.find? address = some other ∧ other ≠ id := by
  unfold disown
  cases hof : state.values[id]?.bind (·.address) with
  | none =>
    have hnever : ∀ address, state.byAddress.find? address ≠ some id := by
      intro address hfind
      have := howners address id hfind
      rw [addressOf?, hof] at this
      cases this
    constructor
    · intro hfind
      refine ⟨hfind, ?_⟩
      rintro rfl
      exact hnever address hfind
    · exact And.left
  | some own =>
    have hown : ∀ address, state.byAddress.find? address = some id → address = own := by
      intro address hfind
      have := howners address id hfind
      rw [addressOf?, hof] at this
      exact (Option.some.inj this).symm
    dsimp only
    by_cases howns : state.byAddress.find? own = some id
    · rw [if_pos howns]
      dsimp only
      rw [AddressMap.find?_erase]
      by_cases heq : address = own
      · subst heq
        rw [if_pos rfl, howns]
        constructor
        · intro hnone
          cases hnone
        · rintro ⟨hsame, hne⟩
          exact absurd (Option.some.inj hsame).symm hne
      · rw [if_neg heq]
        constructor
        · intro hfind
          refine ⟨hfind, ?_⟩
          rintro rfl
          exact heq (hown address hfind)
        · exact And.left
    · rw [if_neg howns]
      constructor
      · intro hfind
        refine ⟨hfind, ?_⟩
        rintro rfl
        rw [hown address hfind] at hfind
        exact howns hfind
      · exact And.left

theorem foldl_disown_cases (howners : state.OwnersHold) (ids : List Nat) :
    ∃ byAddress, ids.foldl (fun state id => state.disown id) state = { state with byAddress } ∧
      ∀ address id, byAddress.find? address = some id ↔
        state.byAddress.find? address = some id ∧ id ∉ ids := by
  induction ids generalizing state with
  | nil => exact ⟨state.byAddress, rfl, by simp⟩
  | cons first ids ih =>
    obtain ⟨between, hdisown, -⟩ := disown_eq first state
    have hfind := find?_disown howners first
    rw [hdisown] at hfind
    have howners' : OwnersHold { state with byAddress := between } := by
      intro address id hfound
      exact howners address id ((hfind address id).1 hfound).1
    obtain ⟨byAddress, hfold, hleft⟩ := ih howners'
    refine ⟨byAddress, ?_, ?_⟩
    · rw [List.foldl_cons, hdisown, hfold]
    · intro address id
      rw [hleft address id, hfind address id]
      simp [and_assoc]

/-- The innermost frame is left, and the values listed in it no longer own their addresses. -/
theorem popFrame_cases (howners : state.OwnersHold) :
    (state.frames = [] ∧ state.popFrame = state) ∨
    ∃ outer frame byAddress, state.frames = outer ++ [frame] ∧
      state.popFrame = { state with frames := outer, byAddress } ∧
      ∀ address id, byAddress.find? address = some id ↔
        state.byAddress.find? address = some id ∧ id ∉ frame.values := by
  unfold popFrame
  cases hlast : state.frames.getLast? with
  | none =>
    exact .inl ⟨List.getLast?_eq_none_iff.1 hlast, rfl⟩
  | some frame =>
    obtain ⟨outer, houter⟩ := List.getLast?_eq_some_iff.1 hlast
    have howners' : OwnersHold { state with frames := state.frames.dropLast } := howners
    obtain ⟨byAddress, hfold, hleft⟩ := foldl_disown_cases howners' frame.values
    refine .inr ⟨outer, frame, byAddress, houter, ?_, hleft⟩
    dsimp only
    rw [hfold, houter, List.dropLast_concat]

/-! ### The memory log -/

/-- An event changes nothing, or the data of the value it meets, or it has a value on the heap
    recorded, which has held no data before. -/
theorem applyMemlog_cases (event : MemlogEvent) (state : ProgramState) :
    state.applyMemlog event = (none, state) ∨
    (∃ address id data, event.target? = some address ∧ state.idAt? address = some id ∧
      state.applyMemlog event = (some id, state.modifyValue id fun value =>
        if value.data = data then value else value.assign data)) ∨
    (∃ allocations value, value.location = .heap ∧ value.address = event.target? ∧
      (∀ data ∈ value.history, data = .uninitialized) ∧
      state.applyMemlog event = (some (recordValue value { state with allocations }).1,
        (recordValue value { state with allocations }).2)) := by
  cases event with
  | alloc site pointer length =>
    simp only [applyMemlog, MemlogEvent.target?]
    cases Memlog.address? pointer with
    | none => exact .inl rfl
    | some address =>
      refine .inr (.inr ⟨state.allocations.insert address length, Memlog.heapValue address length,
        rfl, rfl, ?_, rfl⟩)
      intro data hdata
      cases hdata
  | store site pointer length bytes =>
    simp only [applyMemlog, MemlogEvent.target?]
    split
    · next address data haddress hdata =>
      cases hknown : state.idAt? address with
      | some id => exact .inr (.inl ⟨address, id, data, haddress, hknown, rfl⟩)
      | none =>
        cases state.allocationContaining? address with
        | none => exact .inl rfl
        | some start =>
          refine .inr (.inr ⟨state.allocations, _, ?_, ?_, ?_, rfl⟩)
          · dsimp only [Value.assign]
            split <;> rfl
          · rw [haddress]
            dsimp only [Value.assign]
            split <;> rfl
          · intro data hdata
            dsimp only [Value.assign] at hdata
            split at hdata <;> exact List.mem_singleton.1 hdata
    · exact .inl rfl
  | localVariable site name => exact .inl rfl

end ProgramState
end DebugClient
