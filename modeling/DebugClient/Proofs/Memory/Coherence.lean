import Mathlib.Data.List.Nodup
import DebugClient.Proofs.Memory.Ownership

/-!
The lists of the frames, the owners of the addresses and the heap agree with the values, whatever
operations are performed. So each value that owns an address is listed in exactly one place, and a
description of the state shows it there.
-/

namespace DebugClient.ProgramState

/-- The frames, the owners of the addresses and the heap agree with the values. -/
structure Coherent (state : ProgramState) : Prop where
  index : ∀ (i : Nat) (frame : Frame), state.frames[i]? = some frame → frame.index = i
  nodup : ∀ frame ∈ state.frames, frame.values.Nodup
  located : ∀ frame ∈ state.frames, ∀ id ∈ frame.values,
    state.locationOf? id = some (.stack frame.index)
  /-- An address is owned by a value with that address. -/
  owners : state.OwnersHold
  /-- A listed value that has an address owns it. -/
  listedOwn : state.ListedOwn
  /-- The heap holds the owners that are located there. -/
  heap : ∀ address id, state.heap.find? address = some id ↔
    state.byAddress.find? address = some id ∧ state.locationOf? id = some .heap
  /-- The other owners are listed in the frames where they are located. -/
  listed : ∀ address id index, state.byAddress.find? address = some id →
    state.locationOf? id = some (.stack index) →
    ∃ frame, state.frames[index]? = some frame ∧ id ∈ frame.values

variable {state next : ProgramState} {value : Value} {id : Nat}

/-! ### Frames that adopt a value -/

theorem nodup_adopt {location : Location} {frame : Frame} (hnodup : frame.values.Nodup) :
    (Frame.adopt id location frame).values.Nodup := by
  unfold Frame.adopt
  split
  · split
    · exact hnodup
    · next hnew => exact hnodup.append (List.nodup_singleton id) (by simpa using hnew)
  · exact hnodup.filter _

/-- A frame that neither gains nor loses the value stays as it is. -/
theorem adopt_of_unlisted {location : Location} {frame : Frame}
    (hlocation : location ≠ .stack frame.index) (hunlisted : id ∉ frame.values) :
    Frame.adopt id location frame = frame := by
  have hkept : frame.values.filter (· ≠ id) = frame.values := by
    rw [List.filter_eq_self]
    intro other hother
    rw [decide_eq_true_eq]
    rintro rfl
    exact hunlisted hother
  rw [Frame.adopt, if_neg hlocation, hkept]

theorem adopt_of_listed {location : Location} {frame : Frame}
    (hlocation : location = .stack frame.index) (hlisted : id ∈ frame.values) :
    Frame.adopt id location frame = frame := by
  rw [Frame.adopt, if_pos hlocation, if_pos hlisted]

/-! ### Values that settle -/

theorem Coherent.sound (hcoherent : state.Coherent) : state.Sound :=
  ⟨hcoherent.index, hcoherent.located, hcoherent.owners, hcoherent.listedOwn⟩

/-- A coherent state is coherent again when a value has settled in it at a location that is there. -/
theorem Coherent.settles (hcoherent : state.Coherent) (hsettles : state.Settles id value next)
    (hlocation : state.HasLocation value.location) : next.Coherent := by
  have hsound := hcoherent.sound.settles hsettles
  refine ⟨hsound.index, ?_, hsound.located, hsound.owners, hsound.listedOwn, ?_, ?_⟩
  · intro frame hmem
    obtain ⟨before, hbefore, rfl⟩ := hsettles.exists_adopt hmem
    exact nodup_adopt (hcoherent.nodup before hbefore)
  · intro address other
    rw [hsettles.heap, hsettles.owner]
    by_cases hown : value.address = some address
    · rw [if_pos hown, if_pos hown]
      by_cases hplace : value.location = .heap
      · rw [if_pos hplace]
        constructor
        · intro hfind
          obtain rfl := Option.some.inj hfind
          exact ⟨rfl, by rw [hsettles.locationOf?_self, hplace]⟩
        · exact And.left
      · rw [if_neg hplace]
        constructor
        · intro hnone
          cases hnone
        · rintro ⟨hfind, hheap⟩
          obtain rfl := Option.some.inj hfind
          rw [hsettles.locationOf?_self] at hheap
          exact absurd (Option.some.inj hheap) hplace
    · rw [if_neg hown, if_neg hown, hcoherent.heap]
      have hsame : state.byAddress.find? address = some other →
          next.locationOf? other = state.locationOf? other := by
        intro hfind
        apply hsettles.locationOf?_other
        rintro rfl
        exact hown (hsettles.owned address hfind)
      constructor
      · rintro ⟨hfind, hheap⟩
        exact ⟨hfind, by rw [hsame hfind, hheap]⟩
      · rintro ⟨hfind, hheap⟩
        exact ⟨hfind, by rw [← hsame hfind, hheap]⟩
  · intro address other index hfind hplace
    rcases hsettles.owner_cases hfind with ⟨-, rfl⟩ | ⟨-, hne, hbefore⟩
    · rw [hsettles.locationOf?_self] at hplace
      have hstack := Option.some.inj hplace
      rw [hstack] at hlocation
      obtain ⟨before, hframe⟩ : ∃ before, state.frames[index]? = some before :=
        ⟨_, List.getElem?_eq_getElem hlocation⟩
      refine ⟨Frame.adopt other value.location before, ?_, ?_⟩
      · rw [hsettles.frames, List.getElem?_map, hframe, Option.map_some]
      · rw [mem_adopt, hcoherent.index index before hframe]
        exact .inr ⟨rfl, hstack⟩
    · rw [hsettles.locationOf?_other hne] at hplace
      obtain ⟨before, hframe, hlisted⟩ := hcoherent.listed address other index hbefore hplace
      refine ⟨Frame.adopt id value.location before, ?_, ?_⟩
      · rw [hsettles.frames, List.getElem?_map, hframe, Option.map_some]
      · exact mem_adopt.2 (.inl ⟨hlisted, hne⟩)

theorem Coherent.recordValue (hcoherent : state.Coherent)
    (hlocation : state.HasLocation value.location) : (state.recordValue value).2.Coherent := by
  obtain ⟨id, next, hrecord, hsettles, -⟩ := settles_recordValue hcoherent.owners value
  rw [hrecord]
  exact hcoherent.settles hsettles hlocation

theorem Coherent.observe (hcoherent : state.Coherent)
    (hlocation : state.HasLocation value.location) : (state.observe value).2.Coherent := by
  obtain ⟨id, settled, next, hobserve, hsettles, hplace, -⟩ :=
    settles_observe hcoherent.owners hcoherent.listedOwn value
  rw [hobserve]
  rw [← hplace] at hlocation
  exact hcoherent.settles hsettles hlocation

/-! ### Values whose data changes -/

/-- A state is as coherent as another one in which all values have the same addresses and locations. -/
theorem Coherent.congr (hcoherent : state.Coherent) (hframes : next.frames = state.frames)
    (howners : next.byAddress = state.byAddress) (hheap : next.heap = state.heap)
    (haddress : ∀ id, next.addressOf? id = state.addressOf? id)
    (hlocation : ∀ id, next.locationOf? id = state.locationOf? id) : next.Coherent := by
  have hsound := hcoherent.sound.congr hframes howners haddress hlocation
  refine ⟨hsound.index, ?_, hsound.located, hsound.owners, hsound.listedOwn, ?_, ?_⟩
  · simpa only [hframes] using hcoherent.nodup
  · simpa only [howners, hheap, hlocation] using hcoherent.heap
  · simpa only [hframes, howners, hlocation] using hcoherent.listed

theorem Coherent.modifyValue (hcoherent : state.Coherent) {change : Value → Value}
    (hchange : ∀ value, (change value).address = value.address ∧
      (change value).location = value.location) (id : Nat) :
    (state.modifyValue id change).Coherent := by
  have hsame := fun other => addressOf?_locationOf?_modifyValue hchange id other state
  exact hcoherent.congr rfl rfl rfl (fun other => (hsame other).1) (fun other => (hsame other).2)

theorem Coherent.modifyAt (hcoherent : state.Coherent) {change : Value → Value}
    (hchange : ∀ value, (change value).address = value.address ∧
      (change value).location = value.location) (address : Nat) :
    (state.modifyAt address change).Coherent := by
  unfold ProgramState.modifyAt
  split
  · exact hcoherent.modifyValue hchange _
  · exact hcoherent

theorem Coherent.with_allocations (hcoherent : state.Coherent) (allocations : AddressMap Nat) :
    Coherent { state with allocations } :=
  hcoherent.congr rfl rfl rfl (fun _ => rfl) (fun _ => rfl)

/-! ### Frames that are entered and left -/

theorem Coherent.pushFrame (hcoherent : state.Coherent) (name : Text) :
    (state.pushFrame name).Coherent := by
  have hsound := hcoherent.sound.pushFrame name
  refine ⟨hsound.index, ?_, hsound.located, hsound.owners, hsound.listedOwn, hcoherent.heap, ?_⟩
  · intro frame hmem
    rcases mem_frames_pushFrame hmem with hbefore | hempty
    · exact hcoherent.nodup frame hbefore
    · rw [hempty]
      exact List.nodup_nil
  · intro address id index hfind hplace
    obtain ⟨frame, hframe, hlisted⟩ := hcoherent.listed address id index hfind hplace
    refine ⟨frame, ?_, hlisted⟩
    have hlt := (List.getElem?_eq_some_iff.1 hframe).1
    rw [← hframe]
    exact List.getElem?_append_left hlt

/-- What is listed in the frame that is left is not on the heap, and in no other frame. -/
theorem Coherent.popFrame (hcoherent : state.Coherent) : state.popFrame.Coherent := by
  have hsound := hcoherent.sound.popFrame
  rcases popFrame_cases hcoherent.owners with ⟨-, heq⟩ | ⟨outer, frame, byAddress, hframes, heq, hleft⟩
  · rw [heq]
    exact hcoherent
  · rw [heq] at hsound ⊢
    refine ⟨hsound.index, ?_, hsound.located, hsound.owners, hsound.listedOwn, ?_, ?_⟩
    · intro other hmem
      apply hcoherent.nodup other
      rw [hframes]
      exact List.mem_append_left _ hmem
    · intro address id
      dsimp only
      rw [hcoherent.heap, hleft]
      constructor
      · rintro ⟨hfind, hheap⟩
        refine ⟨⟨hfind, ?_⟩, hheap⟩
        intro hlisted
        have hstack := hcoherent.located frame (by simp [hframes]) id hlisted
        rw [locationOf?] at hstack hheap
        cases hheap.symm.trans hstack
      · rintro ⟨⟨hfind, -⟩, hheap⟩
        exact ⟨hfind, hheap⟩
    · intro address id index hfind hplace
      obtain ⟨hbefore, hkept⟩ := (hleft address id).1 hfind
      obtain ⟨other, hother, hlisted⟩ := hcoherent.listed address id index hbefore hplace
      refine ⟨other, ?_, hlisted⟩
      have hne : index ≠ outer.length := by
        rintro rfl
        rw [hframes, List.getElem?_concat_length] at hother
        cases hother
        exact hkept hlisted
      have hlt := (List.getElem?_eq_some_iff.1 hother).1
      rw [hframes, List.length_append, List.length_singleton] at hlt
      rw [hframes, List.getElem?_append_left (by omega)] at hother
      exact hother

theorem Coherent.popFrames (hcoherent : state.Coherent) (n : Nat) : (state.popFrames n).Coherent := by
  induction n generalizing state with
  | zero => exact hcoherent
  | succ n ih => exact ih hcoherent.popFrame

theorem Coherent.pushFrames (hcoherent : state.Coherent) (names : List Text) :
    (names.foldl (fun state name => state.pushFrame name) state).Coherent := by
  induction names generalizing state with
  | nil => exact hcoherent
  | cons name names ih => exact ih (hcoherent.pushFrame name)

theorem Coherent.syncFrames (hcoherent : state.Coherent) (backtrace : List StackFrame) :
    (state.syncFrames backtrace).Coherent :=
  (hcoherent.popFrames _).pushFrames _

/-! ### All operations -/

theorem Coherent.applyMemlog (hcoherent : state.Coherent) (event : MemlogEvent) :
    (state.applyMemlog event).2.Coherent := by
  rcases applyMemlog_cases event state with heq | ⟨address, id, data, -, -, heq⟩ |
    ⟨allocations, value, hplace, -, -, heq⟩
  · rw [heq]
    exact hcoherent
  · rw [heq]
    apply hcoherent.modifyValue
    intro value
    split <;> exact ⟨rfl, rfl⟩
  · rw [heq]
    apply (hcoherent.with_allocations allocations).recordValue
    rw [hplace]
    trivial

/-- Every operation keeps a state coherent. -/
theorem Coherent.perform (hcoherent : state.Coherent) {operation : Operation}
    (hadmits : state.Admits operation) : (state.perform operation).Coherent := by
  cases operation with
  | pushFrame name => exact hcoherent.pushFrame name
  | popFrame => exact hcoherent.popFrame
  | syncFrames backtrace => exact hcoherent.syncFrames backtrace
  | record value => exact hcoherent.recordValue hadmits
  | observe value => exact hcoherent.observe hadmits
  | allocate start length => exact hcoherent.with_allocations _
  | memlog event => exact hcoherent.applyMemlog event
  | rollback address =>
    apply hcoherent.modifyAt
    intro value
    unfold Value.rollback
    split <;> exact ⟨rfl, rfl⟩
  | assign address data =>
    apply hcoherent.modifyAt
    intro value
    exact ⟨rfl, rfl⟩

theorem coherent_empty : Coherent {} := by
  constructor <;> simp [OwnersHold, ListedOwn, AddressMap.find?, AddressMap.empty]

theorem Coherent.performAll (hcoherent : state.Coherent) {operations : List Operation}
    (hadmits : state.AdmitsAll operations) : (state.performAll operations).Coherent := by
  induction operations generalizing state with
  | nil => exact hcoherent
  | cons operation operations ih => exact ih (hcoherent.perform hadmits.1) hadmits.2

/-! ### What is listed -/

/-- The numbers of the values that a description goes through: those in the frames, the outermost one
    first, and those on the heap by ascending address. -/
def listing (state : ProgramState) : List Nat :=
  state.frames.flatMap (·.values) ++ state.heap.values

/-- The values that a description shows, in the same order. -/
def shown (state : ProgramState) : List Value :=
  (state.frames.flatMap fun frame => state.frameValues frame.index) ++ state.heapValues

/-- A description shows each value that owns an address in one place, and no other value that has
    an address. -/
structure ShownOnce (state : ProgramState) : Prop where
  /-- Nothing is listed, and nothing owns an address, that is no value. -/
  lt_size : ∀ id, id ∈ state.listing ∨ (∃ address, state.byAddress.find? address = some id) →
    id < state.values.size
  nodup : state.listing.Nodup
  live : ∀ id address, state.addressOf? id = some address →
    (id ∈ state.listing ↔ state.byAddress.find? address = some id)
  /-- No two live values share an address. -/
  distinct : ∀ id other address, id ∈ state.listing → other ∈ state.listing →
    state.addressOf? id = some address → state.addressOf? other = some address → id = other
  shown : state.shown.map some = state.listing.map (state.values[·]?)

theorem mem_listing_iff : id ∈ state.listing ↔
    (∃ frame ∈ state.frames, id ∈ frame.values) ∨ ∃ address, state.heap.find? address = some id := by
  rw [listing, List.mem_append, List.mem_flatMap, AddressMap.mem_values_iff]

theorem lt_size_of_locationOf? {location : Location} (hplace : state.locationOf? id = some location) :
    id < state.values.size := by
  obtain ⟨value, hvalue, -⟩ := Option.map_eq_some_iff.1 hplace
  exact (Array.getElem?_eq_some_iff.1 hvalue).1

theorem Coherent.lt_size (hcoherent : state.Coherent) (hlisted : id ∈ state.listing) :
    id < state.values.size := by
  rcases mem_listing_iff.1 hlisted with ⟨frame, hframe, hmem⟩ | ⟨address, hfind⟩
  · exact lt_size_of_locationOf? (hcoherent.located frame hframe id hmem)
  · exact lt_size_of_locationOf? ((hcoherent.heap address id).1 hfind).2

/-- A value that has an address is listed exactly when it owns the address. -/
theorem Coherent.mem_listing_iff_owner (hcoherent : state.Coherent) {address : Nat}
    (hof : state.addressOf? id = some address) :
    id ∈ state.listing ↔ state.byAddress.find? address = some id := by
  rw [mem_listing_iff]
  constructor
  · rintro (⟨frame, hframe, hmem⟩ | ⟨other, hfind⟩)
    · exact hcoherent.listedOwn frame hframe id hmem address hof
    · obtain ⟨howns, -⟩ := (hcoherent.heap other id).1 hfind
      rw [hcoherent.owners other id howns] at hof
      cases hof
      exact howns
  · intro hfind
    obtain ⟨value, hvalue, -⟩ := Option.bind_eq_some_iff.1 hof
    have hplace : state.locationOf? id = some value.location := by
      rw [locationOf?, hvalue, Option.map_some]
    cases hlocation : value.location with
    | heap =>
      rw [hlocation] at hplace
      exact .inr ⟨address, (hcoherent.heap address id).2 ⟨hfind, hplace⟩⟩
    | stack index =>
      rw [hlocation] at hplace
      obtain ⟨frame, hframe, hmem⟩ := hcoherent.listed address id index hfind hplace
      exact .inl ⟨frame, List.mem_of_getElem? hframe, hmem⟩

/-- Frames differ in their numbers and so in the values listed in them; none of these is on the heap. -/
theorem Coherent.nodup_listing (hcoherent : state.Coherent) : state.listing.Nodup := by
  refine List.Nodup.append ?_ ?_ ?_
  · rw [List.nodup_flatMap]
    refine ⟨hcoherent.nodup, ?_⟩
    rw [List.pairwise_iff_getElem]
    intro i j hi hj hlt id hfirst hsecond
    have hplace := hcoherent.located _ (List.getElem_mem hi) id hfirst
    rw [hcoherent.located _ (List.getElem_mem hj) id hsecond,
      hcoherent.index i _ (List.getElem?_eq_getElem hi),
      hcoherent.index j _ (List.getElem?_eq_getElem hj)] at hplace
    simp only [Option.some.injEq, Location.stack.injEq] at hplace
    omega
  · apply AddressMap.nodup_values
    intro address other id hfirst hsecond
    have hof := hcoherent.owners address id ((hcoherent.heap address id).1 hfirst).1
    rw [hcoherent.owners other id ((hcoherent.heap other id).1 hsecond).1] at hof
    exact (Option.some.inj hof).symm
  · intro id hstack hheap
    obtain ⟨frame, hframe, hmem⟩ := List.mem_flatMap.1 hstack
    obtain ⟨address, hfind⟩ := AddressMap.mem_values_iff.1 hheap
    have hplace := ((hcoherent.heap address id).1 hfind).2
    rw [hcoherent.located frame hframe id hmem] at hplace
    cases hplace

theorem map_some_filterMap_of_lt_size {ids : List Nat} (hlt : ∀ id ∈ ids, id < state.values.size) :
    (ids.filterMap (state.values[·]?)).map some = ids.map (state.values[·]?) := by
  induction ids with
  | nil => rfl
  | cons first ids ih =>
    obtain ⟨hfirst, hrest⟩ := List.forall_mem_cons.1 hlt
    rw [List.filterMap_cons, Array.getElem?_eq_getElem hfirst, List.map_cons, List.map_cons, ih hrest,
      Array.getElem?_eq_getElem hfirst]

/-- A description shows the values that are listed. -/
theorem Coherent.map_some_shown (hcoherent : state.Coherent) :
    state.shown.map some = state.listing.map (state.values[·]?) := by
  have hframes : ∀ frame ∈ state.frames,
      state.frameValues frame.index = frame.values.filterMap (state.values[·]?) := by
    intro frame hmem
    obtain ⟨i, hframe⟩ := List.mem_iff_getElem?.1 hmem
    rw [frameValues, hcoherent.index i frame hframe, hframe]
  have hshown : state.shown = state.listing.filterMap (state.values[·]?) := by
    rw [shown, listing, List.filterMap_append, List.filterMap_flatMap, List.flatMap_congr hframes]
    rfl
  rw [hshown]
  apply map_some_filterMap_of_lt_size
  intro id hmem
  exact hcoherent.lt_size hmem

theorem Coherent.shownOnce (hcoherent : state.Coherent) : state.ShownOnce := by
  refine ⟨?_, hcoherent.nodup_listing, ?_, ?_, hcoherent.map_some_shown⟩
  · rintro id (hlisted | ⟨address, hfind⟩)
    · exact hcoherent.lt_size hlisted
    · exact lt_size_of_addressOf? (hcoherent.owners address id hfind)
  · intro id address hof
    exact hcoherent.mem_listing_iff_owner hof
  · intro id other address hid hother hof hof'
    have howns := (hcoherent.mem_listing_iff_owner hof).1 hid
    rw [(hcoherent.mem_listing_iff_owner hof').1 hother] at howns
    exact (Option.some.inj howns).symm

/-- Whatever operations are performed, as long as what is recorded or observed on the stack names a
    frame that is there, the state stays coherent, and each live value is shown in exactly one place. -/
theorem coherent_of_admitsAll {operations : List Operation} (hadmits : AdmitsAll {} operations) :
    (performAll operations {}).Coherent ∧ (performAll operations {}).ShownOnce :=
  have hcoherent := coherent_empty.performAll hadmits
  ⟨hcoherent, hcoherent.shownOnce⟩

/-- A piece of stack goes from one frame to the next, to the heap and back, while a value without an
    address stays where it is. -/
theorem coherent_of_admitsAll_taken_over :
    let stack (name : String) (frame : Nat) (address : Option Nat) : Value :=
      { Value.fresh name.toList [] (.stack frame) with address }
    let operations : List Operation :=
      [.pushFrame "main".toList, .record (stack "s" 0 none), .observe (stack "x" 0 (some 16)),
        .pushFrame "f".toList, .observe (stack "y" 1 (some 16)),
        .memlog (.alloc 1 "0x10".toList 8), .observe (stack "z" 0 (some 16)),
        .observe (stack "w" 1 (some 24)), .popFrame]
    AdmitsAll {} operations ∧ (performAll operations {}).listing = [0, 1] ∧
      (performAll operations {}).Coherent ∧ (performAll operations {}).ShownOnce :=
  ⟨by decide +kernel, by decide +kernel, coherent_of_admitsAll (by decide +kernel)⟩

end DebugClient.ProgramState
