import Mathlib.Data.List.Induction
import DebugClient.Proofs.Memory.Coherence

/-!
Returning from a function retires its locals. The values listed in a frame that is left stay as they
are for good: nothing leads to them any more, and whatever comes to live at one of their addresses
begins anew, under a number of its own.
-/

namespace DebugClient

namespace Operation

/-- The address at which an operation may bring a value. -/
def target? : Operation → Option Nat
  | .record value | .observe value => value.address
  | .memlog event => event.target?
  | _ => none

/-- The number of the value that an operation records, observes or changes. -/
def touched? (state : ProgramState) : Operation → Option Nat
  | .record value => some (state.recordValue value).1
  | .observe value => some (state.observe value).1
  | .memlog event => (state.applyMemlog event).1
  | .rollback address | .assign address _ => state.idAt? address
  | _ => none

/-- The operation makes the target return from functions, if it has been in them: the innermost frame
    is left, or all frames that a backtrace no longer has. -/
def IsReturn : Operation → Prop
  | .popFrame | .syncFrames _ => True
  | _ => False

/-- The frames that are left, the outermost one first. -/
def framesLeft (state : ProgramState) : Operation → List Frame
  | .popFrame => state.frames.drop (state.frames.length - 1)
  | .syncFrames backtrace =>
    state.frames.drop (ProgramState.sharedFrames state.frames (backtrace.reverse.map (·.function)))
  | _ => []

end Operation

namespace ProgramState

/-- The value is kept as it is, but nothing leads to it: it owns no address, and is listed neither in a
    frame nor on the heap. -/
structure Retired (state : ProgramState) (id : Nat) (value : Value) : Prop where
  kept : state.values[id]? = some value
  unowned : ∀ address, state.idAt? address ≠ some id
  unlisted : id ∉ state.listing

/-- Nothing owns the address, so the first value that comes to live there begins anew: it gets a number
    of its own and has no history but what it comes with. -/
structure Vacant (state : ProgramState) (address : Nat) : Prop where
  unowned : state.idAt? address = none
  record : ∀ value, value.address = some address →
    (state.recordValue value).1 = state.values.size ∧
    (state.recordValue value).2.values = state.values.push value
  observe : ∀ value, value.address = some address →
    (state.observe value).1 = state.values.size ∧
    (state.observe value).2.values = state.values.push value
  /-- The log brings values that have held no data yet but what is stored there. -/
  memlog : ∀ event id, event.target? = some address → (state.applyMemlog event).1 = some id →
    id = state.values.size ∧ ∃ value, (state.applyMemlog event).2.values = state.values.push value ∧
      ∀ data ∈ value.history, data = .uninitialized

variable {state next : ProgramState} {value : Value} {id other address : Nat}

/-! ### Retired values stay retired -/

theorem Retired.lt_size (hretired : state.Retired id value) : id < state.values.size :=
  (Array.getElem?_eq_some_iff.1 hretired.kept).1

theorem Retired.ne_of_idAt? (hretired : state.Retired id value)
    (hfind : state.idAt? address = some other) : other ≠ id := by
  rintro rfl
  exact hretired.unowned address hfind

/-- No frame lists the value, and a sight of a value is a sight of a value that is listed or owns its
    address. -/
theorem Retired.ne_of_findExisting? (hretired : state.Retired id value) {seen : Value}
    (hfind : state.findExisting? seen = some other) : other ≠ id := by
  unfold findExisting? at hfind
  split at hfind
  · exact hretired.ne_of_idAt? hfind
  · cases hfind
  · obtain ⟨frame, hframe, hsame⟩ := Option.bind_eq_some_iff.1 hfind
    rintro rfl
    apply hretired.unlisted
    rw [mem_listing_iff]
    exact .inl ⟨frame, List.mem_of_getElem? hframe, List.mem_of_find?_eq_some hsame⟩

@[simp] theorem values_attach (id : Nat) (state : ProgramState) :
    (state.attach id).values = state.values := by
  unfold attach
  split <;> rfl

@[simp] theorem byAddress_attach (id : Nat) (state : ProgramState) :
    (state.attach id).byAddress = state.byAddress := by
  unfold attach
  split <;> rfl

/-- Attaching a value lists no other value anew. -/
theorem mem_listing_of_attach (hne : other ≠ id) (hmem : other ∈ (state.attach id).listing) :
    other ∈ state.listing := by
  unfold attach at hmem
  split at hmem
  · exact hmem
  · next value hvalue =>
    rw [mem_listing_iff] at hmem ⊢
    rcases hmem with ⟨frame, hframe, hlisted⟩ | ⟨own, hfind⟩
    · obtain ⟨before, hbefore, rfl⟩ := List.mem_map.1 hframe
      rcases mem_adopt.1 hlisted with ⟨hwas, -⟩ | ⟨hsame, -⟩
      · exact .inl ⟨before, hbefore, hwas⟩
      · exact absurd hsame hne
    · refine .inr ⟨own, ?_⟩
      dsimp only at hfind
      split at hfind
      · exact hfind
      · split at hfind
        · rw [AddressMap.find?_insert] at hfind
          split at hfind
          · exact absurd (Option.some.inj hfind).symm hne
          · exact hfind
        · rw [AddressMap.find?_erase] at hfind
          split at hfind
          · cases hfind
          · exact hfind

theorem Retired.attach (hretired : state.Retired id value) (hne : id ≠ other) :
    (state.attach other).Retired id value := by
  refine ⟨?_, ?_, ?_⟩
  · rw [values_attach]
    exact hretired.kept
  · intro address
    rw [idAt?, byAddress_attach]
    exact hretired.unowned address
  · intro hmem
    exact hretired.unlisted (mem_listing_of_attach hne hmem)

theorem Retired.modifyValue (hretired : state.Retired id value) (hne : other ≠ id)
    (change : Value → Value) : (state.modifyValue other change).Retired id value := by
  refine ⟨?_, hretired.unowned, hretired.unlisted⟩
  rw [ProgramState.modifyValue, Array.getElem?_modify, if_neg hne]
  exact hretired.kept

theorem Retired.modifyAt (hretired : state.Retired id value) (address : Nat)
    (change : Value → Value) : (state.modifyAt address change).Retired id value := by
  unfold ProgramState.modifyAt
  split
  · next owner hfind => exact hretired.modifyValue (hretired.ne_of_idAt? hfind) change
  · exact hretired

theorem Retired.recordValue (hretired : state.Retired id value) (fresh : Value) :
    (state.recordValue fresh).1 ≠ id ∧ (state.recordValue fresh).2.Retired id value := by
  unfold ProgramState.recordValue
  split
  · next owner hknown =>
    obtain ⟨address, -, hfind⟩ := Option.bind_eq_some_iff.1 hknown
    have hne := hretired.ne_of_idAt? hfind
    exact ⟨hne, (hretired.modifyValue hne _).attach hne.symm⟩
  · have hlt := hretired.lt_size
    have hne : id ≠ state.values.size := Nat.ne_of_lt hlt
    refine ⟨hne.symm, Retired.attach ⟨?_, ?_, hretired.unlisted⟩ hne⟩
    · rw [Array.getElem?_push_lt hlt, ← Array.getElem?_eq_getElem hlt]
      exact hretired.kept
    · intro address
      rw [idAt?]
      dsimp only
      split
      · rw [AddressMap.find?_insert]
        split
        · intro heq
          exact hne (Option.some.inj heq).symm
        · exact hretired.unowned address
      · exact hretired.unowned address

theorem Retired.observe (hretired : state.Retired id value) (seen : Value) :
    (state.observe seen).1 ≠ id ∧ (state.observe seen).2.Retired id value := by
  unfold ProgramState.observe
  split
  · exact hretired.recordValue seen
  · next found hfind =>
    have hne := hretired.ne_of_findExisting? hfind
    split
    · exact hretired.recordValue seen
    · split
      · exact ⟨hne, (hretired.modifyValue hne _).attach hne.symm⟩
      · exact hretired.recordValue seen

theorem Retired.applyMemlog (hretired : state.Retired id value) (event : MemlogEvent) :
    (state.applyMemlog event).1 ≠ some id ∧ (state.applyMemlog event).2.Retired id value := by
  rcases applyMemlog_cases event state with heq | ⟨address, owner, data, -, hfind, heq⟩ |
    ⟨allocations, fresh, -, -, -, heq⟩
  · rw [heq]
    exact ⟨nofun, hretired⟩
  · rw [heq]
    have hne := hretired.ne_of_idAt? hfind
    exact ⟨fun hsame => hne (Option.some.inj hsame), hretired.modifyValue hne _⟩
  · rw [heq]
    have hallocated : Retired { state with allocations } id value :=
      ⟨hretired.kept, hretired.unowned, hretired.unlisted⟩
    obtain ⟨hne, hnext⟩ := hallocated.recordValue fresh
    exact ⟨fun hsame => hne (Option.some.inj hsame), hnext⟩

theorem Retired.pushFrame (hretired : state.Retired id value) (name : Text) :
    (state.pushFrame name).Retired id value := by
  refine ⟨hretired.kept, hretired.unowned, ?_⟩
  have hlisting : (state.pushFrame name).listing = state.listing := by
    simp [listing, ProgramState.pushFrame]
  rw [hlisting]
  exact hretired.unlisted

theorem foldl_disown_eq (ids : List Nat) (state : ProgramState) :
    ∃ byAddress, ids.foldl (fun state id => state.disown id) state = { state with byAddress } ∧
      ∀ address id, byAddress.find? address = some id → state.byAddress.find? address = some id := by
  induction ids generalizing state with
  | nil => exact ⟨state.byAddress, rfl, fun _ _ hfind => hfind⟩
  | cons first ids ih =>
    obtain ⟨between, hdisown, hfirst⟩ := disown_eq first state
    obtain ⟨byAddress, hfold, hothers⟩ := ih { state with byAddress := between }
    refine ⟨byAddress, ?_, ?_⟩
    · rw [List.foldl_cons, hdisown, hfold]
    · intro address id hfind
      exact hfirst address id (hothers address id hfind)

theorem Retired.popFrame (hretired : state.Retired id value) : state.popFrame.Retired id value := by
  unfold ProgramState.popFrame
  split
  · exact hretired
  · next frame hlast =>
    obtain ⟨byAddress, hfold, hleft⟩ :=
      foldl_disown_eq frame.values { state with frames := state.frames.dropLast }
    rw [hfold]
    refine ⟨hretired.kept, ?_, ?_⟩
    · intro address hfind
      exact hretired.unowned address (hleft address id hfind)
    · intro hmem
      apply hretired.unlisted
      rw [mem_listing_iff] at hmem ⊢
      refine hmem.imp_left ?_
      rintro ⟨outer, houter, hlisted⟩
      exact ⟨outer, (List.dropLast_sublist _).mem houter, hlisted⟩

theorem Retired.syncFrames (hretired : state.Retired id value) (backtrace : List StackFrame) :
    (state.syncFrames backtrace).Retired id value := by
  have hpop (n : Nat) (state : ProgramState) (hretired : state.Retired id value) :
      (state.popFrames n).Retired id value := by
    induction n generalizing state with
    | zero => exact hretired
    | succ n ih => exact ih _ hretired.popFrame
  have hpush (names : List Text) (state : ProgramState) (hretired : state.Retired id value) :
      (names.foldl (fun state name => state.pushFrame name) state).Retired id value := by
    induction names generalizing state with
    | nil => exact hretired
    | cons name names ih => exact ih _ (hretired.pushFrame name)
  exact hpush _ _ (hpop _ _ hretired)

/-- No operation touches a retired value, and it is retired afterwards. -/
theorem Retired.perform (hretired : state.Retired id value) (operation : Operation) :
    operation.touched? state ≠ some id ∧ (state.perform operation).Retired id value := by
  cases operation with
  | pushFrame name => exact ⟨nofun, hretired.pushFrame name⟩
  | popFrame => exact ⟨nofun, hretired.popFrame⟩
  | syncFrames backtrace => exact ⟨nofun, hretired.syncFrames backtrace⟩
  | record fresh =>
    obtain ⟨hne, hnext⟩ := hretired.recordValue fresh
    exact ⟨fun hsame => hne (Option.some.inj hsame), hnext⟩
  | observe seen =>
    obtain ⟨hne, hnext⟩ := hretired.observe seen
    exact ⟨fun hsame => hne (Option.some.inj hsame), hnext⟩
  | allocate start length => exact ⟨nofun, hretired.kept, hretired.unowned, hretired.unlisted⟩
  | memlog event => exact hretired.applyMemlog event
  | rollback address => exact ⟨hretired.unowned address, hretired.modifyAt address _⟩
  | assign address data => exact ⟨hretired.unowned address, hretired.modifyAt address _⟩

theorem Retired.performAll (hretired : state.Retired id value) (operations : List Operation) :
    (state.performAll operations).Retired id value := by
  induction operations generalizing state with
  | nil => exact hretired
  | cons operation operations ih => exact ih (hretired.perform operation).2

/-! ### Vacant addresses -/

/-- Where nothing owns the address, a value that comes to live there is a new one. -/
theorem recordValue_of_idAt?_eq_none (hnone : state.idAt? address = none)
    (haddress : value.address = some address) :
    (state.recordValue value).1 = state.values.size ∧
      (state.recordValue value).2.values = state.values.push value := by
  rw [recordValue, haddress, Option.bind_some, hnone]
  exact ⟨rfl, values_attach _ _⟩

theorem vacant_of_idAt?_eq_none (hnone : state.idAt? address = none) : state.Vacant address := by
  refine ⟨hnone, fun value => recordValue_of_idAt?_eq_none hnone, ?_, ?_⟩
  · intro value haddress
    have hfind : state.findExisting? value = none := by
      rw [findExisting?, haddress]
      exact hnone
    rw [observe, hfind]
    exact recordValue_of_idAt?_eq_none hnone haddress
  · intro event id htarget hid
    rcases applyMemlog_cases event state with heq | ⟨own, owner, data, hown, hfind, heq⟩ |
      ⟨allocations, value, -, haddress, hhistory, heq⟩
    · rw [heq] at hid
      cases hid
    · rw [htarget] at hown
      cases hown
      cases hnone.symm.trans hfind
    · rw [heq] at hid ⊢
      have hnone' : idAt? address { state with allocations } = none := hnone
      obtain ⟨hnew, hvalues⟩ := recordValue_of_idAt?_eq_none hnone' (haddress.trans htarget)
      cases hid
      exact ⟨hnew, value, hvalues, hhistory⟩

theorem idAt?_recordValue (hne : value.address ≠ some address) (hnone : state.idAt? address = none) :
    (state.recordValue value).2.idAt? address = none := by
  unfold recordValue
  split
  · rw [idAt?, byAddress_attach]
    exact hnone
  · rw [idAt?, byAddress_attach]
    dsimp only
    split
    · next own haddress =>
      rw [AddressMap.find?_insert, if_neg]
      · exact hnone
      · rintro rfl
        exact hne haddress
    · exact hnone

theorem idAt?_observe (hne : value.address ≠ some address) (hnone : state.idAt? address = none) :
    (state.observe value).2.idAt? address = none := by
  unfold observe
  split
  · exact idAt?_recordValue hne hnone
  · split
    · exact idAt?_recordValue hne hnone
    · split
      · rw [idAt?, byAddress_attach]
        exact hnone
      · exact idAt?_recordValue hne hnone

theorem byAddress_modifyAt (address : Nat) (change : Value → Value) (state : ProgramState) :
    (state.modifyAt address change).byAddress = state.byAddress := by
  unfold modifyAt
  split <;> rfl

theorem byAddress_pushFrames (names : List Text) (state : ProgramState) :
    (names.foldl (fun state name => state.pushFrame name) state).byAddress = state.byAddress := by
  induction names generalizing state with
  | nil => rfl
  | cons name names ih => exact ih (state.pushFrame name)

theorem idAt?_popFrame (hnone : state.idAt? address = none) : state.popFrame.idAt? address = none := by
  unfold popFrame
  split
  · exact hnone
  · next frame hlast =>
    obtain ⟨byAddress, hfold, hleft⟩ :=
      foldl_disown_eq frame.values { state with frames := state.frames.dropLast }
    rw [hfold]
    by_contra hsome
    obtain ⟨id, hfind⟩ := Option.ne_none_iff_exists'.1 hsome
    have hbefore := hleft address id hfind
    cases hnone.symm.trans hbefore

theorem idAt?_popFrames (n : Nat) (hnone : state.idAt? address = none) :
    (state.popFrames n).idAt? address = none := by
  induction n generalizing state with
  | zero => exact hnone
  | succ n ih => exact ih (idAt?_popFrame hnone)

/-- An operation that brings no value to an address leaves it without an owner. -/
theorem idAt?_perform {operation : Operation} (htarget : operation.target? ≠ some address)
    (hnone : state.idAt? address = none) : (state.perform operation).idAt? address = none := by
  cases operation with
  | pushFrame name => exact hnone
  | popFrame => exact idAt?_popFrame hnone
  | syncFrames backtrace =>
    rw [perform, syncFrames, idAt?, byAddress_pushFrames]
    exact idAt?_popFrames _ hnone
  | record value => exact idAt?_recordValue htarget hnone
  | observe value => exact idAt?_observe htarget hnone
  | allocate start length => exact hnone
  | memlog event =>
    rw [perform]
    rcases applyMemlog_cases event state with heq | ⟨own, owner, data, -, -, heq⟩ |
      ⟨allocations, value, -, haddress, -, heq⟩
    · rw [heq]
      exact hnone
    · rw [heq]
      exact hnone
    · rw [heq]
      have hne : value.address ≠ some address := by
        rw [haddress]
        exact htarget
      have hnone' : idAt? address { state with allocations } = none := hnone
      exact idAt?_recordValue hne hnone'
  | rollback own =>
    rw [perform, rollbackAt, idAt?, byAddress_modifyAt]
    exact hnone
  | assign own data =>
    rw [perform, idAt?, byAddress_modifyAt]
    exact hnone

theorem idAt?_performAll {operations : List Operation}
    (htargets : ∀ operation ∈ operations, operation.target? ≠ some address)
    (hnone : state.idAt? address = none) : (state.performAll operations).idAt? address = none := by
  induction operations generalizing state with
  | nil => exact hnone
  | cons operation operations ih =>
    obtain ⟨hfirst, hothers⟩ := List.forall_mem_cons.1 htargets
    exact ih hothers (idAt?_perform hfirst hnone)

/-! ### Leaving frames -/

/-- Some frames are left and others are entered: no value changes, the new frames list no values yet,
    and the owners of addresses that stay are those that none of the frames left lists. -/
structure Leaves (state : ProgramState) (kept left entered : List Frame) (next : ProgramState) :
    Prop where
  before : state.frames = kept ++ left
  after : next.frames = kept ++ entered
  unused : ∀ frame ∈ entered, frame.values = []
  values : next.values = state.values
  heap : next.heap = state.heap
  owners : ∀ address id, next.idAt? address = some id ↔
    state.idAt? address = some id ∧ ∀ frame ∈ left, id ∉ frame.values

theorem leaves_refl (state : ProgramState) : state.Leaves state.frames [] [] state :=
  ⟨(List.append_nil _).symm, (List.append_nil _).symm, nofun, rfl, rfl, fun _ _ => by simp⟩

theorem leaves_popFrame {outer : List Frame} {frame : Frame} (howners : state.OwnersHold)
    (hframes : state.frames = outer ++ [frame]) : state.Leaves outer [frame] [] state.popFrame := by
  rcases popFrame_cases howners with ⟨hempty, -⟩ | ⟨others, last, byAddress, hlast, heq, hleft⟩
  · rw [hempty] at hframes
    cases List.append_ne_nil_of_right_ne_nil outer (List.cons_ne_nil frame []) hframes.symm
  · rw [hframes] at hlast
    obtain ⟨rfl, rfl⟩ := List.append_singleton_inj.1 hlast
    rw [heq]
    refine ⟨hframes, (List.append_nil _).symm, nofun, rfl, rfl, ?_⟩
    intro address id
    rw [List.forall_mem_singleton]
    exact hleft address id

theorem Leaves.trans {between : ProgramState} {kept left last entered : List Frame}
    (hinner : state.Leaves (kept ++ left) last [] between)
    (houter : between.Leaves kept left entered next) :
    state.Leaves kept (left ++ last) entered next := by
  refine ⟨?_, houter.after, houter.unused, houter.values.trans hinner.values,
    houter.heap.trans hinner.heap, ?_⟩
  · rw [hinner.before, List.append_assoc]
  · intro address id
    rw [houter.owners, hinner.owners, List.forall_mem_append]
    tauto

theorem Sound.leaves_popFrames {kept left : List Frame} (hsound : state.Sound)
    (hframes : state.frames = kept ++ left) :
    state.Leaves kept left [] (state.popFrames left.length) := by
  -- The innermost frame is popped first, and what the others are popped from is sound again.
  induction left using List.reverseRecOn generalizing state with
  | nil =>
    rw [List.append_nil] at hframes
    rw [← hframes]
    exact leaves_refl state
  | append_singleton left last ih =>
    rw [← List.append_assoc] at hframes
    have hlast := leaves_popFrame hsound.owners hframes
    have hafter : state.popFrame.frames = kept ++ left := by
      rw [hlast.after, List.append_nil]
    rw [List.length_append, List.length_singleton]
    exact hlast.trans (ih hsound.popFrame hafter)

theorem Leaves.pushFrames {kept left entered : List Frame}
    (hleaves : state.Leaves kept left entered next) (names : List Text) :
    ∃ more, state.Leaves kept left more (names.foldl (fun state name => state.pushFrame name) next) := by
  induction names generalizing entered next with
  | nil => exact ⟨entered, hleaves⟩
  | cons name names ih =>
    have hpush : state.Leaves kept left (entered ++ [{ name, index := next.frames.length }])
        (next.pushFrame name) := by
      refine ⟨hleaves.before, ?_, ?_, hleaves.values, hleaves.heap, hleaves.owners⟩
      · rw [pushFrame, hleaves.after, List.append_assoc]
      · rw [List.forall_mem_append, List.forall_mem_singleton]
        exact ⟨hleaves.unused, rfl⟩
    exact ih hpush

/-- A return leaves the frames that are in the way, and no others. -/
theorem Sound.leaves_perform (hsound : state.Sound) {operation : Operation}
    (hreturn : operation.IsReturn) :
    ∃ kept entered,
      state.Leaves kept (operation.framesLeft state) entered (state.perform operation) := by
  cases operation with
  | popFrame =>
    rcases List.eq_nil_or_concat' state.frames with hempty | ⟨outer, frame, hframes⟩
    · have hpop : state.popFrame = state := by
        rw [ProgramState.popFrame, hempty]
        rfl
      have hstays := leaves_refl state
      rw [hempty] at hstays
      rw [ProgramState.perform, hpop, Operation.framesLeft, hempty]
      exact ⟨[], [], hstays⟩
    · have hleft : state.frames.drop (state.frames.length - 1) = [frame] := by
        rw [hframes, List.length_append, List.length_singleton, Nat.add_sub_cancel, List.drop_left]
      rw [ProgramState.perform, Operation.framesLeft, hleft]
      exact ⟨outer, [], leaves_popFrame hsound.owners hframes⟩
  | syncFrames backtrace =>
    have hleft := hsound.leaves_popFrames
      (List.take_append_drop (sharedFrames state.frames (backtrace.reverse.map (·.function)))
        state.frames).symm
    rw [List.length_drop] at hleft
    exact ⟨_, hleft.pushFrames _⟩
  | _ => cases hreturn

theorem Coherent.leaves_perform (hcoherent : state.Coherent) {operation : Operation}
    (hreturn : operation.IsReturn) :
    ∃ kept entered, state.Leaves kept (operation.framesLeft state) entered (state.perform operation) :=
  hcoherent.sound.leaves_perform hreturn

/-- Frames that differ list different values, so what is listed in a frame that is left is retired,
    and its address has no owner. -/
theorem Coherent.retired_of_leaves {kept left entered : List Frame} {frame : Frame}
    (hcoherent : state.Coherent) (hleaves : state.Leaves kept left entered next)
    (hframe : frame ∈ left) (hlisted : id ∈ frame.values) :
    (∃ value, state.values[id]? = some value ∧ next.Retired id value) ∧
      ∀ address, state.addressOf? id = some address → next.idAt? address = none := by
  have hmem : frame ∈ state.frames := by
    rw [hleaves.before]
    exact List.mem_append_right kept hframe
  obtain ⟨value, hvalue, hplace⟩ := Option.map_eq_some_iff.1 (hcoherent.located frame hmem id hlisted)
  have hgone (address : Nat) : next.idAt? address ≠ some id := by
    intro hfind
    exact ((hleaves.owners address id).1 hfind).2 frame hframe hlisted
  refine ⟨⟨value, hvalue, ?_, hgone, ?_⟩, ?_⟩
  · rw [hleaves.values]
    exact hvalue
  · have hnodup := hcoherent.nodup_listing
    rw [listing, hleaves.before, List.flatMap_append, List.append_assoc] at hnodup
    have hhere : id ∈ left.flatMap (·.values) := List.mem_flatMap.2 ⟨frame, hframe, hlisted⟩
    have hkept : id ∉ kept.flatMap (·.values) := fun hin =>
      (List.disjoint_of_nodup_append hnodup) hin (List.mem_append_left _ hhere)
    have hheap : id ∉ state.heap.values :=
      List.disjoint_of_nodup_append hnodup.of_append_right hhere
    have hunused : entered.flatMap (·.values) = [] := List.flatMap_eq_nil_iff.2 hleaves.unused
    rw [listing, hleaves.after, hleaves.heap, List.flatMap_append, hunused, List.append_nil,
      List.mem_append]
    exact not_or.2 ⟨hkept, hheap⟩
  · intro address hof
    have howns := hcoherent.listedOwn frame hmem id hlisted address hof
    by_contra hsome
    obtain ⟨other, hfind⟩ := Option.ne_none_iff_exists'.1 hsome
    have hbefore := ((hleaves.owners address other).1 hfind).1
    obtain rfl : id = other := Option.some.inj (howns.symm.trans hbefore)
    exact hgone address hfind

/-- A return changes no value and takes from their owners exactly the addresses of the values listed in
    the frames that are left. These values are retired for good, whatever follows, and each of their
    addresses is vacant until something is brought there. -/
structure RetiresLocals (state : ProgramState) (leave : Operation) : Prop where
  leaves : ∃ kept entered,
    state.Leaves kept (leave.framesLeft state) entered (state.perform leave)
  retired : ∀ frame ∈ leave.framesLeft state, ∀ id ∈ frame.values, ∃ value,
    state.values[id]? = some value ∧ ∀ later : List Operation,
      ((state.perform leave).performAll later).Retired id value ∧
      ∀ operation : Operation, operation.touched? ((state.perform leave).performAll later) ≠ some id
  vacant : ∀ frame ∈ leave.framesLeft state, ∀ id ∈ frame.values, ∀ address,
    state.addressOf? id = some address → ∀ later : List Operation,
      (∀ operation ∈ later, operation.target? ≠ some address) →
      ((state.perform leave).performAll later).Vacant address

/-- Whatever has been performed, as long as what was recorded or observed on the stack named a frame
    that was there, a return retires the locals of the functions returned from. -/
theorem retiresLocals_of_admitsAll {operations : List Operation} (hadmits : AdmitsAll {} operations)
    {leave : Operation} (hreturn : leave.IsReturn) :
    (performAll operations {}).RetiresLocals leave := by
  have hcoherent := coherent_empty.performAll hadmits
  obtain ⟨kept, entered, hleaves⟩ := hcoherent.leaves_perform hreturn
  refine ⟨⟨kept, entered, hleaves⟩, ?_, ?_⟩
  · intro frame hframe id hlisted
    obtain ⟨⟨value, hvalue, hretired⟩, -⟩ := hcoherent.retired_of_leaves hleaves hframe hlisted
    refine ⟨value, hvalue, fun later => ?_⟩
    have hlater := hretired.performAll later
    exact ⟨hlater, fun operation => (hlater.perform operation).1⟩
  · intro frame hframe id hlisted address hof later htargets
    have hnone := (hcoherent.retired_of_leaves hleaves hframe hlisted).2 address hof
    exact vacant_of_idAt?_eq_none (idAt?_performAll htargets hnone)

/-- A call returns with a local that has an address, one that has none and an address that the heap has
    taken over. The next call has the same locals at the same addresses. -/
theorem retiresLocals_of_admitsAll_same_call :
    let stack (name : String) (address : Option Nat) : Value :=
      { Value.fresh name.toList [] (.stack 1) with address }
    let operations : List Operation :=
      [.pushFrame "main".toList, .pushFrame "f".toList, .observe (stack "x" (some 16)),
        .observe (stack "s" none), .observe (stack "y" (some 24)),
        .memlog (.alloc 1 "0x18".toList 8)]
    let call : List Operation :=
      [.pushFrame "f".toList, .observe (stack "x" (some 16)), .observe (stack "s" none)]
    AdmitsAll {} operations ∧ Operation.IsReturn .popFrame ∧
      (Operation.framesLeft (performAll operations {}) .popFrame).map (·.values) = [[0, 1]] ∧
      (performAll (operations ++ .popFrame :: call) {}).listing = [3, 4, 2] ∧
      (performAll operations {}).RetiresLocals .popFrame :=
  ⟨by decide +kernel, trivial, by decide +kernel, by decide +kernel,
    retiresLocals_of_admitsAll (by decide +kernel) trivial⟩

end ProgramState
end DebugClient
