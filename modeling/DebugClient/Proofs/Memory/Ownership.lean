import Mathlib.Data.List.Basic
import DebugClient.Proofs.Memory.Operation

/-!
Who owns an address, and who is listed in a frame. Whatever is performed, an address is owned by a value
that has it, and a frame lists only values that live there and own their addresses. Nothing is asked of
the operations: also a value that is said to live in a frame that is not there leaves the state sound. It
owns its address and is listed nowhere.
-/

namespace DebugClient.ProgramState

/-- The frames and the owners of the addresses agree with the values. An owner may be listed nowhere. -/
structure Sound (state : ProgramState) : Prop where
  index : ∀ (i : Nat) (frame : Frame), state.frames[i]? = some frame → frame.index = i
  located : ∀ frame ∈ state.frames, ∀ id ∈ frame.values,
    state.locationOf? id = some (.stack frame.index)
  /-- An address is owned by a value with that address. -/
  owners : state.OwnersHold
  /-- A listed value that has an address owns it. -/
  listedOwn : state.ListedOwn

variable {state next : ProgramState} {value : Value} {id : Nat}

/-! ### Frames that adopt a value -/

@[simp] theorem index_adopt (id : Nat) (location : Location) (frame : Frame) :
    (Frame.adopt id location frame).index = frame.index := by
  unfold Frame.adopt
  split
  · split <;> rfl
  · rfl

/-- The value is listed in the frame that its location names, and in no other one. -/
theorem mem_adopt {other : Nat} {location : Location} {frame : Frame} :
    other ∈ (Frame.adopt id location frame).values ↔
      other ∈ frame.values ∧ other ≠ id ∨ other = id ∧ location = .stack frame.index := by
  unfold Frame.adopt
  by_cases hlocation : location = .stack frame.index
  · rw [if_pos hlocation]
    by_cases hmem : id ∈ frame.values
    · rw [if_pos hmem]
      by_cases heq : other = id
      · simp [heq, hmem, hlocation]
      · simp [heq]
    · rw [if_neg hmem]
      by_cases heq : other = id
      · simp [heq, hlocation]
      · simp [heq]
  · rw [if_neg hlocation]
    simp [hlocation]

/-! ### Values that settle -/

theorem Settles.addressOf?_self (hsettles : state.Settles id value next) :
    next.addressOf? id = value.address := by
  rw [addressOf?, hsettles.self, Option.bind_some]

theorem Settles.locationOf?_self (hsettles : state.Settles id value next) :
    next.locationOf? id = some value.location := by
  rw [locationOf?, hsettles.self, Option.map_some]

theorem Settles.addressOf?_other (hsettles : state.Settles id value next) {other : Nat}
    (hother : other ≠ id) : next.addressOf? other = state.addressOf? other := by
  rw [addressOf?, hsettles.other other hother, addressOf?]

theorem Settles.locationOf?_other (hsettles : state.Settles id value next) {other : Nat}
    (hother : other ≠ id) : next.locationOf? other = state.locationOf? other := by
  rw [locationOf?, hsettles.other other hother, locationOf?]

/-- Only the address of the value changes its owner, and only to the value. -/
theorem Settles.owner_cases (hsettles : state.Settles id value next) {address other : Nat}
    (hfind : next.byAddress.find? address = some other) :
    value.address = some address ∧ other = id ∨
      value.address ≠ some address ∧ other ≠ id ∧ state.byAddress.find? address = some other := by
  rw [hsettles.owner] at hfind
  by_cases hown : value.address = some address
  · rw [if_pos hown] at hfind
    exact .inl ⟨hown, (Option.some.inj hfind).symm⟩
  · rw [if_neg hown] at hfind
    refine .inr ⟨hown, ?_, hfind⟩
    rintro rfl
    exact hown (hsettles.owned address hfind)

theorem Settles.find?_self (hsettles : state.Settles id value next) {address : Nat}
    (hown : value.address = some address) : next.byAddress.find? address = some id := by
  rw [hsettles.owner, if_pos hown]

theorem Settles.valueAt?_self (hsettles : state.Settles id value next) {address : Nat}
    (hown : value.address = some address) : next.valueAt? address = some value := by
  rw [valueAt?, idAt?, hsettles.find?_self hown, Option.bind_some, hsettles.self]

/-- An owner other than the value stays one. -/
theorem Settles.find?_other (hsettles : state.Settles id value next) {address other : Nat}
    (hother : other ≠ id) (hfind : state.byAddress.find? address = some other) :
    next.byAddress.find? address = some other := by
  rw [hsettles.owner]
  by_cases hown : value.address = some address
  · exact absurd (hsettles.sole address other hown hfind) hother
  · rw [if_neg hown]
    exact hfind

/-- Each frame is one of those before, which may have adopted the value. -/
theorem Settles.exists_adopt (hsettles : state.Settles id value next) {frame : Frame}
    (hmem : frame ∈ next.frames) :
    ∃ before ∈ state.frames, frame = Frame.adopt id value.location before := by
  rw [hsettles.frames] at hmem
  obtain ⟨before, hbefore, rfl⟩ := List.mem_map.1 hmem
  exact ⟨before, hbefore, rfl⟩

/-- A sound state is sound again when a value has settled in it, wherever that is said to live. -/
theorem Sound.settles (hsound : state.Sound) (hsettles : state.Settles id value next) : next.Sound := by
  constructor
  · intro i frame hframe
    rw [hsettles.frames, List.getElem?_map] at hframe
    obtain ⟨before, hbefore, rfl⟩ := Option.map_eq_some_iff.1 hframe
    rw [index_adopt]
    exact hsound.index i before hbefore
  · intro frame hmem other hother
    obtain ⟨before, hbefore, rfl⟩ := hsettles.exists_adopt hmem
    rw [index_adopt]
    rcases mem_adopt.1 hother with ⟨hlisted, hne⟩ | ⟨rfl, hplace⟩
    · rw [hsettles.locationOf?_other hne]
      exact hsound.located before hbefore other hlisted
    · rw [hsettles.locationOf?_self, hplace]
  · intro address other hfind
    rcases hsettles.owner_cases hfind with ⟨hown, rfl⟩ | ⟨-, hne, hbefore⟩
    · rw [hsettles.addressOf?_self, hown]
    · rw [hsettles.addressOf?_other hne]
      exact hsound.owners address other hbefore
  · intro frame hmem other hother address hof
    obtain ⟨before, hbefore, rfl⟩ := hsettles.exists_adopt hmem
    rcases mem_adopt.1 hother with ⟨hlisted, hne⟩ | ⟨rfl, -⟩
    · rw [hsettles.addressOf?_other hne] at hof
      exact hsettles.find?_other hne (hsound.listedOwn before hbefore other hlisted address hof)
    · rw [hsettles.addressOf?_self] at hof
      exact hsettles.find?_self hof

theorem Sound.recordValue (hsound : state.Sound) (value : Value) :
    (state.recordValue value).2.Sound := by
  obtain ⟨id, next, hrecord, hsettles, -⟩ := settles_recordValue hsound.owners value
  rw [hrecord]
  exact hsound.settles hsettles

theorem Sound.observe (hsound : state.Sound) (value : Value) : (state.observe value).2.Sound := by
  obtain ⟨id, settled, next, hobserve, hsettles, -⟩ :=
    settles_observe hsound.owners hsound.listedOwn value
  rw [hobserve]
  exact hsound.settles hsettles

/-! ### Values whose data changes -/

/-- A state is as sound as another one in which all values have the same addresses and locations. -/
theorem Sound.congr (hsound : state.Sound) (hframes : next.frames = state.frames)
    (howners : next.byAddress = state.byAddress)
    (haddress : ∀ id, next.addressOf? id = state.addressOf? id)
    (hlocation : ∀ id, next.locationOf? id = state.locationOf? id) : next.Sound := by
  obtain ⟨hindex, hlocated, hhold, hown⟩ := hsound
  unfold OwnersHold at hhold
  unfold ListedOwn at hown
  constructor
  case owners =>
    unfold OwnersHold
    simpa only [howners, haddress] using hhold
  case listedOwn =>
    unfold ListedOwn
    simpa only [hframes, howners, haddress] using hown
  all_goals simpa only [hframes, hlocation]

/-- Changing a value otherwise leaves all addresses and locations as they are. -/
theorem addressOf?_locationOf?_modifyValue {change : Value → Value}
    (hchange : ∀ value, (change value).address = value.address ∧
      (change value).location = value.location) (id other : Nat) (state : ProgramState) :
    (state.modifyValue id change).addressOf? other = state.addressOf? other ∧
      (state.modifyValue id change).locationOf? other = state.locationOf? other := by
  simp only [addressOf?, locationOf?, modifyValue, Array.getElem?_modify]
  split
  · cases state.values[other]? with
    | none => exact ⟨rfl, rfl⟩
    | some value => exact ⟨(hchange value).1, congrArg some (hchange value).2⟩
  · exact ⟨rfl, rfl⟩

theorem Sound.modifyValue (hsound : state.Sound) {change : Value → Value}
    (hchange : ∀ value, (change value).address = value.address ∧
      (change value).location = value.location) (id : Nat) : (state.modifyValue id change).Sound := by
  have hsame := fun other => addressOf?_locationOf?_modifyValue hchange id other state
  exact hsound.congr rfl rfl (fun other => (hsame other).1) (fun other => (hsame other).2)

theorem Sound.modifyAt (hsound : state.Sound) {change : Value → Value}
    (hchange : ∀ value, (change value).address = value.address ∧
      (change value).location = value.location) (address : Nat) :
    (state.modifyAt address change).Sound := by
  unfold ProgramState.modifyAt
  split
  · exact hsound.modifyValue hchange _
  · exact hsound

theorem Sound.with_allocations (hsound : state.Sound) (allocations : AddressMap Nat) :
    Sound { state with allocations } :=
  hsound.congr rfl rfl (fun _ => rfl) (fun _ => rfl)

/-! ### Frames that are entered and left -/

/-- A frame that is entered lists nothing yet. -/
theorem mem_frames_pushFrame {name : Text} {frame : Frame}
    (hmem : frame ∈ (state.pushFrame name).frames) : frame ∈ state.frames ∨ frame.values = [] := by
  rcases List.mem_append.1 hmem with hbefore | hnew
  · exact .inl hbefore
  · rw [List.mem_singleton.1 hnew]
    exact .inr rfl

theorem Sound.pushFrame (hsound : state.Sound) (name : Text) : (state.pushFrame name).Sound := by
  constructor
  · intro i frame hframe
    unfold ProgramState.pushFrame at hframe
    rw [List.getElem?_append] at hframe
    split at hframe
    · exact hsound.index i frame hframe
    · next hge =>
      rw [List.getElem?_singleton] at hframe
      split at hframe
      · cases hframe
        dsimp only
        omega
      · cases hframe
  · intro frame hmem id hlisted
    rcases mem_frames_pushFrame hmem with hbefore | hempty
    · exact hsound.located frame hbefore id hlisted
    · rw [hempty] at hlisted
      cases hlisted
  · exact hsound.owners
  · intro frame hmem id hlisted
    rcases mem_frames_pushFrame hmem with hbefore | hempty
    · exact hsound.listedOwn frame hbefore id hlisted
    · rw [hempty] at hlisted
      cases hlisted

/-- No value is listed in two frames, as it lives in one. -/
theorem Sound.index_eq (hsound : state.Sound) {frame other : Frame} (hframe : frame ∈ state.frames)
    (hother : other ∈ state.frames) (hlisted : id ∈ frame.values) (hboth : id ∈ other.values) :
    frame.index = other.index := by
  have hhere := hsound.located frame hframe id hlisted
  rw [hsound.located other hother id hboth] at hhere
  simpa [eq_comm] using hhere

/-- The frames further out have other numbers. -/
theorem Sound.index_ne_last (hsound : state.Sound) {outer : List Frame} {frame other : Frame}
    (hframes : state.frames = outer ++ [frame]) (hmem : other ∈ outer) : other.index ≠ frame.index := by
  obtain ⟨i, hother⟩ := List.mem_iff_getElem?.1 hmem
  have hlt := (List.getElem?_eq_some_iff.1 hother).1
  have hi : other.index = i := by
    apply hsound.index i other
    rw [hframes, List.getElem?_append_left hlt, hother]
  have hlast : frame.index = outer.length := by
    apply hsound.index outer.length frame
    rw [hframes, List.getElem?_concat_length]
  omega

theorem Sound.popFrame (hsound : state.Sound) : state.popFrame.Sound := by
  rcases popFrame_cases hsound.owners with ⟨-, heq⟩ | ⟨outer, frame, byAddress, hframes, heq, hleft⟩
  · rw [heq]
    exact hsound
  · rw [heq]
    have houter : ∀ other ∈ outer, other ∈ state.frames := by
      intro other hmem
      rw [hframes]
      exact List.mem_append_left _ hmem
    constructor
    · intro i other hother
      apply hsound.index i other
      rw [hframes, List.getElem?_append_left (List.getElem?_eq_some_iff.1 hother).1, hother]
    · intro other hmem
      exact hsound.located other (houter other hmem)
    · intro address id hfind
      exact hsound.owners address id ((hleft address id).1 hfind).1
    · intro other hmem id hlisted address hof
      refine (hleft address id).2
        ⟨hsound.listedOwn other (houter other hmem) id hlisted address hof, fun hboth => ?_⟩
      have hframe : frame ∈ state.frames := by simp [hframes]
      exact hsound.index_ne_last hframes hmem
        (hsound.index_eq (houter other hmem) hframe hlisted hboth)

theorem Sound.popFrames (hsound : state.Sound) (n : Nat) : (state.popFrames n).Sound := by
  induction n generalizing state with
  | zero => exact hsound
  | succ n ih => exact ih hsound.popFrame

theorem Sound.pushFrames (hsound : state.Sound) (names : List Text) :
    (names.foldl (fun state name => state.pushFrame name) state).Sound := by
  induction names generalizing state with
  | nil => exact hsound
  | cons name names ih => exact ih (hsound.pushFrame name)

/-! ### All operations -/

theorem Sound.applyMemlog (hsound : state.Sound) (event : MemlogEvent) :
    (state.applyMemlog event).2.Sound := by
  rcases applyMemlog_cases event state with heq | ⟨address, id, data, -, -, heq⟩ |
    ⟨allocations, value, -, -, -, heq⟩
  · rw [heq]
    exact hsound
  · rw [heq]
    apply hsound.modifyValue
    intro value
    split <;> exact ⟨rfl, rfl⟩
  · rw [heq]
    exact (hsound.with_allocations allocations).recordValue value

/-- Every operation keeps a state sound. -/
theorem Sound.perform (hsound : state.Sound) (operation : Operation) :
    (state.perform operation).Sound := by
  cases operation with
  | pushFrame name => exact hsound.pushFrame name
  | popFrame => exact hsound.popFrame
  | syncFrames backtrace => exact (hsound.popFrames _).pushFrames _
  | record value => exact hsound.recordValue value
  | observe value => exact hsound.observe value
  | allocate start length => exact hsound.with_allocations _
  | memlog event => exact hsound.applyMemlog event
  | rollback address =>
    apply hsound.modifyAt
    intro value
    unfold Value.rollback
    split <;> exact ⟨rfl, rfl⟩
  | assign address data =>
    apply hsound.modifyAt
    intro value
    exact ⟨rfl, rfl⟩

theorem sound_empty : Sound {} := by
  constructor <;> simp [OwnersHold, ListedOwn, AddressMap.find?, AddressMap.empty]

theorem Sound.performAll (hsound : state.Sound) (operations : List Operation) :
    (state.performAll operations).Sound := by
  induction operations generalizing state with
  | nil => exact hsound
  | cons operation operations ih => exact ih (hsound.perform operation)

end DebugClient.ProgramState
