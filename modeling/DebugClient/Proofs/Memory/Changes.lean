import Mathlib.Data.List.Destutter
import DebugClient.Proofs.Memory.Retirement
import DebugClient.Proofs.Memory.Sighting

/-!
The history of a local variable. Whatever else happens in between, it holds exactly the changes that have
been seen: data that is seen again right away leaves no trace, and taking changes back goes through what
was held before, one change each time, and touches nothing else.
-/

namespace DebugClient

/-- What a value has held so far, the first first. -/
def Value.trail (value : Value) : List ValueData := value.history.reverse ++ [value.data]

/-- A variable of a frame, at its address. -/
structure LocalVariable where
  name : Text
  frame : Nat
  address : Nat

namespace LocalVariable

/-- The value is one of the variable of that name in that frame, wherever it may be. -/
def Names (x : LocalVariable) (value : Value) : Prop :=
  value.name = x.name ∧ value.location = .stack x.frame

instance (x : LocalVariable) : DecidablePred x.Names := fun _ =>
  inferInstanceAs (Decidable (_ ∧ _))

/-- A sight of the variable at its address, as a value that has been assigned once. -/
structure IsSight (x : LocalVariable) (seen : Value) : Prop where
  names : x.Names seen
  address : seen.address = some x.address
  history : seen.history = [.uninitialized]

/-- The operation takes note of the variable without its address. -/
def IsSeenByName (x : LocalVariable) : Operation → Prop
  | .observe seen => seen.address = none ∧ x.Names seen
  | _ => False

instance (x : LocalVariable) (operation : Operation) : Decidable (x.IsSeenByName operation) :=
  match operation with
  | .observe _ => inferInstanceAs (Decidable (_ ∧ _))
  | .pushFrame _ | .popFrame | .syncFrames _ | .record _ | .allocate _ _ | .memlog _ | .rollback _
  | .assign _ _ => inferInstanceAs (Decidable False)

end LocalVariable

/-- The address of the value that an operation is about. -/
def Operation.address? : Operation → Option Nat
  | .rollback address | .assign address _ => some address
  | operation => operation.target?

/-- The operation is not about the address of the variable, does not see the variable without it and does
    not leave its frame. -/
structure LocalVariable.SparedBy (x : LocalVariable) (state : ProgramState) (operation : Operation) :
    Prop where
  address : operation.address? ≠ some x.address
  unseen : ¬ x.IsSeenByName operation
  stays : ∀ frame ∈ operation.framesLeft state, frame.index ≠ x.frame

/-- A run in which the variable is seen with this data, one after the other, and is spared by all that
    happens in between. -/
inductive LocalVariable.Watched (x : LocalVariable) :
    ProgramState → List Operation → List ValueData → Prop where
  | nil (state : ProgramState) : Watched x state [] []
  | sight {state : ProgramState} {seen : Value} {operations : List Operation} {data : List ValueData}
      (hsight : x.IsSight seen) (hrest : Watched x (state.observe seen).2 operations data) :
      Watched x state (.observe seen :: operations) (seen.data :: data)
  | spare {state : ProgramState} {operation : Operation} {operations : List Operation}
      {data : List ValueData} (hspared : x.SparedBy state operation)
      (hrest : Watched x (state.perform operation) operations data) :
      Watched x state (operation :: operations) data

namespace ProgramState

/-- The value at the address of the variable, if it is one of the variable. -/
def local? (x : LocalVariable) (state : ProgramState) : Option Value :=
  (state.valueAt? x.address).filter x.Names

variable {state next : ProgramState} {x : LocalVariable} {value : Value} {id address : Nat}

/-! ### What leaves the value at an address alone -/

theorem Settles.valueAt?_of_ne (hsettles : state.Settles id value next)
    (hne : value.address ≠ some address) : next.valueAt? address = state.valueAt? address := by
  have howner : next.idAt? address = state.idAt? address := by
    rw [idAt?, hsettles.owner, if_neg hne, idAt?]
  rw [valueAt?, howner, valueAt?]
  cases hfind : state.idAt? address with
  | none => rfl
  | some owner =>
    rw [Option.bind_some, Option.bind_some, hsettles.other]
    rintro rfl
    exact hne (hsettles.owned address hfind)

/-- The value that owns one address is not at another one. -/
theorem valueAt?_modifyValue_of_ne (howners : state.OwnersHold) {own : Nat}
    (hfind : state.idAt? own = some id) (hne : own ≠ address) (change : Value → Value) :
    (state.modifyValue id change).valueAt? address = state.valueAt? address := by
  have howner : (state.modifyValue id change).idAt? address = state.idAt? address := rfl
  rw [valueAt?, howner, valueAt?]
  cases hother : state.idAt? address with
  | none => rfl
  | some other =>
    have hids : id ≠ other := by
      rintro rfl
      have hsame := howners own id hfind
      rw [howners address id hother] at hsame
      exact hne (Option.some.inj hsame).symm
    rw [Option.bind_some, Option.bind_some, modifyValue, Array.getElem?_modify, if_neg hids]

theorem valueAt?_modifyAt_of_ne (howners : state.OwnersHold) {own : Nat} (hne : own ≠ address)
    (change : Value → Value) :
    (state.modifyAt own change).valueAt? address = state.valueAt? address := by
  unfold modifyAt
  split
  · next id hfind => exact valueAt?_modifyValue_of_ne howners hfind hne change
  · rfl

theorem valueAt?_applyMemlog_of_ne (howners : state.OwnersHold) {event : MemlogEvent}
    (hne : event.target? ≠ some address) :
    (state.applyMemlog event).2.valueAt? address = state.valueAt? address := by
  rcases applyMemlog_cases event state with heq | ⟨own, id, data, hown, hfind, heq⟩ |
    ⟨allocations, value, -, haddress, -, heq⟩
  · rw [heq]
  · rw [heq]
    apply valueAt?_modifyValue_of_ne howners hfind
    rintro rfl
    exact hne hown
  · have howners' : OwnersHold { state with allocations } := howners
    obtain ⟨id, next, hrecord, hsettles, -⟩ := settles_recordValue howners' value
    rw [heq, hrecord]
    exact hsettles.valueAt?_of_ne (by rwa [haddress])

/-! ### What leaves the variable alone -/

theorem local?_eq_some_iff : state.local? x = some value ↔
    (∃ id, state.idAt? x.address = some id ∧ state.values[id]? = some value) ∧ x.Names value := by
  rw [local?, Option.filter_eq_some_iff, valueAt?, Option.bind_eq_some_iff, decide_eq_true_iff]

theorem local?_congr (hsame : next.valueAt? x.address = state.valueAt? x.address) :
    next.local? x = state.local? x := by
  rw [local?, hsame, local?]

theorem local?_of_names (hvalue : state.valueAt? x.address = some value) (hnames : x.Names value) :
    state.local? x = some value := by
  rw [local?, hvalue, Option.filter_some_pos (by simpa using hnames)]

theorem local?_of_not_names (hvalue : state.valueAt? x.address = some value) (hother : ¬ x.Names value) :
    state.local? x = none := by
  rw [local?, hvalue, Option.filter_some_neg (by simpa using hother)]

/-- The variable is listed in no other frame, so it keeps its address when others are left. -/
theorem Sound.local?_of_leaves (hsound : state.Sound) {kept left entered : List Frame}
    (hleaves : state.Leaves kept left entered next) (hstays : ∀ frame ∈ left, frame.index ≠ x.frame) :
    next.local? x = state.local? x := by
  ext value
  rw [local?_eq_some_iff, local?_eq_some_iff, hleaves.values]
  constructor
  · rintro ⟨⟨id, hfind, hvalue⟩, hnames⟩
    exact ⟨⟨id, ((hleaves.owners _ _).1 hfind).1, hvalue⟩, hnames⟩
  · rintro ⟨⟨id, hfind, hvalue⟩, hnames⟩
    refine ⟨⟨id, (hleaves.owners _ _).2 ⟨hfind, ?_⟩, hvalue⟩, hnames⟩
    intro frame hframe hlisted
    have hmem : frame ∈ state.frames := by
      rw [hleaves.before]
      exact List.mem_append_right kept hframe
    have hplace := hsound.located frame hmem id hlisted
    rw [locationOf?, hvalue, Option.map_some, hnames.2] at hplace
    simp only [Option.some.injEq, Location.stack.injEq] at hplace
    exact hstays frame hframe hplace.symm

/-- A sight that has another address or none, and is not one of the variable, may be taken for a value at
    the address of the variable, but not for the variable. -/
theorem Sound.local?_observe_of_ne (hsound : state.Sound) {seen : Value}
    (haddress : seen.address ≠ some x.address) (hunseen : ¬ (seen.address = none ∧ x.Names seen)) :
    (state.observe seen).2.local? x = state.local? x := by
  obtain ⟨id, next, hobserve, hsettles, -⟩ := hsound.exists_sighted seen
  rw [hobserve]
  -- What is known by the name of the sight may have the address of the variable. Then another variable
  -- is there before and after.
  by_cases hmatched : (seenAs (state.known? seen) seen).address = some x.address
  · rcases hsound.address_seenAs hmatched with hown | ⟨hnone, found, known, hfind, hknown, hown⟩
    · exact absurd hown haddress
    · have howns : state.idAt? x.address = some found := by
        apply owns_of_findExisting? hsound.owners hsound.listedOwn hfind
        rw [addressOf?, hknown, Option.bind_some, hown]
      have hthere : state.valueAt? x.address = some known := by
        rw [valueAt?, howns, Option.bind_some, hknown]
      obtain ⟨known', hknown', hsame⟩ := hsound.exists_known hfind
      rw [hknown] at hknown'
      cases hknown'
      have hother : ¬ x.Names seen := fun hnames => hunseen ⟨hnone, hnames⟩
      have hbefore : ¬ x.Names known := by
        rwa [LocalVariable.Names, (hsame hnone).1, (hsame hnone).2]
      have hafter : ¬ x.Names (seenAs (state.known? seen) seen) := by
        rwa [LocalVariable.Names, name_seenAs, location_seenAs]
      rw [local?_of_not_names hthere hbefore,
        local?_of_not_names (hsettles.valueAt?_self hmatched) hafter]
  · exact local?_congr (hsettles.valueAt?_of_ne hmatched)

/-- An operation that spares the variable leaves its value as it is. -/
theorem Sound.local?_perform (hsound : state.Sound) {operation : Operation}
    (hspared : x.SparedBy state operation) : (state.perform operation).local? x = state.local? x := by
  have haddress := hspared.address
  cases operation with
  | pushFrame name => rfl
  | popFrame =>
    obtain ⟨kept, entered, hleaves⟩ :=
      hsound.leaves_perform (show Operation.IsReturn .popFrame from trivial)
    exact hsound.local?_of_leaves hleaves hspared.stays
  | syncFrames backtrace =>
    obtain ⟨kept, entered, hleaves⟩ :=
      hsound.leaves_perform (show Operation.IsReturn (.syncFrames backtrace) from trivial)
    exact hsound.local?_of_leaves hleaves hspared.stays
  | record value =>
    obtain ⟨id, next, hrecord, hsettles, -⟩ := settles_recordValue hsound.owners value
    rw [ProgramState.perform, hrecord]
    exact local?_congr (hsettles.valueAt?_of_ne haddress)
  | observe seen => exact hsound.local?_observe_of_ne haddress hspared.unseen
  | allocate start length => rfl
  | memlog event => exact local?_congr (valueAt?_applyMemlog_of_ne hsound.owners haddress)
  | rollback own =>
    exact local?_congr
      (valueAt?_modifyAt_of_ne hsound.owners (fun heq => haddress (congrArg some heq)) _)
  | assign own data =>
    exact local?_congr
      (valueAt?_modifyAt_of_ne hsound.owners (fun heq => haddress (congrArg some heq)) _)

/-! ### What has been seen of the variable -/

/-- Another variable at the address is forgotten. -/
theorem Sound.local?_observe (hsound : state.Sound) {seen : Value} (hsight : x.IsSight seen) :
    (state.observe seen).2.local? x = some (seenAs (state.local? x) seen) := by
  have hnames : x.Names (seenAs (state.valueAt? x.address) seen) := by
    rw [LocalVariable.Names, name_seenAs, location_seenAs]
    exact hsight.names
  have hknown : seenAs (state.valueAt? x.address) seen = seenAs (state.local? x) seen := by
    cases hthere : state.valueAt? x.address with
    | none => rw [local?, hthere, Option.filter_none]
    | some known =>
      by_cases hsame : x.Names known
      · rw [local?_of_names hthere hsame]
      · have hother : ¬ (known.name = seen.name ∧ known.location = seen.location) := by
          rwa [hsight.names.1, hsight.names.2]
        rw [local?_of_not_names hthere hsame, seenAs, if_neg hother, seenAs]
  rw [← hknown, local?_of_names (hsound.valueAt?_observe hsight.address) hnames]

/-- What a known value has held when it is seen so often: nothing new unless the data differs. -/
theorem trail_of_watched {operations : List Operation} {data : List ValueData} {known : Value}
    (hsound : state.Sound) (hwatched : x.Watched state operations data)
    (hknown : state.local? x = some known) :
    ∃ value, (state.performAll operations).local? x = some value ∧
      value.trail = known.history.reverse ++ List.destutter' (· ≠ ·) known.data data := by
  -- By induction on the run: what is known when it begins is what the first sight is compared with.
  induction hwatched generalizing known with
  | nil state => exact ⟨known, hknown, rfl⟩
  | @sight state seen operations data hsight hrest ih =>
    have hsame := (local?_eq_some_iff.1 hknown).2
    have hseen : (state.observe seen).2.local? x = some (updated known seen) := by
      rw [hsound.local?_observe hsight, hknown,
        seenAs_of_same (hsame.1.trans hsight.names.1.symm) (hsame.2.trans hsight.names.2.symm)]
    obtain ⟨value, hvalue, htrail⟩ := ih (hsound.observe seen) hseen
    refine ⟨value, hvalue, ?_⟩
    rw [htrail, history_updated, data_updated]
    by_cases hdata : known.data = seen.data
    · rw [if_pos hdata, List.destutter'_cons_neg _ (not_not.2 hdata), hdata]
    · rw [if_neg hdata, List.destutter'_cons_pos _ hdata, List.reverse_cons, List.append_assoc,
        List.singleton_append]
  | @spare state operation operations data hspared hrest ih =>
    exact ih (hsound.perform operation) ((hsound.local?_perform hspared).trans hknown)

theorem trail_of_watched_new {operations : List Operation} {data : List ValueData}
    (hsound : state.Sound) (hwatched : x.Watched state operations data) (hnew : state.local? x = none)
    (hseen : data ≠ []) : ∃ value, (state.performAll operations).local? x = some value ∧
      value.trail = .uninitialized :: data.destutter (· ≠ ·) := by
  induction hwatched with
  | nil state => exact absurd rfl hseen
  | @sight state seen operations data hsight hrest ih =>
    have hfirst : (state.observe seen).2.local? x = some seen := by
      rw [hsound.local?_observe hsight, hnew, seenAs]
    obtain ⟨value, hvalue, htrail⟩ := trail_of_watched (hsound.observe seen) hrest hfirst
    refine ⟨value, hvalue, ?_⟩
    rw [htrail, hsight.history, List.destutter_cons']
    rfl
  | @spare state operation operations data hspared hrest ih =>
    exact ih (hsound.perform operation) ((hsound.local?_perform hspared).trans hnew) hseen

/-! ### Taking changes back -/

theorem rollback_eq (value : Value) :
    value.rollback = { value with data := value.rollback.data, history := value.rollback.history } := by
  unfold Value.rollback
  cases value with
  | mk name type address size location slot data history => cases history <;> rfl

theorem one_le_length_trail (value : Value) : 1 ≤ value.trail.length := by simp [Value.trail]

/-- All but the latest is left, and the first always. -/
theorem trail_rollback (value : Value) :
    value.rollback.trail = value.trail.take (max 1 (value.trail.length - 1)) := by
  cases hhistory : value.history with
  | nil => simp [Value.trail, Value.rollback, hhistory]
  | cons previous earlier =>
    have htrail : value.trail = value.rollback.trail ++ [value.data] := by
      simp [Value.trail, Value.rollback, hhistory]
    rw [htrail, List.length_append, List.length_singleton, Nat.add_sub_cancel,
      Nat.max_eq_right (one_le_length_trail _), List.take_left]

/-- The value has gone so many changes back, or to the first it held if there were fewer, and nothing
    else has changed. -/
structure GoneBack (state : ProgramState) (id : Nat) (value : Value) (k : Nat) (next : ProgramState) :
    Prop where
  value : ∃ earlier, next.values[id]? = some earlier ∧
    earlier = { value with data := earlier.data, history := earlier.history } ∧
    earlier.trail = value.trail.take (max 1 (value.trail.length - k))
  values : ∀ other, other ≠ id → next.values[other]? = state.values[other]?
  rest : next = { state with values := next.values }

theorem goneBack_replicate_rollback (hfind : state.idAt? address = some id)
    (hvalue : state.values[id]? = some value) (k : Nat) :
    state.GoneBack id value k (state.performAll (List.replicate k (.rollback address))) := by
  induction k generalizing state value with
  | zero =>
    refine ⟨⟨value, hvalue, by cases value; rfl, ?_⟩, fun _ _ => rfl, rfl⟩
    exact (List.take_of_length_le (by omega)).symm
  | succ k ih =>
    have hstep : state.perform (.rollback address) = state.modifyValue id Value.rollback := by
      rw [perform, rollbackAt, modifyAt, hfind]
    have hrolled : (state.modifyValue id Value.rollback).values[id]? = some value.rollback := by
      rw [modifyValue, Array.getElem?_modify, if_pos rfl, hvalue, Option.map_some]
    have hback : (state.modifyValue id Value.rollback).GoneBack id value.rollback k
        ((state.modifyValue id Value.rollback).performAll (List.replicate k (.rollback address))) :=
      ih hfind hrolled
    rw [List.replicate_succ, performAll, List.foldl_cons, hstep]
    obtain ⟨⟨earlier, hearlier, hsame, htrail⟩, hvalues, hrest⟩ := hback
    refine ⟨⟨earlier, hearlier, ?_, ?_⟩, ?_, hrest⟩
    · rw [rollback_eq value] at hsame
      exact hsame
    · have hpositive := one_le_length_trail value
      rw [htrail, trail_rollback, List.take_take, List.length_take]
      congr 1
      omega
    · intro other hother
      rw [← performAll, hvalues other hother, modifyValue, Array.getElem?_modify, if_neg hother.symm]

/-- The value of a variable that has held all this, one after the other, and that can be taken back to
    it. -/
structure Recalls (state : ProgramState) (x : LocalVariable) (trail : List ValueData) (id : Nat)
    (value : Value) : Prop where
  owner : state.idAt? x.address = some id
  kept : state.values[id]? = some value
  names : x.Names value
  held : value.trail = trail
  back : ∀ k, state.GoneBack id value k (state.performAll (List.replicate k (.rollback x.address)))

/-- Whatever has been performed before and happens in between: a variable that is new at its address has
    held nothing and then what has been seen, without repetitions, when it is seen again and again. -/
theorem exists_recalls_of_watched {before operations : List Operation} {data : List ValueData}
    (hnew : ∀ known ∈ (performAll before {}).valueAt? x.address, ¬ x.Names known)
    (hwatched : x.Watched (performAll before {}) operations data) (hseen : data ≠ []) :
    ∃ id value, ((performAll before {}).performAll operations).Recalls x
      (.uninitialized :: data.destutter (· ≠ ·)) id value := by
  have hsound := sound_empty.performAll before
  have hnone : (performAll before {}).local? x = none := by
    rw [local?, Option.filter_eq_none_iff]
    intro known hknown
    simpa using hnew known hknown
  obtain ⟨value, hvalue, htrail⟩ := trail_of_watched_new hsound hwatched hnone hseen
  obtain ⟨⟨id, hfind, hid⟩, hnames⟩ := local?_eq_some_iff.1 hvalue
  exact ⟨id, value, hfind, hid, hnames, htrail, goneBack_replicate_rollback hfind hid⟩

/-- A variable takes the place of another one and is seen four times: after a call whose local had the
    same name, while the heap takes a block, and after another local was taken back. -/
theorem exists_recalls_of_watched_interleaved :
    let sight (name : String) (frame address : Nat) (text : String) : Value :=
      Value.assign (.scalar text.toList)
        { Value.fresh name.toList "int".toList (.stack frame) with address := some address }
    let x : LocalVariable := { name := "x".toList, frame := 0, address := 16 }
    let before : List Operation := [.pushFrame "main".toList, .observe (sight "y" 0 16 "7")]
    let operations : List Operation :=
      [.observe (sight "x" 0 16 "1"), .pushFrame "f".toList, .observe (sight "x" 1 32 "5"), .popFrame,
        .observe (sight "x" 0 16 "1"), .memlog (.alloc 1 "0x40".toList 8), .observe (sight "y" 0 24 "7"),
        .observe (sight "x" 0 16 "2"), .rollback 24, .observe (sight "x" 0 16 "1")]
    let scalar (text : String) : ValueData := .scalar text.toList
    let data := [scalar "1", scalar "1", scalar "2", scalar "1"]
    (∀ known ∈ (performAll before {}).valueAt? x.address, ¬ x.Names known) ∧
      x.Watched (performAll before {}) operations data ∧ data ≠ [] ∧
      data.destutter (· ≠ ·) = [scalar "1", scalar "2", scalar "1"] ∧
      ∃ id value, ((performAll before {}).performAll operations).Recalls x
        (.uninitialized :: data.destutter (· ≠ ·)) id value := by
  intro sight x before operations scalar data
  have hnew : ∀ known ∈ (performAll before {}).valueAt? x.address, ¬ x.Names known := by decide +kernel
  have hsight (text : String) : x.IsSight (sight "x" 0 16 text) := ⟨⟨rfl, rfl⟩, rfl, rfl⟩
  have hwatched : x.Watched (performAll before {}) operations data := by
    refine .sight (hsight "1") ?_
    refine .spare ⟨by decide, by decide, by decide⟩ ?_
    refine .spare ⟨by decide, by decide, by decide⟩ ?_
    refine .spare ⟨by decide, by decide, by decide +kernel⟩ ?_
    refine .sight (hsight "1") ?_
    refine .spare ⟨by decide, by decide, by decide⟩ ?_
    refine .spare ⟨by decide, by decide, by decide⟩ ?_
    refine .sight (hsight "2") ?_
    refine .spare ⟨by decide, by decide, by decide⟩ ?_
    exact .sight (hsight "1") (.nil _)
  exact ⟨hnew, hwatched, by decide, by decide +kernel,
    exists_recalls_of_watched hnew hwatched (by decide)⟩

end ProgramState
end DebugClient
