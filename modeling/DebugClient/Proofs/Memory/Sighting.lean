import Mathlib.Data.Fintype.Basic
import DebugClient.Proofs.Memory.Coherence

/-!
What is seen at a stop. A sight is matched with what is known by its address or, without one, by its
name, and tells of that place only. So what is known behind a stop is told by the sights of each place
by themselves: what has been known before stays in the history of a variable, and is forgotten where
another variable is seen.
-/

namespace DebugClient

/-- What a sight is matched by: its address or, without one, its name. -/
def Value.place (value : Value) : Nat ⊕ Text :=
  match value.address with
  | some address => .inl address
  | none => .inr value.name

namespace ProgramState

/-- What is known behind a sight. Another variable takes the place of a known one. -/
def seenAs (known : Option Value) (seen : Value) : Value :=
  match known with
  | some known =>
    if known.name = seen.name ∧ known.location = seen.location then updated known seen else seen
  | none => seen

/-- What is known behind several sights of one place. -/
def seenAll (known : Option Value) (sights : List Value) : Option Value :=
  sights.foldl (fun known seen => some (seenAs known seen)) known

/-! ### One place -/

section
variable {known : Option Value} {k seen : Value}

theorem name_updated (known seen : Value) : (updated known seen).name = known.name := by
  unfold updated
  dsimp only
  split <;> split <;> rfl

theorem data_updated (known seen : Value) : (updated known seen).data = seen.data := by
  unfold updated
  dsimp only
  split
  · next hsame => split <;> exact hsame
  · split <;> rfl

theorem type_updated (known seen : Value) :
    (updated known seen).type = if known.type.isEmpty then seen.type else known.type := by
  have htype : (if known.data = seen.data then known else known.assign seen.data).type = known.type := by
    split <;> rfl
  unfold updated
  dsimp only
  rw [htype]
  split
  · rfl
  · exact htype

/-- Only other data makes the history grow. -/
theorem history_updated (known seen : Value) : (updated known seen).history =
    if known.data = seen.data then known.history else known.data :: known.history := by
  unfold updated
  dsimp only
  split <;> split <;> rfl

theorem name_seenAs (known : Option Value) (seen : Value) : (seenAs known seen).name = seen.name := by
  unfold seenAs
  split
  · split
    · next hsame => rw [name_updated, hsame.1]
    · rfl
  · rfl

theorem location_seenAs (known : Option Value) (seen : Value) :
    (seenAs known seen).location = seen.location := by
  unfold seenAs
  split
  · split
    · next hsame => rw [location_updated, hsame.2]
    · rfl
  · rfl

theorem data_seenAs (known : Option Value) (seen : Value) : (seenAs known seen).data = seen.data := by
  unfold seenAs
  split
  · split
    · exact data_updated _ _
    · rfl
  · rfl

/-- A type that has been seen is known. -/
theorem isEmpty_type_of_seenAs (hempty : (seenAs known seen).type.isEmpty) : seen.type.isEmpty := by
  unfold seenAs at hempty
  split at hempty
  · split at hempty
    · rw [type_updated] at hempty
      split at hempty
      · exact hempty
      · next hfull => exact absurd hempty hfull
    · exact hempty
  · exact hempty

theorem seenAs_of_same (hname : k.name = seen.name) (hlocation : k.location = seen.location) :
    seenAs (some k) seen = updated k seen := if_pos ⟨hname, hlocation⟩

end

/-! ### The sights of a stop -/

/-- What is known of a value that is seen. -/
def known? (seen : Value) (state : ProgramState) : Option Value :=
  (state.findExisting? seen).bind fun id => state.values[id]?

/-- Take note of what has been seen. -/
def observeAll (sights : List Value) (state : ProgramState) : ProgramState :=
  sights.foldl (fun state seen => (state.observe seen).2) state

/-- Sights of the locals of a frame. All of a variable has an address, or nothing of it has; the members
    of an array always have one. -/
structure SightsOf (frame : Nat) (sights : List Value) : Prop where
  location : ∀ v ∈ sights, v.location = .stack frame
  slot : ∀ v ∈ sights, v.address = none → v.slot = none
  addressed : ∀ v ∈ sights, ∀ w ∈ sights, v.name = w.name → (v.address = none ↔ w.address = none)

/-- No local of the frame is known by the name of a sight without an address while another one is seen at
    the address that it has had. -/
def Apart (frame : Nat) (sights : List Value) (state : ProgramState) : Prop :=
  ∀ known ∈ state.frameValues frame, known.slot = none →
    ∀ v ∈ sights, v.address = none → known.name = v.name →
      ∀ w ∈ sights, w.address ≠ none → known.address ≠ w.address

instance (frame : Nat) (sights : List Value) (state : ProgramState) :
    Decidable (state.Apart frame sights) := by
  unfold Apart
  infer_instance

variable {state next : ProgramState} {id frame address : Nat} {v w : Value} {sights : List Value}

theorem findExisting?_of_address (haddress : v.address = some address) :
    state.findExisting? v = state.idAt? address := by
  simp only [findExisting?, haddress]

/-- Whether a value is matched by a name. -/
def isNamed (name : Text) (state : ProgramState) (id : Nat) : Bool :=
  state.values[id]?.any fun known => known.name = name ∧ known.slot.isNone

theorem isNamed_iff {name : Text} : state.isNamed name id ↔
    ∃ known, state.values[id]? = some known ∧ known.name = name ∧ known.slot = none := by
  simp [isNamed, Option.any_eq_true]

theorem findExisting?_of_name (haddress : v.address = none) (hlocation : v.location = .stack frame) :
    state.findExisting? v =
      state.frames[frame]?.bind fun current => current.values.find? (state.isNamed v.name) := by
  simp only [findExisting?, haddress, hlocation]
  rfl

theorem mem_frameValues_iff : v ∈ state.frameValues frame ↔
    ∃ current, state.frames[frame]? = some current ∧
      ∃ id ∈ current.values, state.values[id]? = some v := by
  unfold frameValues
  cases state.frames[frame]? with
  | none => simp
  | some current => simp

/-- A value that is known by its name is listed in its frame, and no member of an array. -/
theorem Sound.exists_known_of_name (hsound : state.Sound) (haddress : v.address = none)
    (hlocation : v.location = .stack frame) (hfind : state.findExisting? v = some id) :
    ∃ current known, state.frames[frame]? = some current ∧ id ∈ current.values ∧
      state.values[id]? = some known ∧ known.name = v.name ∧ known.slot = none ∧
      known.location = .stack frame := by
  rw [findExisting?_of_name haddress hlocation] at hfind
  obtain ⟨current, hcurrent, hfound⟩ := Option.bind_eq_some_iff.1 hfind
  have hlisted := List.mem_of_find?_eq_some hfound
  obtain ⟨known, hknown, hsame⟩ := isNamed_iff.1 (List.find?_some hfound)
  have hplace := hsound.located current (List.mem_of_getElem? hcurrent) id hlisted
  rw [locationOf?, hknown, hsound.index frame current hcurrent] at hplace
  exact ⟨current, known, hcurrent, hlisted, hknown, hsame.1, hsame.2, Option.some.inj hplace⟩

theorem Sound.exists_known_of_address (hsound : state.Sound) (haddress : v.address = some address)
    (hfind : state.findExisting? v = some id) :
    ∃ known, state.values[id]? = some known ∧ known.address = some address := by
  rw [findExisting?_of_address haddress] at hfind
  exact Option.bind_eq_some_iff.1 (hsound.owners address id hfind)

theorem observe_of_unknown (hfind : state.findExisting? v = none) :
    state.observe v = state.recordValue v := by
  rw [observe, hfind]

theorem observe_of_same {known : Value} (hfind : state.findExisting? v = some id)
    (hknown : state.values[id]? = some known)
    (hsame : known.name = v.name ∧ known.location = v.location) :
    state.observe v = (id, (state.modifyValue id fun known => updated known v).attach id) := by
  simp only [observe, hfind, hknown]
  rw [if_pos hsame]

theorem observe_of_other {known : Value} (hfind : state.findExisting? v = some id)
    (hknown : state.values[id]? = some known)
    (hother : ¬ (known.name = v.name ∧ known.location = v.location)) :
    state.observe v = state.recordValue v := by
  simp only [observe, hfind, hknown]
  rw [if_neg hother]

/-- What a sight is matched with is known at the address of the sight or, if that has none, by its name
    and location. -/
theorem Sound.exists_known (hsound : state.Sound) (hfind : state.findExisting? v = some id) :
    ∃ known, state.values[id]? = some known ∧
      (v.address = none → known.name = v.name ∧ known.location = v.location) := by
  cases haddress : v.address with
  | none =>
    cases hlocation : v.location with
    | heap =>
      rw [findExisting?, haddress, hlocation] at hfind
      cases hfind
    | stack frame =>
      obtain ⟨-, known, -, -, hknown, hname, -, hplace⟩ :=
        hsound.exists_known_of_name haddress hlocation hfind
      exact ⟨known, hknown, fun _ => ⟨hname, hplace⟩⟩
  | some address =>
    obtain ⟨known, hknown, -⟩ := hsound.exists_known_of_address haddress hfind
    exact ⟨known, hknown, nofun⟩

theorem Sound.lt_size_of_findExisting? (hsound : state.Sound)
    (hfind : state.findExisting? v = some id) : id < state.values.size := by
  obtain ⟨known, hknown, -⟩ := hsound.exists_known hfind
  exact (Array.getElem?_eq_some_iff.1 hknown).1

/-- What is seen has settled in the place of what is known, or as something new. -/
structure Sighted (state : ProgramState) (seen : Value) (id : Nat) (next : ProgramState) : Prop where
  settles : state.Settles id (seenAs (state.known? seen) seen) next
  matched : state.findExisting? seen = some id ∨
    state.findExisting? seen = none ∧ id = state.values.size

theorem Sound.exists_sighted (hsound : state.Sound) (v : Value) :
    ∃ id next, state.observe v = (id, next) ∧ state.Sighted v id next := by
  obtain ⟨id, next, hrecord, hsettles, hnumber⟩ := settles_recordValue hsound.owners v
  cases hfind : state.findExisting? v with
  | none =>
    have hknown : state.known? v = none := by rw [known?, hfind, Option.bind_none]
    refine ⟨id, next, (observe_of_unknown hfind).trans hrecord, by rwa [hknown], .inr ⟨hfind, ?_⟩⟩
    rcases hnumber with ⟨address, haddress, howner⟩ | ⟨hnew, -⟩
    · rw [findExisting?_of_address haddress, idAt?, howner] at hfind
      cases hfind
    · exact hnew
  | some found =>
    obtain ⟨known, hvalue, hnamed⟩ := hsound.exists_known hfind
    have hknown : state.known? v = some known := by rw [known?, hfind, Option.bind_some, hvalue]
    by_cases hsame : known.name = v.name ∧ known.location = v.location
    · refine ⟨found, _, observe_of_same hfind hvalue hsame, ?_, .inl hfind⟩
      rw [hknown, seenAs_of_same hsame.1 hsame.2]
      apply settles_modifyValue hsound.owners hvalue (address_updated known v)
      intro address haddress
      apply owns_of_findExisting? hsound.owners hsound.listedOwn hfind
      rw [addressOf?, hvalue, Option.bind_some, haddress]
    · have hnew : seenAs (some known) v = v := if_neg hsame
      refine ⟨id, next, (observe_of_other hfind hvalue hsame).trans hrecord, by rwa [hknown, hnew],
        .inl ?_⟩
      rw [hfind]
      cases haddress : v.address with
      | none => exact absurd (hnamed haddress) hsame
      | some address =>
        rw [findExisting?_of_address haddress, idAt?] at hfind
        rcases hnumber with ⟨own, hown, howner⟩ | ⟨-, hnone⟩
        · rw [haddress] at hown
          cases hown
          rw [← hfind, howner]
        · rw [hnone address haddress] at hfind
          cases hfind

/-! ### Sights of different places -/

theorem place_of_address (haddress : v.address = some address) : v.place = .inl address := by
  rw [Value.place, haddress]

theorem place_of_name (haddress : v.address = none) : v.place = .inr v.name := by
  rw [Value.place, haddress]

theorem place_eq_of_address (haddress : v.address = some address) :
    v.place = w.place ↔ w.address = some address := by
  rw [place_of_address haddress, Value.place]
  cases w.address with
  | none => simp
  | some b => simp [eq_comm]

theorem place_eq_of_name (hnone : v.address = none) :
    v.place = w.place ↔ w.address = none ∧ v.name = w.name := by
  rw [place_of_name hnone, Value.place]
  cases w.address with
  | none => simp
  | some b => simp

theorem findExisting?_congr (hplace : v.place = w.place) (hlocation : v.location = w.location) :
    state.findExisting? v = state.findExisting? w := by
  cases haddress : v.address with
  | none =>
    obtain ⟨hnone, hname⟩ := (place_eq_of_name haddress).1 hplace
    simp only [findExisting?, haddress, hnone, hname, hlocation]
  | some address =>
    have hsame := (place_eq_of_address haddress).1 hplace
    rw [findExisting?_of_address haddress, findExisting?_of_address hsame]

/-- A state in which these sights are matched by their places. -/
structure Clear (frame : Nat) (sights : List Value) (state : ProgramState) : Prop where
  coherent : state.Coherent
  apart : state.Apart frame sights

section
variable (hsights : SightsOf frame sights) (hclear : state.Clear frame sights)
  (hv : v ∈ sights) (hw : w ∈ sights)
include hsights hclear hv hw

/-- A name and an address do not lead to one value. -/
theorem Clear.not_matched (hnone : v.address = none) (haddress : w.address = some address)
    (hfind : state.findExisting? v = some id) : state.findExisting? w ≠ some id := by
  intro hother
  obtain ⟨current, known, hcurrent, hlisted, hknown, hname, hslot, -⟩ :=
    hclear.coherent.sound.exists_known_of_name hnone (hsights.location v hv) hfind
  obtain ⟨known', hknown', hown⟩ := hclear.coherent.sound.exists_known_of_address haddress hother
  rw [hknown] at hknown'
  cases hknown'
  refine hclear.apart known (mem_frameValues_iff.2 ⟨current, hcurrent, id, hlisted, hknown⟩) hslot v hv
    hnone hname w hw ?_ (hown.trans haddress.symm)
  rw [haddress]
  exact nofun

/-- Two sights that are matched with one value are of one place. -/
theorem Clear.place_eq (hfind : state.findExisting? v = some id)
    (hother : state.findExisting? w = some id) : v.place = w.place := by
  cases hav : v.address with
  | none =>
    cases haw : w.address with
    | none =>
      obtain ⟨-, known, -, -, hknown, hname, -⟩ :=
        hclear.coherent.sound.exists_known_of_name hav (hsights.location v hv) hfind
      obtain ⟨-, known', -, -, hknown', hname', -⟩ :=
        hclear.coherent.sound.exists_known_of_name haw (hsights.location w hw) hother
      rw [hknown] at hknown'
      cases hknown'
      rw [place_of_name hav, place_of_name haw, ← hname, ← hname']
    | some b => exact absurd hother (hclear.not_matched hsights hv hw hav haw hfind)
  | some a =>
    cases haw : w.address with
    | none => exact absurd hfind (hclear.not_matched hsights hw hv haw hav hother)
    | some b =>
      obtain ⟨known, hknown, hown⟩ := hclear.coherent.sound.exists_known_of_address hav hfind
      obtain ⟨known', hknown', hown'⟩ := hclear.coherent.sound.exists_known_of_address haw hother
      rw [hknown] at hknown'
      cases hknown'
      rw [place_of_address hav, place_of_address haw, ← Option.some.inj (hown.symm.trans hown')]

end

theorem Sound.address_seenAs_of_address (hsound : state.Sound)
    (haddress : v.address = some address) : (seenAs (state.known? v) v).address = some address := by
  unfold seenAs
  split
  · next known hknown =>
    split
    · obtain ⟨id, hfind, hvalue⟩ := Option.bind_eq_some_iff.1 hknown
      obtain ⟨known', hvalue', hown⟩ := hsound.exists_known_of_address haddress hfind
      rw [hvalue] at hvalue'
      cases hvalue'
      rw [address_updated, hown]
    · exact haddress
  · exact haddress

theorem known?_of_address (haddress : v.address = some address) :
    state.known? v = state.valueAt? address := by
  rw [known?, findExisting?_of_address haddress, valueAt?]

/-- What is seen at an address tells of what was known there. -/
theorem Sound.valueAt?_observe (hsound : state.Sound) (haddress : v.address = some address) :
    (state.observe v).2.valueAt? address = some (seenAs (state.valueAt? address) v) := by
  obtain ⟨id, next, hobserve, hsighted⟩ := hsound.exists_sighted v
  rw [hobserve, hsighted.settles.valueAt?_self (hsound.address_seenAs_of_address haddress),
    known?_of_address haddress]

/-- What a sight settles as has its address; without one it has none, or that of the value that is known
    by its name. -/
theorem Sound.address_seenAs (hsound : state.Sound)
    (haddress : (seenAs (state.known? v) v).address = some address) :
    v.address = some address ∨ v.address = none ∧ ∃ id known, state.findExisting? v = some id ∧
      state.values[id]? = some known ∧ known.address = some address := by
  unfold seenAs at haddress
  split at haddress
  · next known hknown =>
    split at haddress
    · rw [address_updated] at haddress
      obtain ⟨id, hfind, hvalue⟩ := Option.bind_eq_some_iff.1 hknown
      cases hown : v.address with
      | none => exact .inr ⟨rfl, id, known, hfind, hvalue, haddress⟩
      | some own =>
        obtain ⟨known', hvalue', hown'⟩ := hsound.exists_known_of_address hown hfind
        rw [hvalue] at hvalue'
        cases hvalue'
        exact .inl (hown'.symm.trans haddress)
    · exact .inl haddress
  · exact .inl haddress

theorem size_updated (known seen : Value) : (updated known seen).size = known.size := by
  unfold updated
  dsimp only
  split <;> split <;> rfl

theorem slot_updated (known seen : Value) : (updated known seen).slot = known.slot := by
  unfold updated
  dsimp only
  split <;> split <;> rfl

/-- What a sight without an address settles as is matched by the same name. -/
theorem Coherent.matches_seenAs (hcoherent : state.Coherent) (hlocation : v.location = .stack frame)
    (hnone : v.address = none) (hslot : v.slot = none) :
    (seenAs (state.known? v) v).slot = none := by
  unfold seenAs
  split
  · next known hknown =>
    split
    · obtain ⟨id, hfind, hvalue⟩ := Option.bind_eq_some_iff.1 hknown
      obtain ⟨-, known', -, -, hvalue', -, hsame, -⟩ :=
        hcoherent.sound.exists_known_of_name hnone hlocation hfind
      rw [hvalue] at hvalue'
      cases hvalue'
      rw [slot_updated, hsame]
    · exact hslot
  · exact hslot

theorem find?_congr {p q : Nat → Bool} {ids : List Nat} (hsame : ∀ id ∈ ids, q id = p id) :
    ids.find? q = ids.find? p := by
  rw [← List.head?_filter, ← List.head?_filter, List.filter_congr hsame]

/-- Looking for a value among those of a frame that adopts another one. -/
theorem find?_adopt {p q : Nat → Bool} {current : Frame}
    (hsame : ∀ other ∈ current.values, q other = p other) :
    (Frame.adopt id (.stack current.index) current).values.find? q =
      if id ∈ current.values then current.values.find? p
      else (current.values.find? p).or (if q id then some id else none) := by
  rw [Frame.adopt, if_pos rfl]
  split
  · exact find?_congr hsame
  · rw [List.find?_append, find?_congr hsame, List.find?_singleton]

/-- The frame in which all sights live. -/
theorem Sighted.getElem?_frames {current : Frame} (hsighted : state.Sighted w id next)
    (hcoherent : state.Coherent) (hlocation : w.location = .stack frame)
    (hcurrent : state.frames[frame]? = some current) :
    next.frames[frame]? = some (Frame.adopt id (.stack current.index) current) := by
  rw [hsighted.settles.frames, location_seenAs, hlocation, List.getElem?_map, hcurrent, Option.map_some,
    hcoherent.index frame current hcurrent]

section
variable (hsights : SightsOf frame sights) (hclear : state.Clear frame sights)
  (hv : v ∈ sights) (hw : w ∈ sights) (hsighted : state.Sighted w id next)
include hsights hclear hv hw hsighted

/-- The owner of an address changes only where something else has been seen there. -/
theorem Clear.findExisting?_of_address (haddress : v.address = some address) :
    next.findExisting? v = if v.place = w.place then some id else state.findExisting? v := by
  have hsettled : (seenAs (state.known? w) w).address = some address ↔ v.place = w.place := by
    rw [place_eq_of_address haddress]
    constructor
    · intro hown
      rcases hclear.coherent.sound.address_seenAs hown with hsame |
        ⟨hnone, other, known, hfind, hknown, hown⟩
      · exact hsame
      · -- The value that is known by the name owns its address.
        have howner := owns_of_findExisting? hclear.coherent.owners hclear.coherent.listedOwn hfind
          address (by rw [addressOf?, hknown, Option.bind_some, hown])
        rw [← idAt?, ← ProgramState.findExisting?_of_address haddress] at howner
        exact absurd howner (hclear.not_matched hsights hw hv hnone haddress hfind)
    · exact hclear.coherent.sound.address_seenAs_of_address
  rw [ProgramState.findExisting?_of_address haddress, ProgramState.findExisting?_of_address haddress,
    idAt?, hsighted.settles.owner, idAt?]
  simp only [hsettled]

/-- By a name something else is found only where it has been seen by that name. -/
theorem Clear.isNamed_of_sighted (hnone : v.address = none) :
    next.isNamed v.name id ↔ v.place = w.place := by
  have hself := hsighted.settles.self
  rw [isNamed_iff, place_eq_of_name hnone]
  constructor
  · rintro ⟨known, hknown, hname, -⟩
    rw [hself] at hknown
    cases hknown
    rw [name_seenAs] at hname
    exact ⟨(hsights.addressed v hv w hw hname.symm).1 hnone, hname.symm⟩
  · rintro ⟨hwnone, hname⟩
    exact ⟨_, hself, by rw [name_seenAs, hname],
      hclear.coherent.matches_seenAs (hsights.location w hw) hwnone (hsights.slot w hw hwnone)⟩

omit hsighted in
/-- A value in which something is seen is matched by a name only if it is seen by that name. -/
theorem Clear.isNamed_before (hnone : v.address = none) (hmatched : state.findExisting? w = some id)
    {current : Frame} (hcurrent : state.frames[frame]? = some current) (hlisted : id ∈ current.values) :
    state.isNamed v.name id ↔ v.place = w.place := by
  rw [isNamed_iff, place_eq_of_name hnone]
  cases haddress : w.address with
  | none =>
    obtain ⟨-, known, -, -, hknown, hname, hslot, -⟩ :=
      hclear.coherent.sound.exists_known_of_name haddress (hsights.location w hw) hmatched
    constructor
    · rintro ⟨known', hknown', hname', -⟩
      rw [hknown] at hknown'
      cases hknown'
      exact ⟨rfl, hname'.symm.trans hname⟩
    · rintro ⟨-, hsame⟩
      exact ⟨known, hknown, hname.trans hsame.symm, hslot⟩
  | some address =>
    obtain ⟨known, hknown, hown⟩ := hclear.coherent.sound.exists_known_of_address haddress hmatched
    constructor
    · rintro ⟨known', hknown', hname, hslot⟩
      rw [hknown] at hknown'
      cases hknown'
      refine absurd (hown.trans haddress.symm) (hclear.apart known
        (mem_frameValues_iff.2 ⟨current, hcurrent, id, hlisted, hknown⟩) hslot v hv hnone hname w hw ?_)
      rw [haddress]
      exact nofun
    · rintro ⟨hnever, -⟩
      cases hnever

theorem Clear.findExisting?_of_name (hnone : v.address = none) (hlt : frame < state.frames.length) :
    next.findExisting? v = if v.place = w.place then some id else state.findExisting? v := by
  obtain ⟨current, hcurrent⟩ : ∃ current, state.frames[frame]? = some current :=
    ⟨_, List.getElem?_eq_getElem hlt⟩
  have hnamed := hclear.isNamed_of_sighted hsights hv hw hsighted hnone
  have hbefore (hmatched : state.findExisting? w = some id) (hlisted : id ∈ current.values) :=
    hclear.isNamed_before hsights hv hw hnone hmatched hcurrent hlisted
  -- A new value is not listed yet.
  have hmatched : id ∈ current.values → state.findExisting? w = some id := by
    intro hlisted
    rcases hsighted.matched with hsame | ⟨-, hnew⟩
    · exact hsame
    · have hlt := lt_size_of_locationOf?
        (hclear.coherent.located current (List.mem_of_getElem? hcurrent) id hlisted)
      omega
  have hsame : ∀ other ∈ current.values, next.isNamed v.name other = state.isNamed v.name other := by
    intro other hlisted
    by_cases hself : other = id
    · subst hself
      rw [Bool.eq_iff_iff, hnamed, hbefore (hmatched hlisted) hlisted]
    · rw [isNamed, isNamed, hsighted.settles.other other hself]
  rw [ProgramState.findExisting?_of_name hnone (hsights.location v hv),
    ProgramState.findExisting?_of_name hnone (hsights.location v hv),
    hsighted.getElem?_frames hclear.coherent (hsights.location w hw) hcurrent, hcurrent,
    Option.bind_some, Option.bind_some, find?_adopt hsame]
  by_cases hplace : v.place = w.place
  · obtain ⟨hwnone, hname⟩ := (place_eq_of_name hnone).1 hplace
    have hfound : state.findExisting? w = current.values.find? (state.isNamed v.name) := by
      rw [ProgramState.findExisting?_of_name hwnone (hsights.location w hw), hcurrent, Option.bind_some,
        hname]
    rw [if_pos hplace, if_pos (hnamed.2 hplace), ← hfound]
    split
    · next hlisted => exact hmatched hlisted
    · next hunlisted =>
      rcases hsighted.matched with hknown | ⟨hnew, -⟩
      · obtain ⟨other, -, hother, hlisted, -⟩ :=
          hclear.coherent.sound.exists_known_of_name hwnone (hsights.location w hw) hknown
        rw [hcurrent] at hother
        cases hother
        exact absurd hlisted hunlisted
      · rw [hnew, Option.none_or]
  · rw [if_neg hplace, if_neg (mt hnamed.1 hplace), Option.or_none, ite_self]

/-- A sight is matched with something else only where it has been seen in the same place. -/
theorem Clear.findExisting?_of_sighted (hlt : frame < state.frames.length) :
    next.findExisting? v = if v.place = w.place then some id else state.findExisting? v := by
  cases haddress : v.address with
  | none => exact hclear.findExisting?_of_name hsights hv hw hsighted haddress hlt
  | some address => exact hclear.findExisting?_of_address hsights hv hw hsighted haddress

/-- A sight tells of its own place only. -/
theorem Clear.known?_of_sighted (hlt : frame < state.frames.length) :
    next.known? v =
      if v.place = w.place then some (seenAs (state.known? v) w) else state.known? v := by
  have hfind := hclear.findExisting?_of_sighted hsights hv hw hsighted hlt
  by_cases hplace : v.place = w.place
  · have hsame : state.known? v = state.known? w := by
      rw [known?, known?, findExisting?_congr hplace
        ((hsights.location v hv).trans (hsights.location w hw).symm)]
    rw [if_pos hplace] at hfind ⊢
    rw [known?, hfind, Option.bind_some, hsighted.settles.self, hsame]
  · rw [if_neg hplace] at hfind ⊢
    rw [known?, hfind, known?]
    cases hfound : state.findExisting? v with
    | none => rfl
    | some found =>
      rw [Option.bind_some, Option.bind_some, hsighted.settles.other]
      rintro rfl
      rcases hsighted.matched with hmatched | ⟨-, hnew⟩
      · exact hplace (hclear.place_eq hsights hv hw hfound hmatched)
      · have := hclear.coherent.sound.lt_size_of_findExisting? hfound
        omega

omit hv in
/-- The sights stay apart. -/
theorem Clear.of_sighted (hlt : frame < state.frames.length) : next.Clear frame sights := by
  have hwlocation := hsights.location w hw
  constructor
  · apply hclear.coherent.settles hsighted.settles
    rw [location_seenAs, hwlocation]
    exact hlt
  · intro known hmem hslot v hv hnone hname u hu huaddress hsame
    obtain ⟨current, hcurrent, other, hlisted, hknown⟩ := mem_frameValues_iff.1 hmem
    have hbefore := List.getElem?_eq_getElem hlt
    rw [hsighted.getElem?_frames hclear.coherent hwlocation hbefore, Option.some.injEq] at hcurrent
    subst hcurrent
    by_cases hself : other = id
    · subst hself
      rw [hsighted.settles.self] at hknown
      cases hknown
      rw [name_seenAs] at hname
      have hwnone := (hsights.addressed v hv w hw hname.symm).1 hnone
      obtain ⟨address, haddress⟩ := Option.ne_none_iff_exists'.1 huaddress
      rcases hclear.coherent.sound.address_seenAs (hsame.trans haddress) with
        hown | ⟨-, found, known, hfind, hknown, hown⟩
      · rw [hwnone] at hown
        cases hown
      · obtain ⟨current, known', hcurrent, hlisted, hknown', hname', hslot', -⟩ :=
          hclear.coherent.sound.exists_known_of_name hwnone hwlocation hfind
        rw [hknown] at hknown'
        cases hknown'
        exact hclear.apart known (mem_frameValues_iff.2 ⟨current, hcurrent, found, hlisted, hknown⟩)
          hslot' w hw hwnone hname' u hu huaddress (hown.trans haddress.symm)
    · rcases mem_adopt.1 hlisted with ⟨hlisted, -⟩ | ⟨hnew, -⟩
      · rw [hsighted.settles.other other hself] at hknown
        exact hclear.apart known (mem_frameValues_iff.2 ⟨_, hbefore, other, hlisted, hknown⟩) hslot v hv
          hnone hname u hu huaddress hsame
      · exact hself hnew

end

/-! ### All sights, one after the other -/

theorem Clear.observeAll (hsights : SightsOf frame sights) {seen : List Value} (hseen : seen ⊆ sights)
    (hclear : state.Clear frame sights) (hlt : frame < state.frames.length) :
    (state.observeAll seen).Clear frame sights ∧ frame < (state.observeAll seen).frames.length ∧
      ∀ v ∈ sights, (state.observeAll seen).known? v =
        seenAll (state.known? v) (seen.filter (·.place = v.place)) := by
  induction seen generalizing state with
  | nil => exact ⟨hclear, hlt, fun _ _ => rfl⟩
  | cons w seen ih =>
    obtain ⟨hw, hrest⟩ := List.cons_subset.1 hseen
    obtain ⟨id, next, hobserve, hsighted⟩ := hclear.coherent.sound.exists_sighted w
    have hnext : state.observeAll (w :: seen) = next.observeAll seen := by
      rw [ProgramState.observeAll, List.foldl_cons, hobserve]
      rfl
    have hlt' : frame < next.frames.length := by
      rwa [hsighted.settles.frames, List.length_map]
    obtain ⟨hclear', hlt'', hall⟩ := ih hrest (hclear.of_sighted hsights hw hsighted hlt) hlt'
    rw [hnext]
    refine ⟨hclear', hlt'', ?_⟩
    intro v hv
    rw [hall v hv, hclear.known?_of_sighted hsights hv hw hsighted hlt]
    by_cases hplace : v.place = w.place
    · rw [if_pos hplace, List.filter_cons_of_pos (by simpa using hplace.symm)]
      rfl
    · rw [if_neg hplace, List.filter_cons_of_neg (by simpa using fun heq => hplace heq.symm)]

end ProgramState
end DebugClient
