import DebugClient.Proofs.Memory.Sighting

/-!
What is shown at the address of a value that has been seen. Its name, location and data always are. Its
size, its place in an array and its type are taken over where nothing is known yet under the same name
and location; otherwise they stay as they are known, but for a type that was not known so far. So all of
a sight is shown exactly where what is known fits it.
-/

namespace DebugClient

namespace Value

/-- What is shown is what has been seen. A sight may leave the type open. -/
structure Shows (shown seen : Value) : Prop where
  name : shown.name = seen.name
  location : shown.location = seen.location
  data : shown.data = seen.data
  size : shown.size = seen.size
  slot : shown.slot = seen.slot
  type : seen.type ≠ [] → shown.type = seen.type

/-- What is known contradicts a sight in nothing that a sight does not change. -/
structure Fits (known seen : Value) : Prop where
  size : known.size = seen.size
  slot : known.slot = seen.slot
  type : seen.type ≠ [] → known.type = [] ∨ known.type = seen.type

theorem shows_refl (seen : Value) : seen.Shows seen := ⟨rfl, rfl, rfl, rfl, rfl, fun _ => rfl⟩

end Value

namespace ProgramState

/-- What is shown behind a sight: it says all that has been seen exactly if what was known at the address
    under the same name and location fits the sight. -/
structure Observed (state : ProgramState) (address : Nat) (seen shown : Value) : Prop where
  found : (state.observe seen).2.valueAt? address = some shown
  name : shown.name = seen.name
  location : shown.location = seen.location
  data : shown.data = seen.data
  shows_iff : shown.Shows seen ↔ ∀ known, state.valueAt? address = some known →
    known.name = seen.name → known.location = seen.location → known.Fits seen

theorem shows_updated_iff {known seen : Value} (hname : known.name = seen.name)
    (hlocation : known.location = seen.location) :
    (updated known seen).Shows seen ↔ known.Fits seen := by
  have htype : (updated known seen).type = seen.type ↔ known.type = [] ∨ known.type = seen.type := by
    rw [type_updated]
    by_cases hempty : known.type = []
    · simp [hempty]
    · simp [hempty]
  constructor
  · intro hshows
    refine ⟨?_, ?_, ?_⟩
    · rw [← size_updated known seen, hshows.size]
    · rw [← slot_updated known seen, hshows.slot]
    · intro hgiven
      exact htype.1 (hshows.type hgiven)
  · intro hfits
    refine ⟨?_, ?_, data_updated known seen, ?_, ?_, ?_⟩
    · rw [name_updated, hname]
    · rw [location_updated, hlocation]
    · rw [size_updated, hfits.size]
    · rw [slot_updated, hfits.slot]
    · intro hgiven
      exact htype.2 (hfits.type hgiven)

/-- A sight is taken as it is, unless something is known under the same name and location. -/
theorem shows_seenAs_iff (known : Option Value) (seen : Value) :
    (seenAs known seen).Shows seen ↔ ∀ k, known = some k →
      k.name = seen.name → k.location = seen.location → k.Fits seen := by
  cases known with
  | none => exact ⟨fun _ => nofun, fun _ => seen.shows_refl⟩
  | some k =>
    by_cases hsame : k.name = seen.name ∧ k.location = seen.location
    · rw [seenAs_of_same hsame.1 hsame.2, shows_updated_iff hsame.1 hsame.2]
      constructor
      · rintro hfits k' ⟨⟩ - -
        exact hfits
      · intro hall
        exact hall k rfl hsame.1 hsame.2
    · rw [seenAs, if_neg hsame]
      constructor
      · rintro - k' ⟨⟩ hname hlocation
        exact absurd ⟨hname, hlocation⟩ hsame
      · intro _
        exact seen.shows_refl

/-- Whatever has been performed, a value that is seen at an address is found there with its name,
    location and data, and with all the rest if what was known there fits. -/
theorem exists_observed (operations : List Operation) {seen : Value} {address : Nat}
    (haddress : seen.address = some address) :
    ∃ shown, (performAll operations {}).Observed address seen shown := by
  have hsound := sound_empty.performAll operations
  exact ⟨_, hsound.valueAt?_observe haddress, name_seenAs _ _, location_seenAs _ _, data_seenAs _ _,
    shows_seenAs_iff _ _⟩

/-- An array that has been seen without its size, and then with it. Its first element stays a value of
    its own, so it does not fit. -/
theorem exists_observed_array :
    let whole : Value := Value.assign (.scalar "[1, 2]".toList)
      { Value.fresh "a".toList "int [2]".toList (.stack 0) with address := some 16 }
    let element : Value := Value.assign (.scalar "1".toList)
      { Value.fresh "a".toList "int".toList (.stack 0) with
        address := some 16, size := some 4, slot := some { start := 16, index := 0, length := 2 } }
    let operations : List Operation := [.pushFrame "main".toList, .observe whole]
    element.address = some 16 ∧ (performAll operations {}).valueAt? 16 = some whole ∧
      ¬ whole.Fits element ∧
      ∃ shown, (performAll operations {}).Observed 16 element shown :=
  ⟨rfl, by decide +kernel, fun hfits => absurd hfits.slot (by decide), exists_observed _ rfl⟩

/-- A variable of another block that has the name and the place of the first one, but another type, is
    shown with its data under the type of the first one. -/
theorem shown_under_other_type :
    let sight (type : String) (size : Nat) (text : String) : Value :=
      Value.assign (.scalar text.toList)
        { Value.fresh "x".toList type.toList (.stack 0) with address := some 16, size := some size }
    let operations : List Operation := [.pushFrame "main".toList, .observe (sight "int" 4 "1")]
    let shown := (sight "int" 4 "1").assign (.scalar "2".toList)
    ((performAll operations {}).observe (sight "long" 8 "2")).2.valueAt? 16 = some shown ∧
      ¬ shown.Shows (sight "long" 8 "2") :=
  ⟨by decide +kernel, fun hshows => absurd hshows.size (by decide)⟩

end ProgramState
end DebugClient
