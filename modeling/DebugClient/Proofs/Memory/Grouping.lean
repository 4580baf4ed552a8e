import DebugClient.Proofs.Memory.Rendering
import Mathlib.Data.List.Nodup
import Mathlib.Data.List.Permutation

/-!
What a list of values looks like as text. Each place of the list has a paragraph of its own: a block
where a value of no array stands, the line of an array where the first of its members stands, and
nothing where another of them does. So nothing is lost and nothing repeated, the fields of a struct are
dealt with in the same way one level deeper, and it makes no difference where the later members of an
array stand.
-/

namespace DebugClient.Value

variable {value : Value} {values members : List Value} {start depth : Nat} {text : Text}

/-- The place of a member in its array. -/
def arrayIndex (value : Value) : Nat := value.slot.elim 0 (·.index)

/-- These are the values counted to an array, in the order of their places; those that claim one place
    are in the order of the list. -/
structure Gathers (start : Nat) (values members : List Value) : Prop where
  ascending : members.Pairwise fun a b => a.arrayIndex ≤ b.arrayIndex
  each : ∀ index, members.filter (·.arrayIndex = index) =
    values.filter fun value => value.IsMemberOf start ∧ value.arrayIndex = index

/-- The line of an array, which bears the label of the member that comes first. -/
def IsArrayLine (depth start : Nat) (values : List Value) (line : Text) : Prop :=
  ∃ first others, Gathers start values (first :: others) ∧
    line = indentation depth ++ first.label ++ ": [".toList ++
      commaSeparated ((first :: others).map (·.data.render)) ++ "]\n".toList

mutual
/-- The text shows one value. -/
inductive IsBlock : Nat → Value → Text → Prop where
  | line {depth : Nat} {value : Value} (hdata : ∀ fields, value.data ≠ .fields fields) :
      IsBlock depth value
        (indentation depth ++ value.label ++ ": ".toList ++ value.data.render ++ "\n".toList)
  | struct {depth : Nat} {value : Value} {fields : List Value} {body : Text}
      (hdata : value.data = .fields fields) (hbody : IsOverview (depth + 1) fields body) :
      IsBlock depth value (indentation depth ++ value.label ++ ":\n".toList ++
        indentation depth ++ "\x7b\n".toList ++ body ++ indentation depth ++ "\x7d\n".toList)

/-- The text is what stands in a list for a value behind others of it. -/
inductive IsParagraph : Nat → List Value → List Value → Value → Text → Prop where
  | block {depth : Nat} {values before : List Value} {value : Value} {text : Text}
      (hslot : value.slot = none) (hblock : IsBlock depth value text) :
      IsParagraph depth values before value text
  | first {depth : Nat} {values before : List Value} {value : Value} {slot : ArraySlot} {text : Text}
      (hslot : value.slot = some slot) (hbefore : ∀ other ∈ before, ¬ other.IsMemberOf slot.start)
      (hline : IsArrayLine depth slot.start values text) :
      IsParagraph depth values before value text
  | later {depth : Nat} {values before : List Value} {value : Value} {slot : ArraySlot}
      (hslot : value.slot = some slot) (hbefore : ∃ other ∈ before, other.IsMemberOf slot.start) :
      IsParagraph depth values before value []

/-- The text shows a list of values, with one paragraph for each of its places. -/
inductive IsOverview : Nat → List Value → Text → Prop where
  | of {depth : Nat} {values : List Value} {paragraphs : List Text}
      (hlength : paragraphs.length = values.length)
      (heach : ∀ i value text, values[i]? = some value → paragraphs[i]? = some text →
        IsParagraph depth values (values.take i) value text) :
      IsOverview depth values paragraphs.flatten
end

/-! ### Members in order -/

theorem any_slot_eq_decide (value : Value) :
    value.slot.any (·.start == start) = decide (value.IsMemberOf start) := by
  rw [Bool.eq_iff_iff, decide_eq_true_eq, IsMemberOf, Option.any_eq_true]
  simp

theorem arrayMembers_eq (start : Nat) (values : List Value) : arrayMembers start values =
    (values.filter fun value => value.IsMemberOf start).mergeSort
      fun a b => a.arrayIndex ≤ b.arrayIndex := by
  simp only [arrayMembers, any_slot_eq_decide]
  rfl

theorem arrayIndex_trans (a b c : Value) (hab : decide (a.arrayIndex ≤ b.arrayIndex) = true)
    (hbc : decide (b.arrayIndex ≤ c.arrayIndex) = true) :
    decide (a.arrayIndex ≤ c.arrayIndex) = true := by
  rw [decide_eq_true_eq] at hab hbc ⊢
  exact Nat.le_trans hab hbc

theorem arrayIndex_total (a b : Value) :
    (decide (a.arrayIndex ≤ b.arrayIndex) || decide (b.arrayIndex ≤ a.arrayIndex)) = true := by
  rw [Bool.or_eq_true, decide_eq_true_eq, decide_eq_true_eq]
  exact Nat.le_total _ _

/-- Sorting leaves values of one place in their order. -/
theorem filter_mergeSort (values : List Value) (index : Nat) :
    (values.mergeSort fun a b => a.arrayIndex ≤ b.arrayIndex).filter (·.arrayIndex = index) =
      values.filter (·.arrayIndex = index) := by
  have hsame : (values.filter (·.arrayIndex = index)).Pairwise
      fun a b => decide (a.arrayIndex ≤ b.arrayIndex) = true := by
    rw [List.pairwise_iff_forall_sublist]
    intro a b hsub
    have hplace (c : Value) (hc : c ∈ [a, b]) : c.arrayIndex = index := by
      simpa using (List.mem_filter.1 (hsub.subset hc)).2
    rw [hplace a (by simp), hplace b (by simp)]
    simp
  have hsub := (List.sublist_mergeSort arrayIndex_trans arrayIndex_total hsame
    List.filter_sublist).filter fun value => decide (value.arrayIndex = index)
  rw [List.filter_filter] at hsub
  simp only [Bool.and_self] at hsub
  exact (hsub.eq_of_length ((List.mergeSort_perm values _).filter _).length_eq.symm).symm

theorem ascending_arrayMembers (start : Nat) (values : List Value) :
    (arrayMembers start values).Pairwise fun a b => a.arrayIndex ≤ b.arrayIndex := by
  rw [arrayMembers_eq]
  simpa only [decide_eq_true_eq] using List.pairwise_mergeSort arrayIndex_trans arrayIndex_total _

theorem gathers_arrayMembers (start : Nat) (values : List Value) :
    Gathers start values (arrayMembers start values) := by
  refine ⟨ascending_arrayMembers start values, fun index => ?_⟩
  rw [arrayMembers_eq, filter_mergeSort, List.filter_filter]
  apply List.filter_congr
  intro value _
  rw [Bool.decide_and, Bool.and_comm]

theorem mem_iff_of_each {xs ys : List Value}
    (heach : ∀ index, xs.filter (·.arrayIndex = index) = ys.filter (·.arrayIndex = index))
    (value : Value) : value ∈ xs ↔ value ∈ ys := by
  have hthere := congrArg (value ∈ ·) (heach value.arrayIndex)
  simpa [List.mem_filter] using hthere

/-- Two lists in the order of the places are the same if they have the same values in each place. -/
theorem eq_of_ascending {xs ys : List Value}
    (hxs : xs.Pairwise fun a b => a.arrayIndex ≤ b.arrayIndex)
    (hys : ys.Pairwise fun a b => a.arrayIndex ≤ b.arrayIndex)
    (heach : ∀ index, xs.filter (·.arrayIndex = index) = ys.filter (·.arrayIndex = index)) :
    xs = ys := by
  induction xs generalizing ys with
  | nil =>
    cases ys with
    | nil => rfl
    | cons y ys => cases (mem_iff_of_each heach y).2 List.mem_cons_self
  | cons x xs ih =>
    cases ys with
    | nil => cases (mem_iff_of_each heach x).1 List.mem_cons_self
    | cons y ys =>
      rw [List.pairwise_cons] at hxs hys
      have hle : x.arrayIndex ≤ y.arrayIndex := by
        rcases List.mem_cons.1 ((mem_iff_of_each heach y).2 List.mem_cons_self) with rfl | hlater
        · exact Nat.le_refl _
        · exact hxs.1 y hlater
      have hge : y.arrayIndex ≤ x.arrayIndex := by
        rcases List.mem_cons.1 ((mem_iff_of_each heach x).1 List.mem_cons_self) with rfl | hlater
        · exact Nat.le_refl _
        · exact hys.1 x hlater
      have hplace : x.arrayIndex = y.arrayIndex := Nat.le_antisymm hle hge
      -- The heads are the first of one place, and there the lists agree.
      have hheads := heach x.arrayIndex
      rw [List.filter_cons_of_pos (by simp), List.filter_cons_of_pos (by simp [hplace])] at hheads
      obtain ⟨rfl, -⟩ := List.cons.inj hheads
      have hrest (index : Nat) :
          xs.filter (·.arrayIndex = index) = ys.filter (·.arrayIndex = index) := by
        have hboth := heach index
        simp only [List.filter_cons] at hboth
        split at hboth
        · exact (List.cons.inj hboth).2
        · exact hboth
      rw [ih hxs.2 hys.2 hrest]

theorem Gathers.eq_arrayMembers (hgathers : Gathers start values members) :
    members = arrayMembers start values := by
  have hown := gathers_arrayMembers start values
  refine eq_of_ascending hgathers.ascending hown.ascending fun index => ?_
  rw [hgathers.each, hown.each]

/-- An array with a member in the list has one line, and no other. -/
theorem isArrayLine_iff (hmem : value ∈ values) (hmember : value.IsMemberOf start) :
    IsArrayLine depth start values text ↔ text = renderArray depth start values := by
  have hgathers := gathers_arrayMembers start values
  constructor
  · rintro ⟨first, others, hown, rfl⟩
    rw [renderArray, ← hown.eq_arrayMembers]
  · rintro rfl
    have hthere : value ∈ arrayMembers start values := by
      rw [arrayMembers_eq, List.mem_mergeSort, List.mem_filter]
      exact ⟨hmem, by simpa using hmember⟩
    rw [renderArray]
    cases hmembers : arrayMembers start values with
    | nil =>
      rw [hmembers] at hthere
      cases hthere
    | cons first others =>
      rw [hmembers] at hgathers
      exact ⟨first, others, hgathers, rfl⟩

/-! ### Paragraphs -/

/-- What is rendered for a value behind others of its list. -/
def paragraph (depth : Nat) (values before : List Value) (value : Value) : Text :=
  match value.slot with
  | none => renderAt depth value
  | some slot =>
    if ∃ other ∈ before, other.IsMemberOf slot.start then [] else renderArray depth slot.start values

theorem renderRest_eq_flatten (rendered : List Nat) (before rest : List Value)
    (hrendered : ∀ start, start ∈ rendered ↔ ∃ other ∈ before, other.IsMemberOf start) :
    renderRest depth values rendered rest =
      (rest.mapIdx fun i value => paragraph depth values (before ++ rest.take i) value).flatten := by
  induction rest generalizing rendered before with
  | nil => rw [renderRest, List.mapIdx_nil, List.flatten_nil]
  | cons value rest ih =>
    have hlater (shown : List Nat)
        (hshown : ∀ start, start ∈ shown ↔
          (∃ other ∈ before, other.IsMemberOf start) ∨ value.IsMemberOf start) :
        renderRest depth values shown rest = (rest.mapIdx fun i other =>
          paragraph depth values (before ++ (value :: rest).take (i + 1)) other).flatten := by
      have hbehind := ih shown (before ++ [value]) fun start => by
        rw [hshown]
        simp [or_and_right, exists_or]
      simpa using hbehind
    rw [renderRest, List.mapIdx_cons, List.flatten_cons, List.take_zero, List.append_nil, paragraph]
    cases hslot : value.slot with
    | none =>
      dsimp only
      rw [hlater rendered fun start => ?_]
      rw [hrendered]
      exact (or_iff_left (not_isMemberOf_of_slot_eq_none hslot start)).symm
    | some slot =>
      have hmember (start : Nat) : value.IsMemberOf start ↔ slot.start = start := by
        simp [IsMemberOf, hslot]
      dsimp only
      by_cases hthere : slot.start ∈ rendered
      · rw [if_pos hthere, if_pos ((hrendered _).1 hthere), List.nil_append,
          hlater rendered fun start => ?_]
        rw [hrendered, hmember]
        refine (or_iff_left_of_imp ?_).symm
        rintro rfl
        exact (hrendered _).1 hthere
      · rw [if_neg hthere, if_neg (hthere ∘ (hrendered _).2),
          hlater (slot.start :: rendered) fun start => ?_]
        rw [List.mem_cons, hrendered, hmember, or_comm, eq_comm]

theorem renderList_eq_flatten (depth : Nat) (values : List Value) : renderList depth values =
    (values.mapIdx fun i value => paragraph depth values (values.take i) value).flatten := by
  rw [renderList, renderRest_eq_flatten [] [] values (by simp)]
  simp only [List.nil_append]

/-! ### Blocks -/

theorem renderAt_of_ne_fields (depth : Nat) (hdata : ∀ fields, value.data ≠ .fields fields) :
    renderAt depth value =
      indentation depth ++ value.label ++ ": ".toList ++ value.data.render ++ "\n".toList := by
  obtain ⟨name, type, address, size, location, slot, data, history⟩ := value
  cases data with
  | fields fields => exact absurd rfl (hdata fields)
  | uninitialized | scalar | pointer =>
    rw [renderAt]
    · rfl
    · simp

theorem renderAt_of_fields (depth : Nat) {fields : List Value} (hdata : value.data = .fields fields) :
    renderAt depth value = indentation depth ++ value.label ++ ":\n".toList ++
      indentation depth ++ "\x7b\n".toList ++ renderList (depth + 1) fields ++
      indentation depth ++ "\x7d\n".toList := by
  obtain ⟨name, type, address, size, location, slot, data, history⟩ := value
  cases hdata
  rw [renderAt, renderList]
  rfl

theorem isParagraph_iff {before : List Value} (hmem : value ∈ values)
    (hblock : ∀ text, IsBlock depth value text ↔ text = renderAt depth value) :
    IsParagraph depth values before value text ↔ text = paragraph depth values before value := by
  rw [paragraph]
  cases hslot : value.slot with
  | none =>
    dsimp only
    constructor
    · intro hparagraph
      cases hparagraph with
      | block _ htext => exact (hblock text).1 htext
      | first hsome | later hsome => cases hslot.symm.trans hsome
    · intro htext
      exact .block hslot ((hblock text).2 htext)
  | some slot =>
    have hline : IsArrayLine depth slot.start values text ↔ text = renderArray depth slot.start values :=
      isArrayLine_iff hmem ⟨slot, hslot, rfl⟩
    dsimp only
    constructor
    · intro hparagraph
      cases hparagraph with
      | block hnone => cases hslot.symm.trans hnone
      | first hsome hbefore htext =>
        cases hslot.symm.trans hsome
        rw [if_neg (by simpa using hbefore)]
        exact hline.1 htext
      | later hsome hbefore =>
        cases hslot.symm.trans hsome
        rw [if_pos hbefore]
    · intro htext
      by_cases hbefore : ∃ other ∈ before, other.IsMemberOf slot.start
      · rw [if_pos hbefore] at htext
        rw [htext]
        exact .later hslot hbefore
      · rw [if_neg hbefore] at htext
        exact .first hslot (by simpa using hbefore) (hline.2 htext)

theorem isOverview_iff_of_blocks
    (hblocks : ∀ value ∈ values, ∀ text, IsBlock depth value text ↔ text = renderAt depth value) :
    IsOverview depth values text ↔ text = renderList depth values := by
  have hparagraph {i : Nat} {value : Value} {text : Text} (hvalue : values[i]? = some value) :
      IsParagraph depth values (values.take i) value text ↔
        text = paragraph depth values (values.take i) value :=
    isParagraph_iff (List.mem_of_getElem? hvalue) (hblocks value (List.mem_of_getElem? hvalue))
  rw [renderList_eq_flatten]
  constructor
  · rintro ⟨hlength, heach⟩
    congr 1
    apply List.ext_getElem?
    intro i
    rw [List.getElem?_mapIdx]
    cases hvalue : values[i]? with
    | none =>
      rw [Option.map_none, List.getElem?_eq_none_iff, hlength]
      exact List.getElem?_eq_none_iff.1 hvalue
    | some value =>
      obtain ⟨hi, -⟩ := List.getElem?_eq_some_iff.1 hvalue
      have htext := List.getElem?_eq_getElem (hlength ▸ hi)
      rw [htext, (hparagraph hvalue).1 (heach i value _ hvalue htext)]
      rfl
  · rintro rfl
    refine .of (List.length_mapIdx) fun i value text hvalue htext => (hparagraph hvalue).2 ?_
    rw [List.getElem?_mapIdx, hvalue] at htext
    exact (Option.some.inj htext).symm

/-- The block of a value is what is rendered for it, at every depth of nesting. -/
theorem isBlock_iff (depth : Nat) (value : Value) (text : Text) :
    IsBlock depth value text ↔ text = renderAt depth value := by
  have hfields {fields : List Value} (hdata : value.data = .fields fields) (body : Text) :
      IsOverview (depth + 1) fields body ↔ body = renderList (depth + 1) fields :=
    isOverview_iff_of_blocks fun field hfield text => isBlock_iff (depth + 1) field text
  constructor
  · intro hblock
    cases hblock with
    | line hdata => rw [renderAt_of_ne_fields depth hdata]
    | struct hdata hbody => rw [renderAt_of_fields depth hdata, (hfields hdata _).1 hbody]
  · rintro rfl
    by_cases hdata : ∃ fields, value.data = .fields fields
    · obtain ⟨fields, hdata⟩ := hdata
      rw [renderAt_of_fields depth hdata]
      exact .struct hdata ((hfields hdata _).2 rfl)
    · rw [renderAt_of_ne_fields depth (not_exists.1 hdata)]
      exact .line (not_exists.1 hdata)
termination_by sizeOf value
decreasing_by
  obtain ⟨name, type, address, size, location, slot, data, history⟩ := value
  cases hdata
  have hsmaller := List.sizeOf_lt_of_mem hfield
  simp only [mk.sizeOf_spec, ValueData.fields.sizeOf_spec]
  omega

theorem isOverview_iff (depth : Nat) (values : List Value) (text : Text) :
    IsOverview depth values text ↔ text = renderList depth values :=
  isOverview_iff_of_blocks fun value _ text => isBlock_iff depth value text

/-! ### Members that are moved -/

/-- Behind the first member of an array, the later ones stand elsewhere, and all else is as it was. -/
structure Moved (start : Nat) (back moved : List Value) : Prop where
  others : back.filter (¬ ·.IsMemberOf start) = moved.filter (¬ ·.IsMemberOf start)
  members : (back.filter (·.IsMemberOf start)).Perm (moved.filter (·.IsMemberOf start))

theorem arrayMembers_perm (start : Nat) (values : List Value) :
    (arrayMembers start values).Perm (values.filter (·.IsMemberOf start)) := by
  rw [arrayMembers_eq]
  exact List.mergeSort_perm _ _

/-- Members of an array are counted to no other one. -/
theorem filter_isMemberOf_of_ne {other : Nat} (hother : other ≠ start) (values : List Value) :
    values.filter (·.IsMemberOf other) =
      (values.filter (¬ ·.IsMemberOf start)).filter (·.IsMemberOf other) := by
  rw [List.filter_filter]
  apply List.filter_congr
  intro value _
  rw [← Bool.decide_and, decide_eq_decide]
  refine (and_iff_left_of_imp ?_).symm
  rintro ⟨slot, hslot, hstart⟩ ⟨own, hown, hsame⟩
  cases hslot.symm.trans hown
  exact hother (hstart.symm.trans hsame)

theorem Moved.arrayMembers_of_ne {back moved : List Value} {other : Nat}
    (hmoved : Moved start back moved) (hother : other ≠ start) (front : List Value) :
    arrayMembers other (front ++ back) = arrayMembers other (front ++ moved) := by
  rw [arrayMembers_eq, arrayMembers_eq, List.filter_append, List.filter_append,
    filter_isMemberOf_of_ne hother back, filter_isMemberOf_of_ne hother moved, hmoved.others]

theorem Moved.arrayMembers_self {back moved : List Value} (hmoved : Moved start back moved)
    (front : List Value)
    (hdistinct : (((front ++ back).filter (·.IsMemberOf start)).map arrayIndex).Nodup) :
    arrayMembers start (front ++ back) = arrayMembers start (front ++ moved) := by
  have hfilter : ((front ++ back).filter (·.IsMemberOf start)).Perm
      ((front ++ moved).filter (·.IsMemberOf start)) := by
    rw [List.filter_append, List.filter_append]
    exact hmoved.members.append_left _
  have hperm : (arrayMembers start (front ++ back)).Perm (arrayMembers start (front ++ moved)) :=
    (arrayMembers_perm start _).trans (hfilter.trans (arrayMembers_perm start _).symm)
  refine hperm.eq_of_pairwise ?_ (ascending_arrayMembers start _) (ascending_arrayMembers start _)
  intro a b ha hb hab hba
  have ha' := (arrayMembers_perm start _).mem_iff.1 ha
  have hb' := (arrayMembers_perm start _).mem_iff.1 (hperm.mem_iff.2 hb)
  exact List.inj_on_of_nodup_map hdistinct ha' hb' (Nat.le_antisymm hab hba)

/-- Once an array has been rendered its members may as well not be there. -/
theorem renderRest_filter {all : List Value} {rendered : List Nat} (hrendered : start ∈ rendered)
    (values : List Value) : renderRest depth all rendered values =
      renderRest depth all rendered (values.filter (¬ ·.IsMemberOf start)) := by
  induction values generalizing rendered with
  | nil => rfl
  | cons value values ih =>
    by_cases hmember : value.IsMemberOf start
    · obtain ⟨slot, hslot, rfl⟩ := hmember
      rw [List.filter_cons_of_neg (by simp [IsMemberOf, hslot]), renderRest, hslot]
      dsimp only
      rw [if_pos hrendered, ih hrendered]
    · rw [List.filter_cons_of_pos (by simpa using hmember), renderRest, renderRest]
      cases value.slot with
      | none =>
        dsimp only
        rw [ih hrendered]
      | some slot =>
        dsimp only
        rw [ih hrendered, ih (List.mem_cons_of_mem _ hrendered)]

/-- The later members of an array may be moved about behind the first one, unless some of them claim one
    place in the array. -/
theorem Moved.renderList_eq {front back moved : List Value} {first : Value}
    (hmoved : Moved start back moved) (hfirst : first.IsMemberOf start)
    (hfront : ∀ value ∈ front, ¬ value.IsMemberOf start)
    (hdistinct : (((first :: back).filter (·.IsMemberOf start)).map arrayIndex).Nodup) :
    renderList depth (front ++ first :: back) = renderList depth (front ++ first :: moved) := by
  have hnone : front.filter (·.IsMemberOf start) = [] :=
    List.filter_eq_nil_iff.2 fun value hvalue => by simpa using hfront value hvalue
  have hothers : ∀ other ≠ start, arrayMembers other (front ++ first :: back) =
      arrayMembers other (front ++ first :: moved) := by
    intro other hother
    have h := hmoved.arrayMembers_of_ne hother (front ++ [first])
    rwa [List.append_assoc, List.append_assoc] at h
  have hself : arrayMembers start (front ++ first :: back) =
      arrayMembers start (front ++ first :: moved) := by
    have h := hmoved.arrayMembers_self (front ++ [first])
    rw [List.append_assoc, List.append_assoc, List.filter_append, hnone] at h
    exact h hdistinct
  obtain ⟨slot, hslot, rfl⟩ := hfirst
  have hunrendered : slot.start ∉ renderedBehind [] front := by
    intro hmem
    rcases mem_renderedBehind hmem with hnil | ⟨value, hvalue, hmember⟩
    · cases hnil
    · exact hfront value hvalue hmember
  have hbehind (rest : List Value) : renderList depth (front ++ first :: rest) =
      renderRest depth (front ++ first :: rest) [] front ++
        (renderArray depth slot.start (front ++ first :: rest) ++
          renderRest depth (front ++ first :: rest) (slot.start :: renderedBehind [] front)
            (rest.filter (¬ ·.IsMemberOf slot.start))) := by
    rw [renderList, renderRest_append, renderRest, hslot]
    dsimp only
    rw [if_neg hunrendered, renderRest_filter List.mem_cons_self]
  have harray : renderArray depth slot.start (front ++ first :: back) =
      renderArray depth slot.start (front ++ first :: moved) := by
    rw [renderArray, renderArray, hself]
  rw [hbehind, hbehind, harray, hmoved.others,
    renderRest_congr [] [] hfront hothers fun _ _ => Iff.rfl,
    renderRest_congr _ (slot.start :: renderedBehind [] front) ?_ hothers fun _ _ => Iff.rfl]
  intro value hvalue
  simpa using (List.mem_filter.1 hvalue).2

theorem renderFields_eq_map (fields : List Value) : renderFields fields =
    fields.map fun field => field.name ++ " = ".toList ++ field.data.render := by
  induction fields with
  | nil => rfl
  | cons field fields ih =>
    obtain ⟨name, type, address, size, location, slot, data, history⟩ := field
    rw [renderFields, ih, List.map_cons]

/-- A list of values is rendered paragraph by paragraph, structs at every depth, and in no other way; in
    the line of an array a struct has all of its fields, in their order; and where the later members of
    an array stand makes no difference, as long as no two of its members claim one place. -/
theorem renderList_paragraphs :
    (∀ depth values text, IsOverview depth values text ↔ text = renderList depth values) ∧
    (∀ fields, (ValueData.fields fields).render = '{' :: commaSeparated
      (fields.map fun field => field.name ++ " = ".toList ++ field.data.render) ++ ['}']) ∧
    ∀ {depth start : Nat} {front back moved : List Value} {first : Value},
      Moved start back moved → first.IsMemberOf start →
      (∀ value ∈ front, ¬ value.IsMemberOf start) →
      (((first :: back).filter (·.IsMemberOf start)).map arrayIndex).Nodup →
      renderList depth (front ++ first :: back) = renderList depth (front ++ first :: moved) := by
  refine ⟨isOverview_iff, fun fields => ?_, Moved.renderList_eq⟩
  rw [ValueData.render, renderFields_eq_map]

/-- Two arrays that take turns, the first of them from its end, in a struct; and one of its members is
    moved behind a value of no array. -/
theorem renderList_paragraphs_interleaved :
    let element (name : String) (start index : Nat) (text : String) : Value :=
      { fresh name.toList "int".toList .heap with
        slot := some { start, index, length := 2 }, data := .scalar text.toList }
    let back : List Value := [element "b" 32 0 "5", element "a" 16 0 "1", fresh "n".toList [] .heap]
    let moved : List Value := [element "b" 32 0 "5", fresh "n".toList [] .heap, element "a" 16 0 "1"]
    let struct (fields : List Value) : Value :=
      { fresh "s".toList "struct s".toList .heap with data := .fields fields }
    let text := "s (struct s):\n\x7b\n  a (int): [1, 2]\n  b (int): [5]\n  n: <garbage>\n\x7d\n".toList
    IsOverview 0 [struct (element "a" 16 1 "2" :: back)] text ∧ Moved 16 back moved ∧
      renderList 1 (element "a" 16 1 "2" :: back) = renderList 1 (element "a" 16 1 "2" :: moved) := by
  intro element back moved struct text
  have htext : text = renderList 0 [struct (element "a" 16 1 "2" :: back)] := by cbv
  have hmoved : Moved 16 back moved := ⟨by decide +kernel, by decide +kernel⟩
  have hfirst : (element "a" 16 1 "2").IsMemberOf 16 := ⟨_, rfl, rfl⟩
  exact ⟨(renderList_paragraphs.1 0 _ text).2 htext, hmoved,
    renderList_paragraphs.2.2 hmoved hfirst (List.forall_mem_nil _) (by decide +kernel)⟩

end DebugClient.Value
