import DebugClient.Memory.Rendering

/-!
Lists of values as text. What is rendered of a list depends on which arrays have been rendered before,
and on who else is a member of the arrays that begin in it. So an array is rendered by itself, whatever
stands around it, as long as that has no part in it.
-/

namespace DebugClient.Value

variable {values others all : List Value} {rendered : List Nat} {start depth : Nat}

/-- The value is counted to the array that starts at this address. -/
def IsMemberOf (start : Nat) (value : Value) : Prop :=
  ∃ slot, value.slot = some slot ∧ slot.start = start

instance {value : Value} : Decidable (value.IsMemberOf start) :=
  decidable_of_iff (value.slot.any (·.start == start)) (by simp [IsMemberOf, Option.any_eq_true])

/-- The arrays that have been rendered behind these values. -/
def renderedBehind (rendered : List Nat) : List Value → List Nat
  | [] => rendered
  | value :: values =>
    match value.slot with
    | none => renderedBehind rendered values
    | some slot =>
      if slot.start ∈ rendered then renderedBehind rendered values
      else renderedBehind (slot.start :: rendered) values

theorem renderRest_append (values others : List Value) :
    renderRest depth all rendered (values ++ others) =
      renderRest depth all rendered values ++
        renderRest depth all (renderedBehind rendered values) others := by
  induction values generalizing rendered with
  | nil => rw [renderRest, renderedBehind, List.nil_append, List.nil_append]
  | cons value values ih =>
    rw [List.cons_append, renderRest, renderRest, renderedBehind]
    cases value.slot with
    | none =>
      dsimp only
      rw [ih, List.append_assoc]
    | some slot =>
      dsimp only
      split
      · rw [ih]
      · rw [ih, List.append_assoc]

theorem mem_renderedBehind (hmem : start ∈ renderedBehind rendered values) :
    start ∈ rendered ∨ ∃ value ∈ values, value.IsMemberOf start := by
  induction values generalizing rendered with
  | nil => exact .inl hmem
  | cons value values ih =>
    have hlater (hrest : ∃ other ∈ values, other.IsMemberOf start) :
        ∃ other ∈ value :: values, other.IsMemberOf start := by
      obtain ⟨other, hother, hmember⟩ := hrest
      exact ⟨other, List.mem_cons_of_mem value hother, hmember⟩
    rw [renderedBehind] at hmem
    split at hmem
    · exact (ih hmem).imp_right hlater
    · next slot hslot =>
      split at hmem
      · exact (ih hmem).imp_right hlater
      · rcases ih hmem with hrendered | hrest
        · rcases List.mem_cons.1 hrendered with rfl | hbefore
          · exact .inr ⟨value, List.mem_cons_self, slot, hslot, rfl⟩
          · exact .inl hbefore
        · exact .inr (hlater hrest)

/-- Members of arrays that have been rendered add nothing. -/
theorem renderRest_of_rendered (hmembers : ∀ value ∈ values, value.IsMemberOf start)
    (hrendered : start ∈ rendered) (others : List Value) :
    renderRest depth all rendered (values ++ others) = renderRest depth all rendered others := by
  induction values with
  | nil => rfl
  | cons value values ih =>
    obtain ⟨⟨slot, hslot, rfl⟩, hrest⟩ := List.forall_mem_cons.1 hmembers
    rw [List.cons_append, renderRest, hslot]
    dsimp only
    rw [if_pos hrendered]
    exact ih hrest

/-- Another array makes no difference to values that are not counted to it, nor do its members among the
    values all around. -/
theorem renderRest_congr {around : List Value} (shown rendered : List Nat)
    (hvalues : ∀ value ∈ values, ¬ value.IsMemberOf start)
    (haround : ∀ other ≠ start, arrayMembers other around = arrayMembers other all)
    (hshown : ∀ other ≠ start, other ∈ shown ↔ other ∈ rendered) :
    renderRest depth around shown values = renderRest depth all rendered values := by
  induction values generalizing shown rendered with
  | nil => rw [renderRest, renderRest]
  | cons value values ih =>
    obtain ⟨hfirst, hrest⟩ := List.forall_mem_cons.1 hvalues
    rw [renderRest, renderRest]
    split
    · rw [ih _ _ hrest hshown]
    · next slot hslot =>
      have hne : slot.start ≠ start := fun hsame => hfirst ⟨slot, hslot, hsame⟩
      simp only [hshown _ hne]
      split
      · exact ih _ _ hrest hshown
      · have harray : renderArray depth slot.start around = renderArray depth slot.start all := by
          rw [renderArray, renderArray, haround _ hne]
        rw [harray, ih _ _ hrest]
        intro other hother
        rw [List.mem_cons, List.mem_cons, hshown other hother]

/-- Values that are not counted to the array may be left out when its members are gathered. -/
theorem arrayMembers_of_not_member (front values back : List Value)
    (hvalues : ∀ value ∈ values, ¬ value.IsMemberOf start) :
    arrayMembers start (front ++ (values ++ back)) = arrayMembers start (front ++ back) := by
  have hnone : values.filter (fun value => value.slot.any (·.start == start)) = [] := by
    rw [List.filter_eq_nil_iff]
    intro value hvalue hany
    obtain ⟨slot, hslot, hstart⟩ := (Option.any_eq_true _ _).1 hany
    exact hvalues value hvalue ⟨slot, hslot, beq_iff_eq.1 hstart⟩
  simp only [arrayMembers, List.filter_append, hnone, List.nil_append]

/-- Where the members of an array stand side by side, by ascending index, with nobody else counted to it,
    the array is rendered as they stand. -/
theorem renderArray_of_adjacent (depth : Nat) {front back : List Value} {first : Value}
    (hmembers : ∀ value ∈ first :: values, value.IsMemberOf start)
    (hascending : (first :: values).Pairwise fun a b =>
      a.slot.elim 0 (·.index) ≤ b.slot.elim 0 (·.index))
    (hfront : ∀ value ∈ front, ¬ value.IsMemberOf start)
    (hback : ∀ value ∈ back, ¬ value.IsMemberOf start) :
    renderArray depth start (front ++ (first :: values ++ back)) =
      indentation depth ++ first.label ++ ": [".toList ++
        commaSeparated ((first :: values).map (·.data.render)) ++ "]\n".toList := by
  have hall : (first :: values).filter (fun value => value.slot.any (·.start == start)) =
      first :: values := by
    rw [List.filter_eq_self]
    intro value hvalue
    obtain ⟨slot, hslot, hstart⟩ := hmembers value hvalue
    simp [hslot, hstart]
  have hgathered : arrayMembers start (front ++ (first :: values ++ back)) = first :: values := by
    have hfirst := arrayMembers_of_not_member [] front (first :: values ++ back) hfront
    have hlast := arrayMembers_of_not_member (first :: values) back [] hback
    rw [List.nil_append, List.nil_append] at hfirst
    rw [List.append_nil, List.append_nil] at hlast
    rw [hfirst, hlast, arrayMembers, hall]
    exact List.mergeSort_of_pairwise (by simpa using hascending)
  rw [renderArray, hgathered]

theorem not_isMemberOf_of_slot_eq_none {lead : Value} (hlead : lead.slot = none) (start : Nat) :
    ¬ lead.IsMemberOf start := by
  rintro ⟨slot, hslot, -⟩
  cases hlead.symm.trans hslot

/-- With the value that leads it, an array makes no difference to the other arrays. -/
theorem arrayMembers_of_other {front back : List Value} {lead : Value} {other : Nat}
    (hlead : lead.slot = none) (hmembers : ∀ value ∈ values, value.IsMemberOf start)
    (hother : other ≠ start) :
    arrayMembers other (front ++ (lead :: (values ++ back))) = arrayMembers other (front ++ back) := by
  apply arrayMembers_of_not_member front (lead :: values)
  rintro value (- | ⟨-, hmem⟩) hmember
  · exact not_isMemberOf_of_slot_eq_none hlead other hmember
  · obtain ⟨slot, hslot, hstart⟩ := hmember
    obtain ⟨own, hown, hsame⟩ := hmembers value hmem
    cases hslot.symm.trans hown
    exact hother (hstart.symm.trans hsame)

/-- An array that comes into a list, behind a value of no array, takes one line there, and all else is
    rendered as it was. -/
theorem renderList_of_adjacent (depth : Nat) {front back : List Value} {lead first : Value}
    (hlead : lead.slot = none)
    (hmembers : ∀ value ∈ first :: values, value.IsMemberOf start)
    (hascending : (first :: values).Pairwise fun a b =>
      a.slot.elim 0 (·.index) ≤ b.slot.elim 0 (·.index))
    (hfront : ∀ value ∈ front, ¬ value.IsMemberOf start)
    (hback : ∀ value ∈ back, ¬ value.IsMemberOf start) :
    ∃ before behind, renderList depth (front ++ back) = before ++ behind ∧
      renderList depth (front ++ (lead :: (first :: values ++ back))) =
        before ++ (renderAt depth lead ++ (indentation depth ++ first.label ++ ": [".toList ++
          commaSeparated ((first :: values).map (·.data.render)) ++ "]\n".toList)) ++ behind := by
  have haround : ∀ other ≠ start,
      arrayMembers other (front ++ (lead :: (first :: values ++ back))) =
        arrayMembers other (front ++ back) :=
    fun other hother => arrayMembers_of_other hlead hmembers hother
  have harray : renderArray depth start (front ++ (lead :: (first :: values ++ back))) =
      indentation depth ++ first.label ++ ": [".toList ++
        commaSeparated ((first :: values).map (·.data.render)) ++ "]\n".toList := by
    have hlead' : ∀ value ∈ front ++ [lead], ¬ value.IsMemberOf start := by
      intro value hvalue
      rcases List.mem_append.1 hvalue with hbefore | hlast
      · exact hfront value hbefore
      · rw [List.mem_singleton.1 hlast]
        exact not_isMemberOf_of_slot_eq_none hlead start
    have h := renderArray_of_adjacent depth hmembers hascending hlead' hback
    rwa [List.append_assoc, List.singleton_append] at h
  obtain ⟨⟨slot, hslot, rfl⟩, hothers⟩ := List.forall_mem_cons.1 hmembers
  have hunrendered : slot.start ∉ renderedBehind [] front := by
    intro hmem
    rcases mem_renderedBehind hmem with hnil | ⟨value, hvalue, hmember⟩
    · cases hnil
    · exact hfront value hvalue hmember
  refine ⟨renderRest depth (front ++ back) [] front,
    renderRest depth (front ++ back) (renderedBehind [] front) back, renderRest_append _ _, ?_⟩
  rw [renderList, renderRest_append, renderRest, hlead]
  dsimp only
  rw [List.cons_append, renderRest, hslot]
  dsimp only
  rw [if_neg hunrendered, renderRest_of_rendered hothers List.mem_cons_self, ← List.cons_append, harray,
    renderRest_congr [] [] hfront haround fun _ _ => Iff.rfl,
    renderRest_congr _ (renderedBehind [] front) hback haround]
  · simp only [List.append_assoc]
  · intro other hother
    rw [List.mem_cons]
    exact or_iff_right hother

end DebugClient.Value
