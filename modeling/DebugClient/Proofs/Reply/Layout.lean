import DebugClient.Proofs.Reply.Nesting
import DebugClient.Proofs.Text.Joining
import DebugClient.Proofs.Text.Runs

/-!
How values are laid out. An aggregate may be broken over lines behind its opening brace, behind the
commas between its items and in front of its closing brace, and a broken one stands for the same
value as the one on a single line.
-/

namespace DebugClient.Literal
open Text CharClass Numeral

/-- The name of a variable or of a field. -/
def IsName (name : Text) : Prop := ∃ c t, name = c :: t ∧ isNameStart c ∧ ∀ d ∈ t, isWord d

/-- The text of a value without parts, which stands for the same wherever it stands: it is closed, on
    one line, and has not the form of an aggregate, of an assignment, of a run of elements or of
    the last element of an array cut short. -/
structure IsPlain (t : Text) : Prop where
  nonempty : t ≠ []
  trimmed : trim t = t
  line : '\n' ∉ t
  closed : IsClosed t
  unbraced : braced? t = none
  unnamed : Assignment.read? t = none
  single : runOf t = (t, 1)
  whole : before? "...".toList t = none

instance (t : Text) : Decidable (IsPlain t) :=
  decidable_of_iff
    (t ≠ [] ∧ trim t = t ∧ '\n' ∉ t ∧ IsClosed t ∧ braced? t = none ∧ Assignment.read? t = none ∧
      runOf t = (t, 1) ∧ before? "...".toList t = none)
    ⟨fun ⟨nonempty, trimmed, line, closed, unbraced, unnamed, single, whole⟩ =>
        ⟨nonempty, trimmed, line, closed, unbraced, unnamed, single, whole⟩,
      fun ⟨nonempty, trimmed, line, closed, unbraced, unnamed, single, whole⟩ =>
        ⟨nonempty, trimmed, line, closed, unbraced, unnamed, single, whole⟩⟩

/-- Items with a comma and white space between each two. -/
inductive Separated : List Text → Text → Prop where
  | single (item : Text) : Separated [item] item
  | cons (item : Text) {gap t : Text} {items : List Text} (hgap : IsGap gap)
      (hitems : Separated items t) : Separated (item :: items) (item ++ [','] ++ gap ++ t)

/-- Items between braces, with white space inside the braces. -/
inductive Enclosed : List Text → Text → Prop where
  | empty {gap : Text} (hgap : IsGap gap) : Enclosed [] (['{'] ++ gap ++ ['}'])
  | filled {items : List Text} {front t back : Text} (hfront : IsGap front) (hback : IsGap back)
      (hitems : Separated items t) : Enclosed items (['{'] ++ front ++ t ++ back ++ ['}'])

mutual
/-- The text prints the value, on one line or broken over several. -/
inductive Prints : Literal → Text → Prop where
  | scalar {t : Text} (hplain : IsPlain t) (hpointer : pointer? t = none) : Prints (.scalar t) t
  | pointer {address : Nat} {t : Text} (hplain : IsPlain t) (hpointer : pointer? t = some address) :
      Prints (.pointer address) t
  | fields {fields : List (Text × Literal)} {items : List Text} {t : Text} (hne : fields ≠ [])
      (hitems : PrintsFields fields items) (henclosed : Enclosed items t) :
      Prints (.fields fields) t
  | elements {elements : List Literal} {items : List Text} {t : Text}
      (hlimit : elements.length ≤ elementLimit) (hitems : PrintsElements elements items)
      (henclosed : Enclosed items t) : Prints (.elements elements) t

/-- The items of a struct. -/
inductive PrintsFields : List (Text × Literal) → List Text → Prop where
  | nil : PrintsFields [] []
  | cons {name value : Text} {literal : Literal} {fields : List (Text × Literal)}
      {items : List Text} (hname : IsName name) (hvalue : Prints literal value)
      (hfields : PrintsFields fields items) :
      PrintsFields ((name, literal) :: fields) ((name ++ " = ".toList ++ value) :: items)

/-- The items of an array. -/
inductive PrintsElements : List Literal → List Text → Prop where
  | nil : PrintsElements [] []
  | cons {value : Text} {literal : Literal} {elements : List Literal} {items : List Text}
      (hvalue : Prints literal value) (helements : PrintsElements elements items) :
      PrintsElements (literal :: elements) (value :: items)
end

/-! ### Names -/

theorem bounds_of_isNameStart {c : Char} (hc : isNameStart c) : 65 ≤ c.toNat ∧ c.toNat ≤ 122 := by
  rw [isNameStart, Bool.or_eq_true, beq_iff_eq] at hc
  rcases hc with halpha | rfl
  · rcases Bool.or_eq_true_iff.1 (show c.isUpper || c.isLower from halpha) with hupper | hlower
    · obtain ⟨hge, hle⟩ : 65 ≤ c.toNat ∧ c.toNat ≤ 90 := of_decide_eq_true hupper
      exact ⟨hge, Nat.le_trans hle (by decide)⟩
    · obtain ⟨hge, hle⟩ := Bool.and_eq_true_iff.1 hlower
      have hfirst : 97 ≤ c.toNat := of_decide_eq_true hge
      exact ⟨Nat.le_trans (by decide) hfirst, of_decide_eq_true hle⟩
  · decide

theorem isWord_of_isNameStart {c : Char} (hc : isNameStart c) : isWord c := by
  obtain ⟨-, hle⟩ := bounds_of_isNameStart hc
  rw [isNameStart] at hc
  rw [isWord, if_pos (by omega), Char.isAlphanum]
  cases halpha : c.isAlpha <;> simp_all

theorem isBlank_of_isNameStart {c : Char} (hc : isNameStart c) : isBlank c = false := by
  obtain ⟨hge, hle⟩ := bounds_of_isNameStart hc
  simp only [isBlank, Bool.or_eq_false_iff, Bool.and_eq_false_iff, beq_eq_false_iff_ne,
    decide_eq_false_iff_not]
  omega

namespace IsName

variable {name value : Text}

theorem isWord_of_mem (hname : IsName name) : ∀ c ∈ name, isWord c := by
  obtain ⟨c, t, rfl, hc, ht⟩ := hname
  exact List.forall_mem_cons.2 ⟨isWord_of_isNameStart hc, ht⟩

theorem newline_notMem (hname : IsName name) : '\n' ∉ name := fun hmem =>
  absurd (hname.isWord_of_mem _ hmem) (by decide)

theorem isClosed (hname : IsName name) : IsClosed name :=
  .of_forall fun c hc => .of_isWord (hname.isWord_of_mem c hc)

theorem beginsFirm (hname : IsName name) : BeginsFirm name := by
  obtain ⟨c, t, rfl, hc, -⟩ := hname
  exact ⟨c, t, rfl, isBlank_of_isNameStart hc⟩

theorem read?_eq (hname : IsName name) (hvalue : '\n' ∉ value) :
    Assignment.read? (name ++ " = ".toList ++ value) = some (name, value) := by
  obtain ⟨c, t, rfl, hc, ht⟩ := hname
  have hblank : isWord ' ' = false := by rfl
  have htake : (t ++ " = ".toList ++ value).takeWhile isWord = t := by
    rw [List.append_assoc, List.takeWhile_append_of_pos ht]
    exact List.append_nil t
  have hdrop : (t ++ " = ".toList ++ value).dropWhile isWord = " = ".toList ++ value := by
    rw [List.append_assoc, List.dropWhile_append_of_pos ht]
    rfl
  have hafter : after? " = ".toList (" = ".toList ++ value) = some value :=
    after?_eq_some_iff.2 rfl
  rw [List.cons_append, List.cons_append, Assignment.read?, if_pos hc, hdrop, hafter, htake]
  exact if_neg hvalue

end IsName

theorem read?_of_not_isNameStart {c : Char} (hc : isNameStart c = false) (t : Text) :
    Assignment.read? (c :: t) = none := by
  rw [Assignment.read?, if_neg (by rw [hc]; exact Bool.false_ne_true)]

theorem exists_of_read? {t name value : Text} (hread : Assignment.read? t = some (name, value)) :
    IsName name ∧ t = name ++ " = ".toList ++ value := by
  cases t with
  | nil => cases hread
  | cons c t =>
    rw [Assignment.read?] at hread
    obtain ⟨hc, hread⟩ := Option.ite_none_right_eq_some.1 hread
    split at hread
    · next found hafter =>
      obtain ⟨-, hread⟩ := Option.ite_none_left_eq_some.1 hread
      cases hread
      refine ⟨⟨c, _, rfl, hc, fun d hd => List.mem_takeWhile_imp hd⟩, ?_⟩
      rw [List.append_assoc, ← after?_eq_some_iff.1 hafter, List.cons_append,
        List.takeWhile_append_dropWhile]
    · cases hread

/-! ### Brackets and ends -/

theorem Separated.isClosedInside {items : List Text} {t : Text} (hseparated : Separated items t)
    (hitems : ∀ item ∈ items, IsClosed item) : IsClosedInside t := by
  induction hseparated with
  | single item => exact .of_isClosed (hitems item List.mem_cons_self)
  | cons item hgap hrest ih =>
    obtain ⟨hitem, hothers⟩ := List.forall_mem_cons.1 hitems
    exact (((IsClosedInside.of_isClosed hitem).append .comma).append (.of_blank hgap)).append
      (ih hothers)

theorem Enclosed.isClosed {items : List Text} {t : Text} (henclosed : Enclosed items t)
    (hitems : ∀ item ∈ items, IsClosed item) : IsClosed t := by
  cases henclosed with
  | empty hgap => exact (IsClosedInside.of_blank hgap).braces
  | filled hfront hback hseparated =>
    have hinside := ((IsClosedInside.of_blank hfront).append
      (hseparated.isClosedInside hitems)).append (.of_blank hback)
    rw [List.append_assoc ['{'], List.append_assoc ['{']]
    exact hinside.braces

theorem Separated.isFirm {items : List Text} {t : Text} (hseparated : Separated items t)
    (hitems : ∀ item ∈ items, IsFirm item) : IsFirm t := by
  induction hseparated with
  | single item => exact hitems item List.mem_cons_self
  | cons item hgap hrest ih =>
    obtain ⟨hitem, hothers⟩ := List.forall_mem_cons.1 hitems
    refine ⟨?_, (ih hothers).ends.append _⟩
    exact ((hitem.begins.append _).append _).append _

theorem Enclosed.exists_eq {items : List Text} {t : Text} (henclosed : Enclosed items t) :
    ∃ inner, t = '{' :: inner ++ ['}'] := by
  cases henclosed with
  | empty hgap => exact ⟨_, rfl⟩
  | filled hfront hback hseparated => exact ⟨_, rfl⟩

theorem Enclosed.isFirm {items : List Text} {t : Text} (henclosed : Enclosed items t) : IsFirm t := by
  obtain ⟨inner, rfl⟩ := henclosed.exists_eq
  exact ⟨⟨'{', _, rfl, rfl⟩, ⟨'{' :: inner, '}', rfl, rfl⟩⟩

theorem Prints.isFirm {literal : Literal} {t : Text} (hprints : Prints literal t) : IsFirm t := by
  cases hprints with
  | scalar hplain hpointer => exact isFirm_of_trim_eq hplain.nonempty hplain.trimmed
  | pointer hplain hpointer => exact isFirm_of_trim_eq hplain.nonempty hplain.trimmed
  | fields hne hitems henclosed => exact henclosed.isFirm
  | elements hlimit hitems henclosed => exact henclosed.isFirm

mutual
theorem Prints.isClosed {literal : Literal} {t : Text} : Prints literal t → IsClosed t
  | .scalar hplain _ | .pointer hplain _ => hplain.closed
  | .fields _ hitems henclosed => henclosed.isClosed hitems.isClosed
  | .elements _ hitems henclosed => henclosed.isClosed hitems.isClosed

theorem PrintsFields.isClosed {fields : List (Text × Literal)} {items : List Text} :
    PrintsFields fields items → ∀ item ∈ items, IsClosed item
  | .nil => nofun
  | .cons hname hvalue hfields =>
    have hequals : IsClosed " = ".toList := by decide
    List.forall_mem_cons.2 ⟨(hname.isClosed.append hequals).append hvalue.isClosed, hfields.isClosed⟩

theorem PrintsElements.isClosed {elements : List Literal} {items : List Text} :
    PrintsElements elements items → ∀ item ∈ items, IsClosed item
  | .nil => nofun
  | .cons hvalue helements => List.forall_mem_cons.2 ⟨hvalue.isClosed, helements.isClosed⟩
end

theorem PrintsFields.isFirm {fields : List (Text × Literal)} {items : List Text} :
    PrintsFields fields items → ∀ item ∈ items, IsFirm item
  | .nil => nofun
  | .cons hname hvalue hfields =>
    List.forall_mem_cons.2 ⟨⟨(hname.beginsFirm.append _).append _, hvalue.isFirm.ends.append _⟩,
      hfields.isFirm⟩

theorem PrintsElements.isFirm {elements : List Literal} {items : List Text} :
    PrintsElements elements items → ∀ item ∈ items, IsFirm item
  | .nil => nofun
  | .cons hvalue helements => List.forall_mem_cons.2 ⟨hvalue.isFirm, helements.isFirm⟩

/-! ### Joining the lines -/

theorem Separated.joined {items : List Text} {t : Text} (hseparated : Separated items t)
    (hitems : ∀ item ∈ items, IsFirm item) : Separated (items.map Text.joined) (joined t) := by
  induction hseparated with
  | single item => exact .single (Text.joined item)
  | @cons item gap t items hgap hrest ih =>
    obtain ⟨hitem, hothers⟩ := List.forall_mem_cons.1 hitems
    have hcomma : EndsFirm (item ++ [',']) := ⟨item, ',', rfl, rfl⟩
    obtain ⟨gap', hgap', -, heq⟩ := exists_joined_append hcomma (hrest.isFirm hothers).begins hgap
    rw [heq, joined_concat hitem.ends rfl]
    exact .cons _ hgap' (ih hothers)

theorem Enclosed.joined {items : List Text} {t : Text} (henclosed : Enclosed items t)
    (hitems : ∀ item ∈ items, IsFirm item) : Enclosed (items.map Text.joined) (joined t) := by
  have hopen : EndsFirm ['{'] := ⟨[], '{', rfl, rfl⟩
  have hclose : BeginsFirm ['}'] := ⟨'}', [], rfl, rfl⟩
  cases henclosed with
  | empty hgap =>
    obtain ⟨gap', hgap', -, heq⟩ := exists_joined_append hopen hclose hgap
    rw [heq, joined_singleton rfl, joined_singleton rfl]
    exact .empty hgap'
  | @filled _ front t back hfront hback hseparated =>
    have hfirm := hseparated.isFirm hitems
    obtain ⟨front', hfront', -, heqFront⟩ := exists_joined_append hopen hfirm.begins hfront
    obtain ⟨back', hback', -, heqBack⟩ := exists_joined_append (hfirm.ends.append _) hclose hback
    rw [heqBack, heqFront, joined_singleton rfl, joined_singleton rfl]
    exact .filled hfront' hback' (hseparated.joined hitems)

theorem IsName.joined_eq {name value : Text} (hname : IsName name) (hvalue : BeginsFirm value) :
    joined (name ++ " = ".toList ++ value) = name ++ " = ".toList ++ joined value := by
  have hends : EndsFirm (name ++ [' ', '=']) := ⟨name ++ [' '], '=', by simp, rfl⟩
  have hline : '\n' ∉ name ++ [' ', '='] := by simp [hname.newline_notMem]
  have hfirm : IsFirm (name ++ [' ', '=']) := ⟨hname.beginsFirm.append _, hends⟩
  have happend : joined (name ++ [' ', '='] ++ [' '] ++ value) =
      joined (name ++ [' ', '=']) ++ [' '] ++ joined value :=
    joined_append hends hvalue (by decide)
  rw [joined_of_notMem hline, hfirm.trim_eq] at happend
  simpa using happend

mutual
/-- Joining the lines of a value gives another print of the value. -/
theorem Prints.joined {literal : Literal} {t : Text} :
    Prints literal t → Prints literal (Text.joined t)
  | .scalar hplain hpointer => by
    rw [joined_of_notMem hplain.line, hplain.trimmed]
    exact .scalar hplain hpointer
  | .pointer hplain hpointer => by
    rw [joined_of_notMem hplain.line, hplain.trimmed]
    exact .pointer hplain hpointer
  | .fields hne hitems henclosed => .fields hne hitems.joined (henclosed.joined hitems.isFirm)
  | .elements hlimit hitems henclosed =>
    .elements hlimit hitems.joined (henclosed.joined hitems.isFirm)

theorem PrintsFields.joined {fields : List (Text × Literal)} {items : List Text} :
    PrintsFields fields items → PrintsFields fields (items.map Text.joined)
  | .nil => .nil
  | .cons hname hvalue hfields => by
    rw [List.map_cons, hname.joined_eq hvalue.isFirm.begins]
    exact .cons hname hvalue.joined hfields.joined

theorem PrintsElements.joined {elements : List Literal} {items : List Text} :
    PrintsElements elements items → PrintsElements elements (items.map Text.joined)
  | .nil => .nil
  | .cons hvalue helements => .cons hvalue.joined helements.joined
end

/-! ### Reading a single line -/

/-- White space around the items is trimmed, and the commas between them are where they are split. -/
theorem Separated.topLevelPieces_eq {items : List Text} {t : Text} (hseparated : Separated items t)
    (hclosed : ∀ item ∈ items, IsClosed item) (hfirm : ∀ item ∈ items, IsFirm item)
    (hline : '\n' ∉ t) {front back : Text} (hfront : IsGap front) (hfrontLine : '\n' ∉ front)
    (hback : IsGap back) (hbackLine : '\n' ∉ back) :
    (topLevelPieces .outside 0 (front ++ t ++ back)).map trim = items := by
  -- Behind a comma, the white space there is what stands in front of the other items.
  induction hseparated generalizing front with
  | single item =>
    have hall : IsClosed (front ++ item ++ back) :=
      ((IsClosed.of_blank hfront hfrontLine).append (hclosed item List.mem_cons_self)).append
        (.of_blank hback hbackLine)
    rw [hall.topLevelPieces_eq, List.map_singleton,
      (hfirm item List.mem_cons_self).trim_gap_append hfront hback]
  | @cons item gap t items hgap hrest ih =>
    obtain ⟨hitemClosed, hothersClosed⟩ := List.forall_mem_cons.1 hclosed
    obtain ⟨hitemFirm, hothersFirm⟩ := List.forall_mem_cons.1 hfirm
    have hgapLine : '\n' ∉ gap := fun hmem => hline (by simp [hmem])
    have hrestLine : '\n' ∉ t := fun hmem => hline (by simp [hmem])
    have hlead : IsClosed (front ++ item) := (IsClosed.of_blank hfront hfrontLine).append hitemClosed
    have hpieces := hlead.topLevelPieces_append
      (show topLevelPieces .outside 0 (',' :: (gap ++ t ++ back)) = [] :: _ from rfl)
    have htext : front ++ (item ++ [','] ++ gap ++ t) ++ back =
        front ++ item ++ ',' :: (gap ++ t ++ back) := by simp
    rw [htext, hpieces, List.map_cons, ih hothersClosed hothersFirm hrestLine hgap hgapLine,
      hitemFirm.trim_gap_append hfront (List.forall_mem_nil _)]

theorem braced?_braces (inner : Text) : braced? (['{'] ++ inner ++ ['}']) = some inner := by
  rw [braced?, List.append_assoc, after?_eq_some_iff.2 rfl]
  exact before?_eq_some_iff.2 rfl

/-- The items of an aggregate on one line are found again. -/
theorem Enclosed.items_eq {printed : List Text} {t : Text} (henclosed : Enclosed printed t)
    (hclosed : ∀ item ∈ printed, IsClosed item) (hfirm : ∀ item ∈ printed, IsFirm item)
    (hline : '\n' ∉ t) : ∃ inner, braced? t = some inner ∧ items inner = printed := by
  cases henclosed with
  | @empty gap hgap =>
    refine ⟨gap, braced?_braces gap, ?_⟩
    have hgapClosed : IsClosed gap := .of_blank hgap fun hmem => hline (by simp [hmem])
    have htrim : trim gap = [] := trim_eq_nil_of_blank hgap
    rw [items, hgapClosed.topLevelPieces_eq, List.map_singleton, htrim]
    rfl
  | @filled _ front t back hfront hback hseparated =>
    have htext : ['{'] ++ front ++ t ++ back ++ ['}'] =
        ['{'] ++ (front ++ t ++ back) ++ ['}'] := by simp
    refine ⟨front ++ t ++ back, by rw [htext, braced?_braces], ?_⟩
    have hpieces := hseparated.topLevelPieces_eq hclosed hfirm (fun hmem => hline (by simp [hmem]))
      hfront (fun hmem => hline (by simp [hmem])) hback (fun hmem => hline (by simp [hmem]))
    rw [items, hpieces]
    split
    · rename_i hlast
      obtain ⟨c, rest, hnil, -⟩ := (hfirm [] (List.mem_of_getLast? hlast)).begins
      cases hnil
    · rfl

/-- A value among the items of an array is one element, and not a field. -/
structure IsElement (t : Text) : Prop where
  unnamed : Assignment.read? t = none
  single : runOf t = (t, 1)
  whole : before? "...".toList t = none

theorem IsPlain.isElement {t : Text} (hplain : IsPlain t) : IsElement t :=
  ⟨hplain.unnamed, hplain.single, hplain.whole⟩

theorem repeatDigits?_eq_some_iff {t digits : Text} : repeatDigits? t = some digits ↔
    IsRun isDigit digits ∧ t = "repeats ".toList ++ (digits ++ " times>".toList) := by
  constructor
  · intro hdigits
    rw [repeatDigits?] at hdigits
    obtain ⟨counted, hafter, hdigits⟩ := Option.bind_eq_some_iff.1 hdigits
    obtain ⟨⟨run, rest⟩, hrun, hdigits⟩ := Option.bind_eq_some_iff.1 hdigits
    obtain ⟨hrest, hdigits⟩ := Option.ite_none_right_eq_some.1 hdigits
    obtain ⟨hdigits', hcounted, -⟩ := eq_append_of_run? hrun
    cases hdigits
    rw [after?_eq_some_iff.1 hafter, hcounted, hrest]
    exact ⟨hdigits', rfl⟩
  · rintro ⟨hdigits, rfl⟩
    have hends : ∀ c ∈ " times>".toList.head?, isDigit c = false := by
      rintro c ⟨⟩
      rfl
    rw [repeatDigits?, after?_eq_some_iff.2 rfl]
    simp only [Option.bind_eq_bind, Option.bind_some, hdigits.run?_append, (whiles_of_head? hends).1,
      (whiles_of_head? hends).2, List.append_nil, if_true]

/-- Only what ends in a count of repetitions is a run of elements. -/
theorem runOf_eq_self {t : Text} (hsingle : ∀ front digits, IsRun isDigit digits →
    t ≠ front ++ "<repeats ".toList ++ digits ++ " times>".toList) : runOf t = (t, 1) := by
  rw [runOf]
  split
  · rfl
  · next before mark hsplit =>
    split
    · rfl
    · next digits hdigits =>
      obtain ⟨hrun, rfl⟩ := repeatDigits?_eq_some_iff.1 hdigits
      refine absurd ?_ (hsingle before digits hrun)
      rw [(splitLast?_eq_some_iff.1 hsplit).2]
      simp

/-- The first character shows that a text is no assignment, the last one that it is no run of elements
    and not cut short. -/
theorem isElement_of_ends {c d : Char} {s front : Text} (hends : c :: s = front ++ [d])
    (hc : isNameStart c = false) (hrun : d ≠ '>') (hdot : d ≠ '.') : IsElement (c :: s) := by
  have hlast : (c :: s).getLast? = some d := by rw [hends, List.getLast?_concat]
  refine ⟨?_, ?_, ?_⟩
  · exact read?_of_not_isNameStart hc s
  · refine runOf_eq_self fun front digits hdigits heq => ?_
    rw [heq, List.getLast?_append] at hlast
    exact hrun (Option.some.inj hlast).symm
  · rw [before?_eq_none_iff]
    rintro ⟨stem, hstem⟩
    rw [← hstem, List.getLast?_append] at hlast
    exact hdot (Option.some.inj hlast).symm

theorem Enclosed.isElement {printed : List Text} {t : Text} (henclosed : Enclosed printed t) :
    IsElement t := by
  obtain ⟨inner, rfl⟩ := henclosed.exists_eq
  have hends : '{' :: (inner ++ ['}']) = '{' :: inner ++ ['}'] := rfl
  exact isElement_of_ends hends rfl (by decide) (by decide)

theorem Prints.isElement {literal : Literal} {t : Text} (hprints : Prints literal t) :
    IsElement t := by
  cases hprints with
  | scalar hplain hpointer => exact hplain.isElement
  | pointer hplain hpointer => exact hplain.isElement
  | fields hne hitems henclosed => exact henclosed.isElement
  | elements hlimit hitems henclosed => exact henclosed.isElement

theorem PrintsElements.isElement {elements : List Literal} {items : List Text} :
    PrintsElements elements items → ∀ item ∈ items, IsElement item
  | .nil => nofun
  | .cons hvalue helements => List.forall_mem_cons.2 ⟨hvalue.isElement, helements.isElement⟩

theorem dropEllipsis_eq {items : List Text}
    (hwhole : ∀ item ∈ items, before? "...".toList item = none) : dropEllipsis items = items := by
  fun_induction dropEllipsis items with
  | case1 => rfl
  | case2 last printed hprinted =>
    rw [hwhole last List.mem_cons_self] at hprinted
    cases hprinted
  | case3 last hprinted => rfl
  | case4 item others hne ih => rw [ih (List.forall_mem_cons.1 hwhole).2]

theorem expandRuns_cons {room count : Nat} (hcount : count ≤ room) (element : Literal)
    (others : List (Literal × Nat)) : expandRuns room ((element, count) :: others) =
      List.replicate count element ++ expandRuns (room - count) others := by
  rw [expandRuns, Nat.min_eq_left hcount]

theorem expandRuns_once {room : Nat} {elements : List Literal} (hroom : elements.length ≤ room) :
    expandRuns room (elements.map fun element => (element, 1)) = elements := by
  induction elements generalizing room with
  | nil => rfl
  | cons element elements ih =>
    rw [List.length_cons] at hroom
    rw [List.map_cons, expandRuns_cons (by omega), ih (by omega)]
    rfl

theorem Separated.subset {items : List Text} {t : Text} (hseparated : Separated items t) :
    ∀ item ∈ items, item ⊆ t := by
  induction hseparated with
  | single item =>
    intro other hother
    rw [List.mem_singleton.1 hother]
    exact List.Subset.refl item
  | cons item hgap hrest ih =>
    refine List.forall_mem_cons.2 ⟨?_, fun other hother => ?_⟩
    · rw [List.append_assoc, List.append_assoc]
      exact List.subset_append_left _ _
    · exact List.subset_append_of_subset_right _ (ih other hother)

theorem Enclosed.newline_notMem {items : List Text} {t : Text} (henclosed : Enclosed items t)
    (hline : '\n' ∉ t) : ∀ item ∈ items, '\n' ∉ item := by
  cases henclosed with
  | empty hgap => exact nofun
  | filled hfront hback hseparated =>
    intro item hitem hmem
    exact hline (by simp [hseparated.subset item hitem hmem])

theorem PrintsFields.isSome_head? {fields : List (Text × Literal)} {items : List Text}
    (hitems : PrintsFields fields items) (hne : fields ≠ []) (hlines : ∀ item ∈ items, '\n' ∉ item) :
    (items.head?.bind Assignment.read?).isSome := by
  cases hitems with
  | nil => exact absurd rfl hne
  | cons hname hvalue hfields =>
    have hline := (List.forall_mem_cons.1 hlines).1
    rw [List.head?_cons, Option.bind_some,
      hname.read?_eq fun hmem => hline (List.mem_append_right _ hmem)]
    rfl

theorem head?_bind_read?_eq_none {items : List Text}
    (hunnamed : ∀ item ∈ items, Assignment.read? item = none) :
    items.head?.bind Assignment.read? = none := by
  cases items with
  | nil => rfl
  | cons item items => exact hunnamed item List.mem_cons_self

mutual
/-- A value printed on one line is read as what it is. -/
theorem Prints.read_eq {literal : Literal} {t : Text} :
    Prints literal t → '\n' ∉ t → read t = literal
  | .scalar hplain hpointer, _ => by
    rw [Literal.read_eq, hplain.trimmed, hplain.unbraced, hpointer]
  | .pointer hplain hpointer, _ => by
    rw [Literal.read_eq, hplain.trimmed, hplain.unbraced, hpointer]
  | .fields hne hitems henclosed, hline => by
    obtain ⟨inner, hbraced, rfl⟩ := henclosed.items_eq hitems.isClosed hitems.isFirm hline
    have hlines := henclosed.newline_notMem hline
    rw [Literal.read_eq, henclosed.isFirm.trim_eq, hbraced]
    dsimp only
    rw [if_pos (hitems.isSome_head? hne hlines), hitems.read_eq hlines]
  | .elements hlimit hitems henclosed, hline => by
    obtain ⟨inner, hbraced, rfl⟩ := henclosed.items_eq hitems.isClosed hitems.isFirm hline
    rw [Literal.read_eq, henclosed.isFirm.trim_eq, hbraced]
    dsimp only
    have helements := hitems.isElement
    rw [head?_bind_read?_eq_none fun item hitem => (helements item hitem).unnamed, if_neg (by decide),
      dropEllipsis_eq fun item hitem => (helements item hitem).whole,
      hitems.read_eq (henclosed.newline_notMem hline), expandRuns_once hlimit]

theorem PrintsFields.read_eq {fields : List (Text × Literal)} {items : List Text} :
    PrintsFields fields items → (∀ item ∈ items, '\n' ∉ item) →
      (items.filterMap fun item =>
        (Assignment.read? item).map fun (name, value) => (name, read value)) = fields
  | .nil, _ => rfl
  | .cons hname hvalue hfields, hlines => by
    obtain ⟨hline, hothers⟩ := List.forall_mem_cons.1 hlines
    have hvalueLine := fun hmem => hline (List.mem_append_right _ hmem)
    rw [List.filterMap_cons, hname.read?_eq hvalueLine, hfields.read_eq hothers, Option.map_some]
    dsimp only
    rw [hvalue.read_eq hvalueLine]

theorem PrintsElements.read_eq {elements : List Literal} {items : List Text} :
    PrintsElements elements items → (∀ item ∈ items, '\n' ∉ item) →
      (items.map fun item => (read (runOf item).1, (runOf item).2)) =
        elements.map fun element => (element, 1)
  | .nil, _ => rfl
  | .cons hvalue helements, hlines => by
    obtain ⟨hline, hothers⟩ := List.forall_mem_cons.1 hlines
    rw [List.map_cons, hvalue.isElement.single, hvalue.read_eq hline, helements.read_eq hothers,
      List.map_cons]
end

end DebugClient.Literal
