import DebugClient.Memory.Rendering
import DebugClient.Proofs.Reply.Addresses

/-!
Arrays abbreviated. The debugger prints equal elements of an array once, with how often they are
repeated, and puts dots behind the last element where its limit cut the array short. Of what it prints,
at any depth, no field is dropped and no elements are merged.
-/

namespace DebugClient.Literal
open Text CharClass Numeral

/-! ### What is printed -/

/-- An address, behind a cast to a pointer type or without one, and whatever is not joined to it. -/
inductive IsPointerForm : Text → Prop
  | plain {digits rest : Text} (hdigits : IsRun isHex digits)
      (hrest : ∀ c ∈ rest.head?, isWord c = false) :
      IsPointerForm ("0x".toList ++ (digits ++ rest))
  | cast {pointee gap digits rest : Text} (hpointee : ')' ∉ pointee) (hgap : IsGap gap)
      (hdigits : IsRun isHex digits) (hrest : ∀ c ∈ rest.head?, isWord c = false) :
      IsPointerForm ('(' :: (pointee ++ '*' :: ')' :: (gap ++ ("0x".toList ++ (digits ++ rest)))))

/-- The text of a value without parts, in any script: on one line, with its quotation marks and brackets
    closed and without commas outside of them. It has not the form of an aggregate or of a pointer, does
    not begin like an assignment, and does not end like a run of elements or an array cut short. -/
structure IsBare (t : Text) : Prop where
  nonempty : t ≠ []
  trimmed : trim t = t
  line : '\n' ∉ t
  closed : IsClosed t
  unbraced : ∀ inner, t ≠ '{' :: inner ++ ['}']
  unaddressed : ¬ IsPointerForm t
  unnamed : ∀ name, IsName name → ¬ name ++ " =".toList <+: t
  single : ∀ front digits, IsRun isDigit digits →
    t ≠ front ++ "<repeats ".toList ++ digits ++ " times>".toList
  whole : ¬ "...".toList <:+ t

/-- Stands behind an element that is printed once for so many equal ones. -/
def repeatMark (count : Nat) : Text := " <repeats ".toList ++ decimal count ++ " times>".toList

/-- Stands behind the last element of an array that is longer than what is printed of it. -/
def ellipsis : Text := "...".toList

/-- The items of an array as they are shown, with dots behind the last one or without. -/
inductive ShownAs : List Text → List Text → Prop
  | whole (items : List Text) : ShownAs items items
  | cut (items : List Text) (last : Text) : ShownAs (items ++ [last]) (items ++ [last ++ ellipsis])

mutual
/-- The text prints the value on one line, and abbreviates arrays in it or not. -/
inductive Abbreviates : Literal → Text → Prop
  | scalar {t : Text} (hbare : IsBare t) : Abbreviates (.scalar t) t
  | pointer {cast : Text} {address : Nat} (hcast : IsCast cast) (haddress : address ≤ largest64) :
      Abbreviates (.pointer address) (cast ++ Numeral.address address)
  | fields {fields : List (Text × Literal)} {items : List Text} (hne : fields ≠ [])
      (hitems : AbbreviatesFields fields items) :
      Abbreviates (.fields fields) ('{' :: commaSeparated items ++ ['}'])
  | elements {elements : List Literal} {items shown : List Text}
      (hlimit : elements.length ≤ elementLimit) (hitems : AbbreviatesElements elements items)
      (hshown : ShownAs items shown) :
      Abbreviates (.elements elements) ('{' :: commaSeparated shown ++ ['}'])

/-- The items of a struct. -/
inductive AbbreviatesFields : List (Text × Literal) → List Text → Prop
  | nil : AbbreviatesFields [] []
  | cons {name value : Text} {literal : Literal} {fields : List (Text × Literal)} {items : List Text}
      (hname : IsName name) (hvalue : Abbreviates literal value)
      (hfields : AbbreviatesFields fields items) :
      AbbreviatesFields ((name, literal) :: fields) ((name ++ " = ".toList ++ value) :: items)

/-- The items of an array. -/
inductive AbbreviatesElements : List Literal → List Text → Prop
  | nil : AbbreviatesElements [] []
  | once {value : Text} {literal : Literal} {elements : List Literal} {items : List Text}
      (hvalue : Abbreviates literal value) (helements : AbbreviatesElements elements items) :
      AbbreviatesElements (literal :: elements) (value :: items)
  | run {value : Text} {literal : Literal} {count : Nat} {elements : List Literal} {items : List Text}
      (hcount : 1 ≤ count) (hvalue : Abbreviates literal value)
      (helements : AbbreviatesElements elements items) :
      AbbreviatesElements (List.replicate count literal ++ elements)
        ((value ++ repeatMark count) :: items)
end

/-! ### Values without parts -/

section
variable {t : Text}

theorem eq_of_dropPointerCast {rest : Text} (hdrop : dropPointerCast t = rest) : t = rest ∨
    ∃ pointee gap, ')' ∉ pointee ∧ IsGap gap ∧ t = '(' :: (pointee ++ '*' :: ')' :: (gap ++ rest)) := by
  unfold dropPointerCast at hdrop
  split at hdrop
  · next behind =>
    split at hdrop
    · next c back hback =>
      split at hdrop
      · next hstar =>
        obtain ⟨hinside, heq⟩ := eq_append_cons_of_dropWhile hback
        obtain ⟨pointee, hpointee⟩ := List.getLast?_eq_some_iff.1 hstar
        have hgap : back = back.takeWhile isBlank ++ rest := by
          rw [← hdrop]
          exact List.takeWhile_append_dropWhile.symm
        rw [hpointee] at hinside heq
        refine .inr ⟨pointee, back.takeWhile isBlank, fun hmem => hinside (by simp [hmem]),
          fun c hc => List.mem_takeWhile_imp hc, ?_⟩
        rw [← hgap, heq]
        simp
      · exact .inl hdrop
    · exact .inl hdrop
  · exact .inl hdrop

theorem isPointerForm_of_pointer? {address : Nat} (hsome : pointer? t = some address) :
    IsPointerForm t := by
  rw [pointer?] at hsome
  obtain ⟨behind, hafter, hsome⟩ := Option.bind_eq_some_iff.1 hsome
  obtain ⟨⟨digits, rest⟩, hrun, hsome⟩ := Option.bind_eq_some_iff.1 hsome
  obtain ⟨hjoined, -⟩ := Option.ite_none_left_eq_some.1 hsome
  obtain ⟨hdigits, rfl, -⟩ := eq_append_of_run? hrun
  have hrest : ∀ c ∈ rest.head?, isWord c = false := by
    intro c hc
    rw [Option.mem_def.1 hc] at hjoined
    simpa using hjoined
  rcases eq_of_dropPointerCast (after?_eq_some_iff.1 hafter) with
    rfl | ⟨pointee, gap, hpointee, hgap, rfl⟩
  · exact .plain hdigits hrest
  · exact .cast hpointee hgap hdigits hrest

theorem IsPointerForm.begins (hform : IsPointerForm t) : "0x".toList <+: t ∨ t.head? = some '(' := by
  cases hform with
  | plain => exact .inl (List.prefix_append _ _)
  | cast => exact .inr rfl

/-- Put behind a value, the text does not make it a field: it neither goes on with a word nor begins with
    an equals sign. -/
def KeepsApart (suffix : Text) : Prop :=
  (∀ c ∈ suffix.head?, isWord c = false) ∧ ¬ " =".toList <+: suffix

theorem keepsApart_nil : KeepsApart [] := ⟨nofun, by decide⟩

theorem IsBare.read?_append (hbare : IsBare t) {suffix : Text} (hsuffix : KeepsApart suffix) :
    Assignment.read? (t ++ suffix) = none := by
  obtain ⟨hfirst, hequals⟩ := hsuffix
  rw [Option.eq_none_iff_forall_ne_some]
  rintro ⟨name, value⟩ hread
  obtain ⟨hname, heq⟩ := exists_of_read? hread
  rw [List.append_assoc] at heq
  rcases List.append_eq_append_iff.1 heq with ⟨more, rfl, rfl⟩ | ⟨more, rfl, hbehind⟩
  · -- The name would go on behind the value, where no character of a word stands.
    cases more with
    | nil => exact hequals ⟨' ' :: value, rfl⟩
    | cons c more =>
      have hword : isWord c := hname.isWord_of_mem c (by simp)
      rw [hfirst c rfl] at hword
      cases hword
  · -- The equals sign would stand in the value, behind it, or with only its blank in the value.
    match more, hbehind with
    | [], hbehind => exact hequals ⟨' ' :: value, hbehind⟩
    | [c], hbehind =>
      obtain ⟨rfl, -⟩ := List.cons.inj hbehind
      have hends := getLast?_not_blank_of_trimEnd_eq
        (isFirm_of_trim_eq hbare.nonempty hbare.trimmed).ends.trimEnd_eq ' ' (List.getLast?_concat ..)
      cases hends
    | c :: d :: more, hbehind =>
      obtain ⟨rfl, hrest⟩ := List.cons.inj hbehind
      obtain ⟨rfl, -⟩ := List.cons.inj hrest
      exact hbare.unnamed name hname ⟨more, List.append_assoc ..⟩

theorem IsBare.isPlain (hbare : IsBare t) : IsPlain t := by
  refine ⟨hbare.nonempty, hbare.trimmed, hbare.line, hbare.closed, ?_, ?_, runOf_eq_self hbare.single,
    before?_eq_none_iff.2 hbare.whole⟩
  · rw [braced?, Option.bind_eq_none_iff]
    intro rest hrest
    rw [before?_eq_none_iff]
    rintro ⟨inner, rfl⟩
    have heq := after?_eq_some_iff.1 hrest
    exact hbare.unbraced inner heq
  · have hread := hbare.read?_append keepsApart_nil
    rwa [List.append_nil] at hread

theorem IsBare.prints (hbare : IsBare t) : Prints (.scalar t) t :=
  .scalar hbare.isPlain <| Option.eq_none_iff_forall_ne_some.2 fun _ hsome =>
    hbare.unaddressed (isPointerForm_of_pointer? hsome)

end

/-! ### Items -/

/-- An item of an aggregate on one line: it is closed, and white space around it is not part of it. -/
structure IsItem (item : Text) : Prop where
  firm : IsFirm item
  closed : IsClosed item
  line : '\n' ∉ item

section
variable {item value name suffix : Text} {items shown : List Text}

theorem IsItem.append (hitem : IsItem item) (hclosed : IsClosed suffix) (hends : EndsFirm suffix)
    (hline : '\n' ∉ suffix) : IsItem (item ++ suffix) := by
  refine ⟨⟨hitem.firm.begins.append _, hends.append _⟩, hitem.closed.append hclosed, ?_⟩
  rw [List.mem_append, not_or]
  exact ⟨hitem.line, hline⟩

theorem IsItem.named (hvalue : IsItem value) (hname : IsName name) :
    IsItem (name ++ " = ".toList ++ value) := by
  have hequals : IsClosed " = ".toList := by decide
  refine ⟨⟨(hname.beginsFirm.append _).append _, hvalue.firm.ends.append _⟩,
    (hname.isClosed.append hequals).append hvalue.closed, ?_⟩
  simp [hname.newline_notMem, hvalue.line]

theorem IsItem.repeated (hitem : IsItem item) (count : Nat) : IsItem (item ++ repeatMark count) := by
  have hcount : IsClosed (decimal count) := .of_forall fun c hc => .of_isWord (isWord_of_mem_decimal hc)
  have hlead : IsClosed " <repeats ".toList := by decide
  have htail : IsClosed " times>".toList := by decide
  have hdigits : '\n' ∉ decimal count := notMem_decimal (by decide)
  have hends : EndsFirm " times>".toList := ⟨" times".toList, '>', rfl, rfl⟩
  unfold repeatMark
  exact hitem.append ((hlead.append hcount).append htail) (hends.append _) (by simp [hdigits])

theorem IsItem.elided (hitem : IsItem item) : IsItem (item ++ ellipsis) :=
  hitem.append (by decide) ⟨"..".toList, '.', rfl, rfl⟩ (by decide)

theorem ShownAs.isItem (hshown : ShownAs items shown) (hitems : ∀ item ∈ items, IsItem item) :
    ∀ item ∈ shown, IsItem item := by
  cases hshown with
  | whole => exact hitems
  | cut items last =>
    obtain ⟨hitems, hlast⟩ := List.forall_mem_append.1 hitems
    exact List.forall_mem_append.2
      ⟨hitems, List.forall_mem_singleton.2 (hlast last List.mem_cons_self).elided⟩

theorem separated_commaSeparated (hne : items ≠ []) : Separated items (commaSeparated items) := by
  induction items with
  | nil => exact absurd rfl hne
  | cons item items ih =>
    cases items with
    | nil =>
      rw [commaSeparated, List.intercalate_singleton]
      exact .single item
    | cons next items =>
      have hcons : commaSeparated (item :: next :: items) =
          item ++ [','] ++ [' '] ++ commaSeparated (next :: items) := by
        rw [commaSeparated, List.intercalate_cons_cons, ← commaSeparated]
        simp
      rw [hcons]
      exact .cons item (by decide) (ih (List.cons_ne_nil next items))

theorem enclosed_commaSeparated (items : List Text) :
    Enclosed items ('{' :: commaSeparated items ++ ['}']) := by
  cases items with
  | nil => exact .empty (List.forall_mem_nil _)
  | cons item items =>
    have henclosed : Enclosed (item :: items)
        (['{'] ++ [] ++ commaSeparated (item :: items) ++ [] ++ ['}']) :=
      .filled (List.forall_mem_nil _) (List.forall_mem_nil _)
        (separated_commaSeparated (List.cons_ne_nil item items))
    simpa using henclosed

theorem isItem_braces (hitems : ∀ item ∈ items, IsItem item) :
    IsItem ('{' :: commaSeparated items ++ ['}']) := by
  have henclosed := enclosed_commaSeparated items
  refine ⟨henclosed.isFirm, henclosed.isClosed fun item hitem => (hitems item hitem).closed, ?_⟩
  have hline : '\n' ∉ commaSeparated items :=
    notMem_intercalate (by decide) fun item hitem => (hitems item hitem).line
  simp [hline]

end

mutual
theorem Abbreviates.isItem {literal : Literal} {t : Text} : Abbreviates literal t → IsItem t
  | .scalar hbare =>
    ⟨isFirm_of_trim_eq hbare.nonempty hbare.trimmed, hbare.closed, hbare.line⟩
  | @Abbreviates.pointer _ address hcast _ =>
    have hplain := isPlain_address hcast address
    ⟨isFirm_of_trim_eq hplain.nonempty hplain.trimmed, hplain.closed, hplain.line⟩
  | .fields _ hitems => isItem_braces hitems.isItem
  | .elements _ hitems hshown => isItem_braces (hshown.isItem hitems.isItem)

theorem AbbreviatesFields.isItem {fields : List (Text × Literal)} {items : List Text} :
    AbbreviatesFields fields items → ∀ item ∈ items, IsItem item
  | .nil => nofun
  | .cons hname hvalue hfields => List.forall_mem_cons.2 ⟨hvalue.isItem.named hname, hfields.isItem⟩

theorem AbbreviatesElements.isItem {elements : List Literal} {items : List Text} :
    AbbreviatesElements elements items → ∀ item ∈ items, IsItem item
  | .nil => nofun
  | .once hvalue helements => List.forall_mem_cons.2 ⟨hvalue.isItem, helements.isItem⟩
  | .run _ hvalue helements => List.forall_mem_cons.2 ⟨hvalue.isItem.repeated _, helements.isItem⟩
end

/-! ### Elements -/

section
variable {literal : Literal} {t suffix : Text} {items shown : List Text} {elements : List Literal}

theorem AbbreviatesFields.isSome_head? {fields : List (Text × Literal)}
    (hitems : AbbreviatesFields fields items) (hne : fields ≠ []) :
    (items.head?.bind Assignment.read?).isSome := by
  cases hitems with
  | nil => exact absurd rfl hne
  | cons hname hvalue hfields =>
    rw [List.head?_cons, Option.bind_some, hname.read?_eq hvalue.isItem.line]
    rfl

theorem keepsApart_repeatMark (count : Nat) (rest : Text) : KeepsApart (repeatMark count ++ rest) := by
  refine ⟨?_, fun hequals => ?_⟩
  · rintro c ⟨⟩
    rfl
  · exact absurd (List.cons_prefix_cons.1 (List.cons_prefix_cons.1 hequals).2).1 (by decide)

theorem keepsApart_ellipsis : KeepsApart ellipsis := by
  refine ⟨?_, by decide⟩
  rintro c ⟨⟩
  rfl

theorem Abbreviates.isElement (habbreviates : Abbreviates literal t) : IsElement t := by
  cases habbreviates with
  | scalar hbare => exact hbare.isPlain.isElement
  | pointer hcast => exact (isPlain_address hcast _).isElement
  | fields => exact (enclosed_commaSeparated _).isElement
  | elements => exact (enclosed_commaSeparated _).isElement

theorem Abbreviates.read?_append (habbreviates : Abbreviates literal t) (hsuffix : KeepsApart suffix) :
    Assignment.read? (t ++ suffix) = none := by
  cases habbreviates with
  | scalar hbare => exact hbare.read?_append hsuffix
  | @pointer cast address hcast haddress =>
    obtain ⟨c, s, heq, hc⟩ := hcast.exists_cons address
    rw [heq]
    exact read?_of_not_isNameStart (by rcases hc with rfl | rfl <;> rfl) _
  | fields => exact read?_of_not_isNameStart rfl _
  | elements => exact read?_of_not_isNameStart rfl _

/-- An item of an array is no field, with dots behind it or without, and has no dots of its own. -/
structure IsEntry (item : Text) : Prop where
  whole : before? "...".toList item = none
  unnamed : Assignment.read? item = none
  unnamed_elided : Assignment.read? (item ++ ellipsis) = none

theorem AbbreviatesElements.isEntry {elements : List Literal} {items : List Text} :
    AbbreviatesElements elements items → ∀ item ∈ items, IsEntry item
  | .nil => nofun
  | .once hvalue helements =>
    List.forall_mem_cons.2 ⟨⟨hvalue.isElement.whole, hvalue.isElement.unnamed,
      hvalue.read?_append keepsApart_ellipsis⟩, helements.isEntry⟩
  | @AbbreviatesElements.run value _ count _ _ _ hvalue helements => by
    refine List.forall_mem_cons.2 ⟨⟨?_, ?_, ?_⟩, helements.isEntry⟩
    · rw [before?_eq_none_iff]
      rintro ⟨front, heq⟩
      have hmark : repeatMark count =
          " <repeats ".toList ++ decimal count ++ " times".toList ++ ['>'] := by
        unfold repeatMark
        simp
      have hlast := congrArg List.getLast? heq
      rw [hmark, ← List.append_assoc, List.getLast?_concat, List.getLast?_append] at hlast
      cases hlast
    · have hread := hvalue.read?_append (keepsApart_repeatMark count [])
      rwa [List.append_nil] at hread
    · rw [List.append_assoc]
      exact hvalue.read?_append (keepsApart_repeatMark count ellipsis)

theorem ShownAs.unnamed (hshown : ShownAs items shown) (hitems : ∀ item ∈ items, IsEntry item) :
    ∀ item ∈ shown, Assignment.read? item = none := by
  cases hshown with
  | whole => exact fun item hitem => (hitems item hitem).unnamed
  | cut items last =>
    obtain ⟨hitems, hlast⟩ := List.forall_mem_append.1 hitems
    exact List.forall_mem_append.2 ⟨fun item hitem => (hitems item hitem).unnamed,
      List.forall_mem_singleton.2 (hlast last List.mem_cons_self).unnamed_elided⟩

theorem dropEllipsis_concat {last : Text} (hends : EndsFirm last) (items : List Text) :
    dropEllipsis (items ++ [last ++ ellipsis]) = items ++ [last] := by
  induction items with
  | nil =>
    have hdots : before? "...".toList (last ++ ellipsis) = some last := before?_eq_some_iff.2 rfl
    rw [List.nil_append, dropEllipsis, hdots]
    dsimp only
    rw [hends.trimEnd_eq, List.nil_append]
  | cons item items ih =>
    rw [List.cons_append, dropEllipsis, ih, List.cons_append]
    simp

theorem ShownAs.dropEllipsis_eq (hshown : ShownAs items shown) (hitems : ∀ item ∈ items, IsItem item)
    (hentries : ∀ item ∈ items, IsEntry item) : dropEllipsis shown = items := by
  cases hshown with
  | whole => exact Literal.dropEllipsis_eq fun item hitem => (hentries item hitem).whole
  | cut items last =>
    exact dropEllipsis_concat (hitems last (List.mem_append_right _ List.mem_cons_self)).firm.ends items

theorem runOf_repeatMark {value : Text} (hvalue : IsItem value) {count : Nat}
    (hcount : count ≤ largest64) : runOf (value ++ repeatMark count) = (value, count) := by
  have hmark : value ++ repeatMark count =
      (value ++ [' ']) ++ '<' :: ("repeats ".toList ++ (decimal count ++ " times>".toList)) := by
    unfold repeatMark
    simp
  have hbehind : '<' ∉ "repeats ".toList ++ (decimal count ++ " times>".toList) := by
    have hdigits : '<' ∉ decimal count := notMem_decimal (by decide)
    simp [hdigits]
  have helement : trimEnd (value ++ [' ']) = value := by
    rw [trimEnd_append_of_blank (show IsGap [' '] by decide), hvalue.firm.ends.trimEnd_eq]
  rw [runOf, hmark, splitLast?_eq_some_iff.2 ⟨hbehind, rfl⟩]
  dsimp only
  rw [repeatDigits?_eq_some_iff.2 ⟨isRun_decimal count, rfl⟩]
  dsimp only
  rw [helement, if_neg hvalue.line, decimal?_decimal hcount, Option.getD_some]

end

/-! ### Reading -/

/-- The items between the braces are found again. -/
theorem exists_braced? {printed : List Text} (hitems : ∀ item ∈ printed, IsItem item) :
    trim ('{' :: commaSeparated printed ++ ['}']) = '{' :: commaSeparated printed ++ ['}'] ∧
      ∃ inner, braced? ('{' :: commaSeparated printed ++ ['}']) = some inner ∧ items inner = printed :=
  ⟨(isItem_braces hitems).firm.trim_eq,
    (enclosed_commaSeparated printed).items_eq (fun item hitem => (hitems item hitem).closed)
      (fun item hitem => (hitems item hitem).firm) (isItem_braces hitems).line⟩

mutual
theorem Abbreviates.read_eq {literal : Literal} {t : Text} : Abbreviates literal t → read t = literal
  | .scalar hbare => hbare.prints.read_eq hbare.line
  | .pointer hcast haddress =>
    (prints_address hcast haddress).read_eq (isPlain_address hcast _).line
  | .fields hne hitems => by
    obtain ⟨htrim, inner, hbraced, hinner⟩ := exists_braced? hitems.isItem
    rw [Literal.read_eq, htrim, hbraced]
    dsimp only
    rw [hinner, if_pos (hitems.isSome_head? hne), hitems.read_eq]
  | .elements hlimit hitems hshown => by
    obtain ⟨htrim, inner, hbraced, hinner⟩ := exists_braced? (hshown.isItem hitems.isItem)
    rw [Literal.read_eq, htrim, hbraced]
    dsimp only
    rw [hinner, head?_bind_read?_eq_none (hshown.unnamed hitems.isEntry), if_neg (by decide),
      hshown.dropEllipsis_eq hitems.isItem hitems.isEntry, hitems.expandRuns_eq hlimit (by decide)]

theorem AbbreviatesFields.read_eq {fields : List (Text × Literal)} {items : List Text} :
    AbbreviatesFields fields items →
      (items.filterMap fun item =>
        (Assignment.read? item).map fun (name, value) => (name, read value)) = fields
  | .nil => rfl
  | .cons hname hvalue hfields => by
    rw [List.filterMap_cons, hname.read?_eq hvalue.isItem.line, hfields.read_eq, Option.map_some]
    dsimp only
    rw [hvalue.read_eq]

theorem AbbreviatesElements.expandRuns_eq {elements : List Literal} {items : List Text} {room : Nat} :
    AbbreviatesElements elements items → elements.length ≤ room → room ≤ largest64 →
      expandRuns room (items.map fun item => (read (runOf item).1, (runOf item).2)) = elements
  | .nil, _, _ => rfl
  | .once hvalue helements, hroom, hlimit => by
    rw [List.length_cons] at hroom
    rw [List.map_cons, hvalue.isElement.single, hvalue.read_eq, expandRuns_cons (by omega),
      helements.expandRuns_eq (by omega) (by omega)]
    rfl
  | .run _ hvalue helements, hroom, hlimit => by
    rw [List.length_append, List.length_replicate] at hroom
    rw [List.map_cons, runOf_repeatMark hvalue.isItem (by omega), hvalue.read_eq,
      expandRuns_cons (by omega), helements.expandRuns_eq (by omega) (by omega)]
end

/-- What the debugger prints of a value, abbreviated or not, is read as the whole value. -/
theorem read_of_abbreviates {literal : Literal} {t : Text} (habbreviates : Abbreviates literal t) :
    read t = literal := habbreviates.read_eq

/-- Numbers, characters and strings: what begins with a digit or a quotation mark, and ends like it. -/
theorem isBare_of_ends {c d : Char} {s front : Text} (hends : c :: s = front ++ [d])
    (htrim : trim (c :: s) = c :: s) (hline : '\n' ∉ c :: s) (hclosed : IsClosed (c :: s))
    (hopen : c ∉ ['{', '(']) (hhex : ¬ "0x".toList <+: c :: s) (hc : isNameStart c = false)
    (hd : d ∉ ['>', '.']) : IsBare (c :: s) := by
  have hlast : (c :: s).getLast? = some d := by rw [hends, List.getLast?_concat]
  refine ⟨List.cons_ne_nil c s, htrim, hline, hclosed, ?_, ?_, ?_, ?_, ?_⟩
  · rintro inner heq
    exact hopen (by simp [(List.cons.inj heq).1])
  · intro hform
    rcases hform.begins with hplain | hcast
    · exact hhex hplain
    · exact hopen (by simp [Option.some.inj hcast])
  · rintro name ⟨b, t, rfl, hb, -⟩ hname
    rw [(List.cons_prefix_cons.1 hname).1, hc] at hb
    cases hb
  · rintro front digits - heq
    rw [heq, List.getLast?_append] at hlast
    obtain rfl : d = '>' := (Option.some.inj hlast).symm
    exact hd (by decide)
  · rintro ⟨front, heq⟩
    rw [← heq, List.getLast?_append] at hlast
    obtain rfl : d = '.' := (Option.some.inj hlast).symm
    exact hd (by decide)

/-- A struct with a string that has a comma in it, rows that are abbreviated in either way, and a
    pointer. -/
theorem read_of_abbreviates_nested :
    read ("\x7bname = \"a, b\", grid = \x7b\x7b0 <repeats 3 times>\x7d, \x7b1, 2...\x7d\x7d, ".toList ++
        "next = (node *) 0x10\x7d".toList) =
      .fields [("name".toList, .scalar "\"a, b\"".toList),
        ("grid".toList, .elements [
          .elements [.scalar "0".toList, .scalar "0".toList, .scalar "0".toList],
          .elements [.scalar "1".toList, .scalar "2".toList]]),
        ("next".toList, .pointer 0x10)] := by
  have hdigit : ∀ d ∈ ['0', '1', '2'], Abbreviates (.scalar [d]) [d] := by
    simp only [List.forall_mem_cons]
    refine ⟨?_, ?_, ?_, nofun⟩ <;>
      exact .scalar (@isBare_of_ends _ _ [] [] rfl (by decide) (by decide) (by decide) (by decide)
        (by decide) (by decide) (by decide))
  have hstring : Abbreviates (.scalar "\"a, b\"".toList) "\"a, b\"".toList :=
    .scalar (@isBare_of_ends '"' '"' "a, b\"".toList "\"a, b".toList rfl (by decide) (by decide)
      (by decide) (by decide) (by decide) (by decide) (by decide))
  have hrepeated : Abbreviates (.elements [.scalar ['0'], .scalar ['0'], .scalar ['0']])
      ('{' :: commaSeparated [['0'] ++ repeatMark 3] ++ ['}']) :=
    .elements (by decide) (@AbbreviatesElements.run _ _ 3 [] _ (by decide) (hdigit '0' (by decide)) .nil)
      (.whole _)
  have hcut : Abbreviates (.elements [.scalar ['1'], .scalar ['2']])
      ('{' :: commaSeparated [['1'], ['2'] ++ ellipsis] ++ ['}']) :=
    .elements (by decide) (.once (hdigit '1' (by decide)) (.once (hdigit '2' (by decide)) .nil))
      (.cut [['1']] ['2'])
  have hgrid := Abbreviates.elements (by decide) (.once hrepeated (.once hcut .nil)) (.whole _)
  have hpointee : "node ".toList.all fun c => !IsClosed.marks.contains c := rfl
  have hcast : IsCast "(node *) ".toList := .pointer fun c hc hmem => by
    simpa [hmem] using List.all_eq_true.1 hpointee c hc
  have hnext : Abbreviates (.pointer 0x10) "(node *) 0x10".toList := .pointer hcast (by decide)
  have hname (c : Char) (t : Text) (hc : isNameStart c) (ht : t.all isWord) : IsName (c :: t) :=
    ⟨c, t, rfl, hc, List.all_eq_true.1 ht⟩
  exact read_of_abbreviates (.fields (List.cons_ne_nil _ _)
    (.cons (hname 'n' "ame".toList rfl rfl) hstring
      (.cons (hname 'g' "rid".toList rfl rfl) hgrid
        (.cons (hname 'n' "ext".toList rfl rfl) hnext .nil))))

end DebugClient.Literal
