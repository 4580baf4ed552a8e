import DebugClient.Reply.Locals
import DebugClient.Proofs.Reply.Addresses

/-!
Lists of variables with their values laid out in any way. Each variable is found under its name and
with its value, wherever the lines are broken: no line of a value is taken for a variable, and the
value ends where its braces are closed.
-/

namespace DebugClient.Quoting
open Text

theorem exists_braceBalance_append (quoting : Quoting) (s : Text) : ∃ behind : Quoting, ∀ t,
    quoting.braceBalance (s ++ t) = quoting.braceBalance s + behind.braceBalance t := by
  induction s generalizing quoting with
  | nil => exact ⟨quoting, fun t => (Int.zero_add _).symm⟩
  | cons c s ih =>
    obtain ⟨behind, hbehind⟩ := ih (quoting.next c)
    refine ⟨behind, fun t => ?_⟩
    rw [List.cons_append, braceBalance, hbehind, braceBalance, Int.add_assoc]

theorem braceBalance_of_gap {gap : Text} (hgap : IsGap gap) (quoting : Quoting) :
    quoting.braceBalance gap = 0 := by
  induction gap generalizing quoting with
  | nil => rfl
  | cons c gap ih =>
    obtain ⟨hc, hrest⟩ := List.forall_mem_cons.1 hgap
    have hstep : quoting.braceStep c = 0 := by
      unfold braceStep
      split
      · cases hc
      · cases hc
      · rfl
    rw [braceBalance, hstep, ih hrest, Int.zero_add]

theorem braceBalance_append_gap {gap : Text} (hgap : IsGap gap) (quoting : Quoting) (t : Text) :
    quoting.braceBalance (t ++ gap) = quoting.braceBalance t := by
  obtain ⟨behind, hbehind⟩ := exists_braceBalance_append quoting t
  rw [hbehind, braceBalance_of_gap hgap, Int.add_zero]

theorem braceBalance_gap_append {gap : Text} (hgap : IsGap gap) (t : Text) :
    outside.braceBalance (gap ++ t) = outside.braceBalance t := by
  induction gap with
  | nil => rfl
  | cons c gap ih =>
    obtain ⟨hc, hrest⟩ := List.forall_mem_cons.1 hgap
    have hnext : outside.next c = outside := by
      rw [next, if_neg]
      rw [Bool.or_eq_true, decide_eq_true_iff, decide_eq_true_iff]
      rintro (rfl | rfl) <;> cases hc
    have hfirst : outside.braceBalance [c] = 0 :=
      braceBalance_of_gap (List.forall_mem_singleton.2 hc) outside
    rw [braceBalance, braceBalance, Int.add_zero] at hfirst
    rw [List.cons_append, braceBalance, hfirst, hnext, ih hrest, Int.zero_add]

theorem braceBalance_trim (t : Text) : outside.braceBalance (trim t) = outside.braceBalance t := by
  obtain ⟨front, back, hfront, hback, heq⟩ := exists_eq_trim t
  conv_rhs => rw [heq, braceBalance_append_gap hback, braceBalance_gap_append hfront]

theorem braceBalance_chomp (t : Text) :
    outside.braceBalance (chomp '\r' t) = outside.braceBalance t := by
  obtain ⟨gap, hgap, heq⟩ := exists_eq_chomp t
  conv_rhs => rw [heq, braceBalance_append_gap hgap]

end DebugClient.Quoting

namespace DebugClient.Locals
open Text Literal

/-- The reply lists the variables, each with its value. -/
inductive Lists : List (Text × Literal) → Text → Prop where
  | last {name value ending : Text} {literal : Literal} (hname : IsName name)
      (hvalue : Prints literal value) (hending : ending = [] ∨ ending = ['\n']) :
      Lists [(name, literal)] (name ++ " = ".toList ++ value ++ ending)
  | cons {name value reply : Text} {literal : Literal} {listed : List (Text × Literal)}
      (hname : IsName name) (hvalue : Prints literal value) (hothers : Lists listed reply) :
      Lists ((name, literal) :: listed) (name ++ " = ".toList ++ value ++ ['\n'] ++ reply)

namespace Progress

theorem addLine_of_open {observed : Local} {earlier : List Local} {openBraces : Int}
    (hopen : 0 < openBraces) (line : Text) :
    addLine ⟨observed :: earlier, openBraces⟩ line =
      ⟨{ observed with value := observed.value ++ ' ' :: trim line } :: earlier,
        openBraces + Quoting.outside.braceBalance line⟩ := if_pos hopen

theorem addLine_of_closed {progress : Progress} (hclosed : progress.openBraces ≤ 0) (line : Text) :
    progress.addLine line = progress.begin line := by
  rw [addLine]
  split
  · exact if_neg (Int.not_lt.2 hclosed)
  · rfl

/-- The lines that continue a value, up to the one that closes its last brace. -/
theorem foldl_addLine_of_open (observed : Local) (earlier : List Local) {awaited : List Char} (t : Text)
    (hopen : '}' ∈ awaited) (hrun : Nesting.run? ⟨.outside, awaited⟩ t = some {}) :
    ((pieces (· == '\n') t).map (chomp '\r')).foldl addLine
        ⟨observed :: earlier, awaited.count '}'⟩ =
      ⟨{ observed with value := observed.value ++ ' ' :: joined t } :: earlier, 0⟩ := by
  -- A line break stands between braces, so behind each line but the last a brace is awaited.
  induction hlength : t.length using Nat.strongRecOn generalizing t observed awaited with
  | _ n ih =>
    have hpositive : 0 < (awaited.count '}' : Int) := Int.natCast_pos.2 (List.count_pos_iff.2 hopen)
    rcases line_cases t with hline | ⟨line, rest, rfl, hline⟩
    · have hbalance := Nesting.braceBalance_eq hrun
      rw [pieces_of_notMem hline, List.map_singleton, List.foldl_cons, List.foldl_nil,
        addLine_of_open hpositive, trim_chomp, Quoting.braceBalance_chomp, hbalance,
        joined_of_notMem hline]
      rfl
    · rw [Nesting.run?_append] at hrun
      obtain ⟨between, hbetween, hrest⟩ := Option.bind_eq_some_iff.1 hrun
      obtain ⟨hquoting, hawaited, hrest⟩ := Nesting.newline_cases hrest
      have hbalance := Nesting.braceBalance_eq hbetween
      obtain ⟨quoting, awaited'⟩ := between
      obtain rfl : quoting = .outside := hquoting
      have hlater := ih rest.length (by simp [← hlength]; omega)
        { observed with value := observed.value ++ ' ' :: trim line } rest hawaited hrest rfl
      rw [pieces_append_cons (by rfl), pieces_of_notMem hline, List.singleton_append, List.map_cons,
        List.foldl_cons, addLine_of_open hpositive, trim_chomp, Quoting.braceBalance_chomp, hbalance,
        hlater, joined_append_cons, joined_of_notMem hline]
      simp

/-- The line that a variable begins on. -/
theorem begin_entry (progress : Progress) {name line : Text} (hname : IsName name)
    (hfirm : BeginsFirm line) (hline : '\n' ∉ line) :
    progress.begin (chomp '\r' (name ++ " = ".toList ++ line)) =
      ⟨⟨name, trim line⟩ :: progress.locals, Quoting.outside.braceBalance line⟩ := by
  have htrim : trimEnd line = trim line := by rw [trim, hfirm.trimStart_eq]
  rw [begin, trimEnd_chomp, trimEnd_append hfirm.exists_mem, htrim,
    hname.read?_eq (newline_notMem_trim hline)]
  dsimp only
  rw [trim_trim, Quoting.braceBalance_trim]

/-- A whole entry, on one line or on several. -/
theorem foldl_addLine_entry {progress : Progress} (hclosed : progress.openBraces ≤ 0)
    {name value : Text} {literal : Literal} (hname : IsName name) (hvalue : Prints literal value) :
    ((pieces (· == '\n') (name ++ " = ".toList ++ value)).map (chomp '\r')).foldl addLine progress =
      ⟨⟨name, joined value⟩ :: progress.locals, 0⟩ := by
  have hlead : '\n' ∉ name ++ " = ".toList := by simp [hname.newline_notMem]
  have hfirm := hvalue.isFirm
  have hrun : Nesting.run? {} value = some {} := hvalue.isClosed
  rcases line_cases value with hline | ⟨line, rest, rfl, hline⟩
  · have hnone : '\n' ∉ name ++ " = ".toList ++ value := by simpa [hline] using hlead
    have hbalance := Nesting.braceBalance_eq hrun
    rw [pieces_of_notMem hnone, List.map_singleton, List.foldl_cons, List.foldl_nil,
      addLine_of_closed hclosed, begin_entry progress hname hfirm.begins hline,
      joined_of_notMem hline]
    simpa using hbalance
  · have hnone : '\n' ∉ name ++ " = ".toList ++ line := by simpa [hline] using hlead
    rw [Nesting.run?_append] at hrun
    obtain ⟨between, hbetween, hrest⟩ := Option.bind_eq_some_iff.1 hrun
    obtain ⟨hquoting, hawaited, hrest⟩ := Nesting.newline_cases hrest
    have hbalance := Nesting.braceBalance_eq hbetween
    obtain ⟨quoting, awaited⟩ := between
    obtain rfl : quoting = .outside := hquoting
    have hcount : Quoting.outside.braceBalance line = awaited.count '}' := by simpa using hbalance
    rw [← List.append_assoc, pieces_append_cons (by rfl), pieces_of_notMem hnone,
      List.singleton_append, List.map_cons, List.foldl_cons, addLine_of_closed hclosed,
      begin_entry progress hname hfirm.begins.of_append_cons hline, hcount,
      foldl_addLine_of_open _ _ rest hawaited hrest, joined_append_cons, joined_of_notMem hline]

end Progress

/-- What is read line by line from a list of variables. -/
theorem Lists.foldl_addLine {listed : List (Text × Literal)} {reply : Text}
    (hlists : Lists listed reply) {progress : Progress} (hclosed : progress.openBraces ≤ 0) :
    ∃ locals : List Local,
      (lines reply).foldl Progress.addLine progress = ⟨locals.reverse ++ progress.locals, 0⟩ ∧
      locals.map (fun observed => (observed.name, Literal.read observed.value)) = listed := by
  induction hlists generalizing progress with
  | @last name value ending literal hname hvalue hending =>
    have hlines : lines (name ++ " = ".toList ++ value ++ ending) =
        (pieces (· == '\n') (name ++ " = ".toList ++ value)).map (chomp '\r') := by
      rcases hending with rfl | rfl
      · rw [List.append_nil, (hvalue.isFirm.ends.append _).lines_eq]
      · rw [lines_append_cons]
        exact List.append_nil _
    refine ⟨[⟨name, joined value⟩], ?_, ?_⟩
    · rw [hlines, Progress.foldl_addLine_entry hclosed hname hvalue]
      rfl
    · rw [List.map_singleton, hvalue.joined.read_eq (newline_notMem_joined value)]
  | @cons name value reply literal listed hname hvalue hothers ih =>
    let begun : Progress := ⟨⟨name, joined value⟩ :: progress.locals, 0⟩
    obtain ⟨locals, hfold, hread⟩ := ih (show begun.openBraces ≤ 0 from Int.le_refl 0)
    refine ⟨⟨name, joined value⟩ :: locals, ?_, ?_⟩
    · rw [List.append_assoc _ ['\n'], List.singleton_append, lines_append_cons, List.foldl_append,
        Progress.foldl_addLine_entry hclosed hname hvalue, hfold]
      simp [begun]
    · rw [List.map_cons, hread, hvalue.joined.read_eq (newline_notMem_joined value)]

/-- However the values are laid out, the variables of a list are read under their names, in order, and
    with their values. -/
theorem read_of_lists {listed : List (Text × Literal)} {reply : Text} (hlists : Lists listed reply) :
    ∃ locals, Locals.read reply = .ok locals ∧
      locals.map (fun observed => (observed.name, Literal.read observed.value)) = listed := by
  obtain ⟨locals, hfold, hread⟩ :=
    hlists.foldl_addLine (show ({} : Progress).openBraces ≤ 0 from Int.le_refl 0)
  refine ⟨locals, ?_, hread⟩
  have hne : locals.isEmpty = false := by
    rw [List.isEmpty_eq_false_iff]
    rintro rfl
    cases hlists <;> cases hread
  rw [Locals.read, all, hfold, List.append_nil, List.reverse_reverse, Unrecognised.unlessEmpty, hne]
  rfl

/-- A struct broken over lines with a brace between quotation marks, an array of arrays broken within,
    and a value on one line. -/
theorem read_of_lists_spread :
    let reply := "p = \x7b\n  label = \"a\x7d, b\",\n  next = (node *) 0x5010\n\x7d\n".toList ++
      "grid = \x7b\x7b1, 2\x7d,\n    \x7b\x7d\x7d\n".toList ++ "n = 97 'a'\n".toList
    let listed : List (Text × Literal) :=
      [("p".toList, .fields [("label".toList, .scalar "\"a\x7d, b\"".toList),
          ("next".toList, .pointer 0x5010)]),
        ("grid".toList, .elements [.elements [.scalar ['1'], .scalar ['2']], .elements []]),
        ("n".toList, .scalar "97 'a'".toList)]
    Lists listed reply ∧ ∃ locals, Locals.read reply = .ok locals ∧
      locals.map (fun observed => (observed.name, Literal.read observed.value)) = listed := by
  intro reply listed
  have hname (c : Char) (t : Text) (hc : CharClass.isNameStart c) (ht : t.all CharClass.isWord) :
      IsName (c :: t) := ⟨c, t, rfl, hc, List.all_eq_true.1 ht⟩
  have hnone : IsGap [] := List.forall_mem_nil _
  have hblank : IsGap [' '] := List.forall_mem_singleton.2 rfl
  have hbreak : IsGap ['\n'] := List.forall_mem_singleton.2 rfl
  have hindent : IsGap "\n  ".toList :=
    List.all_eq_true.1 (show "\n  ".toList.all isBlank from rfl)
  have hdeep : IsGap "\n    ".toList :=
    List.all_eq_true.1 (show "\n    ".toList.all isBlank from rfl)
  have hlabel : Prints (.scalar "\"a\x7d, b\"".toList) "\"a\x7d, b\"".toList :=
    .scalar (by decide) (by decide)
  have hpointee : "node ".toList.all fun c => !IsClosed.marks.contains c := rfl
  have hcast : IsCast "(node *) ".toList := .pointer fun c hc hmem => by
    simpa [hmem] using List.all_eq_true.1 hpointee c hc
  have hnext : Prints (.pointer 0x5010) "(node *) 0x5010".toList :=
    prints_address hcast (by decide)
  have hfields := PrintsFields.cons (hname 'l' "abel".toList rfl rfl) hlabel <|
    .cons (hname 'n' "ext".toList rfl rfl) hnext .nil
  have hstruct := Prints.fields (List.cons_ne_nil _ _) hfields <|
    .filled hindent hbreak (.cons _ hindent (.single _))
  have hone : Prints (.scalar ['1']) ['1'] := .scalar (by decide) (by decide)
  have htwo : Prints (.scalar ['2']) ['2'] := .scalar (by decide) (by decide)
  have hpair := Prints.elements (by decide) (.cons hone (.cons htwo .nil))
    (.filled hnone hnone (.cons _ hblank (.single _)))
  have hempty := Prints.elements (by decide) .nil (.empty hnone)
  have hgrid := Prints.elements (by decide) (.cons hpair (.cons hempty .nil))
    (.filled hnone hnone (.cons _ hdeep (.single _)))
  have hletter : Prints (.scalar "97 'a'".toList) "97 'a'".toList := .scalar (by decide) (by decide)
  have hlists : Lists listed reply :=
    .cons (hname 'p' [] rfl rfl) hstruct <| .cons (hname 'g' "rid".toList rfl rfl) hgrid <|
      .last (hname 'n' [] rfl rfl) hletter (.inr rfl)
  exact ⟨hlists, read_of_lists hlists⟩

end DebugClient.Locals
