import DebugClient.Reply.Literal

/-!
Quotation marks and brackets that are closed in turn. A text in which all of them are closed stands in
a longer one without a trace: what comes behind it is split at the same commas, and as many braces
are open behind it as in front of it.
-/

namespace DebugClient

/-- Where a character stands: with respect to quotation marks, and between which brackets, given by
    the closing ones, the innermost first. -/
structure Nesting where
  quoting : Quoting := .outside
  awaited : List Char := []
  deriving DecidableEq, Repr

namespace Nesting

/-- The bracket that closes the one opened. -/
def closer? : Char → Option Char
  | '{' => some '}'
  | '(' => some ')'
  | '[' => some ']'
  | _ => none

def isCloser (c : Char) : Bool := c == '}' || c == ')' || c == ']'

/-- The brackets awaited behind a character outside quotation marks. Brackets are closed by their own
    kind, commas stand between brackets and line breaks between braces. -/
def awaitedBehind? (awaited : List Char) (c : Char) : Option (List Char) :=
  match closer? c with
  | some closer => some (closer :: awaited)
  | none =>
    if isCloser c then if awaited.head? = some c then some awaited.tail else none
    else if c = ',' ∧ awaited = [] ∨ c = '\n' ∧ '}' ∉ awaited then none
    else some awaited

def step? (nesting : Nesting) (c : Char) : Option Nesting :=
  match nesting.quoting with
  | .outside =>
    (awaitedBehind? nesting.awaited c).map fun awaited =>
      { quoting := Quoting.outside.next c, awaited }
  | quoting => if c = '\n' then none else some { nesting with quoting := quoting.next c }

def run? : Nesting → Text → Option Nesting
  | nesting, [] => some nesting
  | nesting, c :: t => (nesting.step? c).bind fun nesting => run? nesting t

/-- What one character can do. -/
inductive Step : Nesting → Char → Nesting → Prop where
  | quoted {quoting : Quoting} {awaited : List Char} {c : Char} (hquoting : quoting ≠ .outside)
      (hc : c ≠ '\n') : Step ⟨quoting, awaited⟩ c ⟨quoting.next c, awaited⟩
  | opens {awaited : List Char} {c closer : Char} (hc : closer? c = some closer) :
      Step ⟨.outside, awaited⟩ c ⟨.outside, closer :: awaited⟩
  | closes {awaited : List Char} {c : Char} (hc : isCloser c) :
      Step ⟨.outside, c :: awaited⟩ c ⟨.outside, awaited⟩
  | comma {awaited : List Char} (hawaited : awaited ≠ []) :
      Step ⟨.outside, awaited⟩ ',' ⟨.outside, awaited⟩
  | newline {awaited : List Char} (hawaited : '}' ∈ awaited) :
      Step ⟨.outside, awaited⟩ '\n' ⟨.outside, awaited⟩
  | other {awaited : List Char} {c : Char} (hopener : closer? c = none) (hcloser : ¬ isCloser c)
      (hcomma : c ≠ ',') (hnewline : c ≠ '\n') :
      Step ⟨.outside, awaited⟩ c ⟨Quoting.outside.next c, awaited⟩

theorem closer?_eq_some_iff {c closer : Char} : closer? c = some closer ↔
    c = '{' ∧ closer = '}' ∨ c = '(' ∧ closer = ')' ∨ c = '[' ∧ closer = ']' := by
  unfold closer?
  split <;> simp_all [eq_comm]

theorem isCloser_iff {c : Char} : isCloser c ↔ c = '}' ∨ c = ')' ∨ c = ']' := by
  simp [isCloser, or_assoc]

theorem Step.of_step? {nesting behind : Nesting} {c : Char} (hstep : nesting.step? c = some behind) :
    Step nesting c behind := by
  obtain ⟨quoting, awaited⟩ := nesting
  rw [step?] at hstep
  split at hstep
  · rename_i hquoting
    obtain rfl : quoting = .outside := hquoting
    obtain ⟨awaited', hawaited, rfl⟩ := Option.map_eq_some_iff.1 hstep
    dsimp only at hawaited
    unfold awaitedBehind? at hawaited
    split at hawaited
    · rename_i closer hcloser
      obtain rfl := Option.some.inj hawaited
      have hnext : Quoting.outside.next c = .outside := by
        rcases closer?_eq_some_iff.1 hcloser with ⟨rfl, -⟩ | ⟨rfl, -⟩ | ⟨rfl, -⟩ <;> rfl
      rw [hnext]
      exact .opens hcloser
    · rename_i hopener
      split at hawaited
      · rename_i hcloser
        obtain ⟨hhead, hawaited⟩ := Option.ite_none_right_eq_some.1 hawaited
        obtain ⟨others, rfl⟩ := List.head?_eq_some_iff.1 hhead
        obtain rfl := Option.some.inj hawaited
        have hnext : Quoting.outside.next c = .outside := by
          rcases isCloser_iff.1 hcloser with rfl | rfl | rfl <;> rfl
        rw [hnext]
        exact .closes hcloser
      · rename_i hcloser
        obtain ⟨hallowed, hawaited⟩ := Option.ite_none_left_eq_some.1 hawaited
        obtain rfl := Option.some.inj hawaited
        rw [not_or, not_and, not_and, Decidable.not_not] at hallowed
        by_cases hcomma : c = ','
        · subst hcomma
          exact .comma (hallowed.1 rfl)
        by_cases hnewline : c = '\n'
        · subst hnewline
          exact .newline (hallowed.2 rfl)
        exact .other hopener hcloser hcomma hnewline
  · rename_i hquoting
    obtain ⟨hnewline, hbehind⟩ := Option.ite_none_left_eq_some.1 hstep
    obtain rfl := Option.some.inj hbehind
    exact .quoted hquoting hnewline

theorem Step.step?_eq {nesting behind : Nesting} {c : Char} (hstep : Step nesting c behind) :
    nesting.step? c = some behind := by
  cases hstep with
  | @quoted quoting awaited c hquoting hc =>
    cases quoting with
    | outside => exact absurd rfl hquoting
    | inside mark => exact if_neg hc
    | escaped mark => exact if_neg hc
  | opens hc =>
    rcases closer?_eq_some_iff.1 hc with ⟨rfl, rfl⟩ | ⟨rfl, rfl⟩ | ⟨rfl, rfl⟩ <;> rfl
  | closes hc =>
    rcases isCloser_iff.1 hc with rfl | rfl | rfl <;>
      simp [step?, awaitedBehind?, closer?, isCloser, Quoting.next]
  | comma hawaited => simp [step?, awaitedBehind?, closer?, isCloser, Quoting.next, hawaited]
  | newline hawaited => simp [step?, awaitedBehind?, closer?, isCloser, Quoting.next, hawaited]
  | other hopener hcloser hcomma hnewline =>
    simp [step?, awaitedBehind?, hopener, hcloser, hcomma, hnewline]

theorem run?_append (nesting : Nesting) (s t : Text) :
    run? nesting (s ++ t) = (run? nesting s).bind fun nesting => run? nesting t := by
  induction s generalizing nesting with
  | nil => rfl
  | cons c s ih =>
    rw [List.cons_append, run?, run?, Option.bind_assoc]
    exact congrArg _ (funext ih)

theorem run?_cons_of_step {nesting behind : Nesting} {c : Char} (hstep : Step nesting c behind)
    (t : Text) : run? nesting (c :: t) = run? behind t := by
  rw [run?, hstep.step?_eq, Option.bind_some]

theorem exists_step_of_run? {nesting behind : Nesting} {c : Char} {t : Text}
    (hrun : run? nesting (c :: t) = some behind) :
    ∃ between, Step nesting c between ∧ run? between t = some behind := by
  obtain ⟨between, hstep, hrest⟩ := Option.bind_eq_some_iff.1 hrun
  exact ⟨between, .of_step? hstep, hrest⟩

/-- The nesting inside further brackets. -/
def within (nesting : Nesting) (outer : List Char) : Nesting :=
  { nesting with awaited := nesting.awaited ++ outer }

theorem Step.within {nesting behind : Nesting} {c : Char} (hstep : Step nesting c behind)
    (outer : List Char) : Step (nesting.within outer) c (behind.within outer) := by
  cases hstep with
  | quoted hquoting hc => exact .quoted hquoting hc
  | opens hc => exact .opens hc
  | closes hc => exact .closes hc
  | comma hawaited => exact .comma (List.append_ne_nil_of_left_ne_nil hawaited outer)
  | newline hawaited => exact .newline (List.mem_append_left outer hawaited)
  | other hopener hcloser hcomma hnewline => exact .other hopener hcloser hcomma hnewline

theorem run?_within {nesting behind : Nesting} {t : Text} (hrun : run? nesting t = some behind)
    (outer : List Char) : run? (nesting.within outer) t = some (behind.within outer) := by
  induction t generalizing nesting with
  | nil =>
    obtain rfl := Option.some.inj hrun
    rfl
  | cons c t ih =>
    obtain ⟨between, hstep, hrest⟩ := exists_step_of_run? hrun
    rw [run?_cons_of_step (hstep.within outer)]
    exact ih hrest

/-! ### What the scanners see -/

theorem bracketStep_of_closer? {c closer : Char} (hc : closer? c = some closer) :
    Quoting.outside.bracketStep c = 1 := by
  rcases closer?_eq_some_iff.1 hc with ⟨rfl, -⟩ | ⟨rfl, -⟩ | ⟨rfl, -⟩ <;> rfl

theorem bracketStep_of_isCloser {c : Char} (hc : isCloser c) :
    Quoting.outside.bracketStep c = -1 := by
  rcases isCloser_iff.1 hc with rfl | rfl | rfl <;> rfl

/-- The depth that the commas are looked for at is the number of brackets awaited. -/
theorem Step.bracketStep_eq {nesting behind : Nesting} {c : Char} (hstep : Step nesting c behind) :
    (nesting.awaited.length : Int) + nesting.quoting.bracketStep c = behind.awaited.length := by
  cases hstep with
  | @quoted quoting awaited c hquoting hc =>
    cases quoting with
    | outside => exact absurd rfl hquoting
    | inside mark => exact Int.add_zero _
    | escaped mark => exact Int.add_zero _
  | opens hc => rw [bracketStep_of_closer? hc, List.length_cons, Int.natCast_add_one]
  | closes hc =>
    rw [bracketStep_of_isCloser hc, List.length_cons, Int.natCast_add_one]
    exact Int.add_neg_cancel_right _ 1
  | comma hawaited => exact Int.add_zero _
  | newline hawaited => exact Int.add_zero _
  | @other awaited c hopener hcloser hcomma hnewline =>
    have hzero : Quoting.outside.bracketStep c = 0 := by
      unfold Quoting.bracketStep
      split <;> simp_all [closer?, isCloser]
    rw [hzero]
    exact Int.add_zero _

theorem Step.quoting_eq {nesting behind : Nesting} {c : Char} (hstep : Step nesting c behind) :
    nesting.quoting.next c = behind.quoting := by
  cases hstep with
  | quoted hquoting hc => rfl
  | opens hc => rcases closer?_eq_some_iff.1 hc with ⟨rfl, -⟩ | ⟨rfl, -⟩ | ⟨rfl, -⟩ <;> rfl
  | closes hc => rcases isCloser_iff.1 hc with rfl | rfl | rfl <;> rfl
  | comma hawaited => rfl
  | newline hawaited => rfl
  | other hopener hcloser hcomma hnewline => rfl

/-- No comma that the items of an aggregate are split at. -/
theorem Step.not_separator {nesting behind : Nesting} {c : Char} (hstep : Step nesting c behind) :
    ¬ (nesting.quoting = .outside ∧ (nesting.awaited.length : Int) = 0 ∧ c = ',') := by
  rintro ⟨hquoting, hdepth, rfl⟩
  cases hstep with
  | quoted hne hc => exact hne hquoting
  | opens hc => cases hc
  | closes hc => cases hc
  | comma hawaited => exact hawaited (List.length_eq_zero_iff.1 (Int.ofNat.inj hdepth))
  | other hopener hcloser hcomma hnewline => exact hcomma rfl

/-- The text goes to the front of the first piece of what follows it. -/
theorem topLevelPieces_append {nesting behind : Nesting} {s : Text}
    (hrun : run? nesting s = some behind) {t first : Text} {others : List Text}
    (hrest : Literal.topLevelPieces behind.quoting behind.awaited.length t = first :: others) :
    Literal.topLevelPieces nesting.quoting nesting.awaited.length (s ++ t) =
      (s ++ first) :: others := by
  induction s generalizing nesting with
  | nil =>
    obtain rfl := Option.some.inj hrun
    exact hrest
  | cons c s ih =>
    obtain ⟨between, hstep, hbehind⟩ := exists_step_of_run? hrun
    rw [List.cons_append, Literal.topLevelPieces, if_neg hstep.not_separator, hstep.quoting_eq,
      hstep.bracketStep_eq, ih hbehind]
    rfl

theorem Step.braceStep_eq {nesting behind : Nesting} {c : Char} (hstep : Step nesting c behind) :
    (nesting.awaited.count '}' : Int) + nesting.quoting.braceStep c = behind.awaited.count '}' := by
  cases hstep with
  | @quoted quoting awaited c hquoting hc =>
    cases quoting with
    | outside => exact absurd rfl hquoting
    | inside mark => exact Int.add_zero _
    | escaped mark => exact Int.add_zero _
  | opens hc =>
    rcases closer?_eq_some_iff.1 hc with ⟨rfl, rfl⟩ | ⟨rfl, rfl⟩ | ⟨rfl, rfl⟩ <;>
      simp [Quoting.braceStep]
  | closes hc =>
    rcases isCloser_iff.1 hc with rfl | rfl | rfl
    · rw [List.count_cons_self, Int.natCast_add_one]
      exact Int.add_neg_cancel_right _ 1
    · simp [Quoting.braceStep]
    · simp [Quoting.braceStep]
  | comma hawaited => exact Int.add_zero _
  | newline hawaited => exact Int.add_zero _
  | @other awaited c hopener hcloser hcomma hnewline =>
    have hzero : Quoting.outside.braceStep c = 0 := by
      unfold Quoting.braceStep
      split <;> simp_all [closer?, isCloser]
    rw [hzero]
    exact Int.add_zero _

/-- The braces that a text leaves open are those awaited behind it. -/
theorem braceBalance_eq {nesting behind : Nesting} {t : Text} (hrun : run? nesting t = some behind) :
    (nesting.awaited.count '}' : Int) + nesting.quoting.braceBalance t =
      behind.awaited.count '}' := by
  induction t generalizing nesting with
  | nil =>
    obtain rfl := Option.some.inj hrun
    exact Int.add_zero _
  | cons c t ih =>
    obtain ⟨between, hstep, hrest⟩ := exists_step_of_run? hrun
    rw [Quoting.braceBalance, ← Int.add_assoc, hstep.braceStep_eq, hstep.quoting_eq]
    exact ih hrest

/-- A line break stands outside quotation marks and between braces. -/
theorem newline_cases {nesting behind : Nesting} {t : Text}
    (hrun : run? nesting ('\n' :: t) = some behind) :
    nesting.quoting = .outside ∧ '}' ∈ nesting.awaited ∧ run? nesting t = some behind := by
  obtain ⟨between, hstep, hrest⟩ := exists_step_of_run? hrun
  cases hstep with
  | quoted hquoting hc => exact absurd rfl hc
  | opens hc => cases hc
  | closes hc => cases hc
  | newline hawaited => exact ⟨rfl, hawaited, hrest⟩
  | other hopener hcloser hcomma hnewline => exact absurd rfl hnewline

end Nesting

/-- All quotation marks and brackets of the text are closed in turn. A comma stands between brackets
    or quotation marks, a line break between braces. -/
def IsClosed (t : Text) : Prop := Nesting.run? {} t = some {}

instance (t : Text) : Decidable (IsClosed t) := inferInstanceAs (Decidable (_ = _))

namespace IsClosed
open Nesting

variable {s t : Text}

theorem run?_eq (hclosed : IsClosed t) (outer : List Char) :
    run? ⟨.outside, outer⟩ t = some ⟨.outside, outer⟩ := run?_within hclosed outer

theorem append (hs : IsClosed s) (ht : IsClosed t) : IsClosed (s ++ t) := by
  rw [IsClosed, run?_append, hs]
  exact ht

/-- A closed text goes to the front of the first item of what follows it. -/
theorem topLevelPieces_append (hclosed : IsClosed s) {first : Text} {others : List Text}
    (hrest : Literal.topLevelPieces .outside 0 t = first :: others) :
    Literal.topLevelPieces .outside 0 (s ++ t) = (s ++ first) :: others :=
  Nesting.topLevelPieces_append hclosed hrest

theorem nil : IsClosed [] := rfl

/-- The characters that have a meaning to the scanners. -/
def marks : Text := ['{', '}', '(', ')', '[', ']', ',', '\n', '"', '\'']

theorem singleton {c : Char} (hc : c ∉ marks) : IsClosed [c] := by
  simp only [marks, List.mem_cons, List.not_mem_nil, or_false, not_or] at hc
  obtain ⟨hopen, hclose, hopen', hclose', hopen'', hclose'', hcomma, hnewline, hquote, hquote'⟩ := hc
  have hopener : closer? c = none := by
    rw [Option.eq_none_iff_forall_ne_some]
    intro closer hcloser
    rcases closer?_eq_some_iff.1 hcloser with ⟨rfl, -⟩ | ⟨rfl, -⟩ | ⟨rfl, -⟩ <;> contradiction
  have hcloser : ¬ isCloser c := by
    rw [isCloser_iff, not_or, not_or]
    exact ⟨hclose, hclose', hclose''⟩
  have hnext : Quoting.outside.next c = .outside := by
    simp [Quoting.next, hquote, hquote']
  rw [IsClosed, run?_cons_of_step (.other hopener hcloser hcomma hnewline), hnext]
  rfl

theorem parens (hclosed : IsClosed t) : IsClosed (['('] ++ t ++ [')']) := by
  have hopen : run? {} ['('] = some ⟨.outside, [')']⟩ := rfl
  rw [IsClosed, run?_append, run?_append, hopen, Option.bind_some, hclosed.run?_eq]
  rfl

theorem of_isWord {c : Char} (hc : CharClass.isWord c) : IsClosed [c] := by
  have hmarks : marks.all fun d => !CharClass.isWord d := rfl
  refine singleton fun hmem => ?_
  have hword := List.all_eq_true.1 hmarks c hmem
  rw [hc] at hword
  cases hword

theorem of_isBlank {c : Char} (hc : isBlank c) (hnewline : c ≠ '\n') : IsClosed [c] := by
  have hmarks : marks.all fun d => d == '\n' || !isBlank d := rfl
  refine singleton fun hmem => ?_
  have hblank := List.all_eq_true.1 hmarks c hmem
  rw [hc, beq_false_of_ne hnewline] at hblank
  cases hblank

theorem of_forall (hchars : ∀ c ∈ t, IsClosed [c]) : IsClosed t := by
  induction t with
  | nil => exact nil
  | cons c t ih =>
    obtain ⟨hc, ht⟩ := List.forall_mem_cons.1 hchars
    exact hc.append (ih ht)

theorem of_blank (hblank : ∀ c ∈ t, isBlank c) (hline : '\n' ∉ t) : IsClosed t :=
  of_forall fun c hc => of_isBlank (hblank c hc) fun hnewline => hline (hnewline ▸ hc)

/-- A closed text is split nowhere. -/
theorem topLevelPieces_eq (hclosed : IsClosed t) : Literal.topLevelPieces .outside 0 t = [t] := by
  have hpieces := hclosed.topLevelPieces_append
    (show Literal.topLevelPieces .outside 0 [] = [[]] from rfl)
  rw [List.append_nil] at hpieces
  exact hpieces

end IsClosed

/-- Between braces, all quotation marks and brackets of the text are closed in turn. -/
def IsClosedInside (t : Text) : Prop := Nesting.run? ⟨.outside, ['}']⟩ t = some ⟨.outside, ['}']⟩

namespace IsClosedInside
open Nesting

variable {s t : Text}

theorem of_isClosed (hclosed : IsClosed t) : IsClosedInside t := hclosed.run?_eq ['}']

theorem append (hs : IsClosedInside s) (ht : IsClosedInside t) : IsClosedInside (s ++ t) := by
  rw [IsClosedInside, run?_append, hs]
  exact ht

theorem of_blank (hblank : ∀ c ∈ t, isBlank c) : IsClosedInside t := by
  induction t with
  | nil => exact of_isClosed .nil
  | cons c t ih =>
    obtain ⟨hc, ht⟩ := List.forall_mem_cons.1 hblank
    have hfirst : IsClosedInside [c] := by
      by_cases hnewline : c = '\n'
      · subst hnewline
        exact run?_cons_of_step (.newline List.mem_cons_self) []
      · exact of_isClosed (.of_isBlank hc hnewline)
    exact hfirst.append (ih ht)

theorem comma : IsClosedInside [','] := run?_cons_of_step (.comma (List.cons_ne_nil _ _)) []

theorem braces (hinside : IsClosedInside t) : IsClosed (['{'] ++ t ++ ['}']) := by
  have hopen : run? {} ['{'] = some ⟨.outside, ['}']⟩ := rfl
  rw [IsClosed, run?_append, run?_append, hopen, Option.bind_some, hinside]
  rfl

end IsClosedInside
end DebugClient
