import DebugClient.Reply.Backtrace
import DebugClient.Proofs.Reply.Naming
import DebugClient.Proofs.Text.Numerals

/-!
Backtraces read back. Neither the arguments of a call nor a colon in the name of a file moves the place
that a frame is shown at, and lines in between that are not numbered tell nothing.
-/

namespace DebugClient.Backtrace
open Text CharClass Numeral Entry

/-! ### What is printed -/

/-- Where a frame stands: a line of a source file, a library, or nothing that is known. -/
inductive IsPlace : Option Text → Option Nat → Text → Prop
  | source {file : Text} {line : Nat} (hne : file ≠ [])
      (hfile : ∀ c ∈ file, isBlank c = false ∧ c ≠ ')') (hline : line ≤ largest32) :
      IsPlace (some file) (some line) (" at ".toList ++ (file ++ ':' :: decimal line))
  | library {path : Text} (hpath : ')' ∉ path) : IsPlace none none (" from ".toList ++ path)
  | unknown : IsPlace none none []

/-- The line shows a frame, whatever its arguments look like. -/
inductive Shows : StackFrame → Text → Prop
  | intro {indent gap address name gap' arguments place : Text} {index : Nat} {file : Option Text}
      {line : Option Nat} (hindent : IsGap indent) (hindex : index ≤ largest64)
      (hgap : IsRun isBlank gap) (haddress : address = [] ∨ IsAddressPart address)
      (hname : IsFunctionName name) (hgap' : IsGap gap') (hplace : IsPlace file line place) :
      Shows { function := name, index, file, line } (indent ++ '#' :: (decimal index ++ (gap ++
        (address ++ (name ++ (gap' ++ '(' :: (arguments ++ ')' :: place)))))))

/-- Indentation aside, the line begins with a number sign and a digit. -/
inductive IsNumbered : Text → Prop
  | intro {indent rest : Text} {c : Char} (hindent : IsGap indent) (hc : c.isDigit) :
      IsNumbered (indent ++ '#' :: c :: rest)

/-- What a line tells of the stack. -/
inductive Tells : Option StackFrame → Text → Prop
  | frame {frame : StackFrame} {line : Text} (hshows : Shows frame line) : Tells (some frame) line
  | noise {line : Text} (hnoise : ¬ IsNumbered line) : Tells none line

/-- The lines of a reply tell these frames, in that order. -/
inductive Traces : List StackFrame → Text → Prop
  | last {told : Option StackFrame} {line : Text} (hline : '\n' ∉ line) (htells : Tells told line) :
      Traces told.toList line
  | cons {told : Option StackFrame} {line rest : Text} {frames : List StackFrame} (hline : '\n' ∉ line)
      (htells : Tells told line) (hrest : Traces frames rest) :
      Traces (told.toList ++ frames) (line ++ '\n' :: rest)

/-! ### The place of a frame -/

theorem splitPosition?_cons_of_notMem {t : Text} (hcolon : ':' ∉ t) (c : Char) :
    splitPosition? (c :: t) = none := by
  induction t generalizing c with
  | nil => rfl
  | cons d t ih =>
    rw [List.mem_cons, not_or] at hcolon
    rw [splitPosition?, ih hcolon.2]
    simp [Ne.symm hcolon.1]

/-- The colon in front of the number is the one that counts, whatever the name of the file holds. -/
theorem splitPosition?_append {file : Text} (hne : file ≠ []) (line : Nat) :
    splitPosition? (file ++ ':' :: decimal line) = some (file, decimal line) := by
  obtain ⟨hdecimal, hdigits⟩ := isRun_decimal line
  induction file with
  | nil => exact absurd rfl hne
  | cons c file ih =>
    cases file with
    | nil =>
      have hcolon : splitPosition? (':' :: decimal line) = none :=
        splitPosition?_cons_of_notMem (notMem_decimal (by decide)) ':'
      obtain ⟨d, rest, heq⟩ := List.exists_cons_of_ne_nil hdecimal
      have hall : (decimal line).takeWhile isDigit = decimal line :=
        List.takeWhile_eq_self_iff.2 hdigits
      rw [heq] at hcolon hall hdigits ⊢
      rw [List.singleton_append, splitPosition?, hcolon]
      simp only [hdigits d List.mem_cons_self, if_true, hall]
    | cons d file =>
      rw [List.cons_append]
      unfold splitPosition?
      rw [ih (List.cons_ne_nil d file)]

theorem position?_source {file : Text} (hne : file ≠ []) (hfile : ∀ c ∈ file, isBlank c = false)
    (line : Nat) :
    position? (" at ".toList ++ (file ++ ':' :: decimal line)) = some (file, decimal line) := by
  have hfirm : ∀ c ∈ file ++ ':' :: decimal line, isBlank c = false := by
    intro c hc
    rcases List.mem_append.1 hc with hmem | hmem
    · exact hfile c hmem
    · rcases List.mem_cons.1 hmem with rfl | hmem
      · rfl
      · exact isBlank_of_mem_decimal hmem
  have hfirst : ∀ c ∈ (file ++ ':' :: decimal line).head?, isBlank c = false :=
    fun c hc => hfirm c (List.mem_of_mem_head? hc)
  have hblank : IsRun isBlank [' '] := by decide
  have hword : ∀ c ∈ ("at".toList ++ ([' '] ++ (file ++ ':' :: decimal line))).head?,
      isBlank c = false := by
    rintro c ⟨⟩
    rfl
  have hplace : " at ".toList ++ (file ++ ':' :: decimal line) =
      [' '] ++ ("at".toList ++ ([' '] ++ (file ++ ':' :: decimal line))) := rfl
  have hall : (file ++ ':' :: decimal line).takeWhile (!isBlank ·) = file ++ ':' :: decimal line :=
    List.takeWhile_eq_self_iff.2 fun c hc => by rw [hfirm c hc]; rfl
  rw [position?, hplace]
  simp only [hblank.skip?_append, (whiles_of_head? hword).2, (whiles_of_head? hfirst).2,
    after?_eq_some_iff.2 rfl, Option.bind_eq_bind, Option.bind_some, hall]
  exact splitPosition?_append hne line

theorem position?_library (path : Text) : position? (" from ".toList ++ path) = none := by
  have hblank : IsRun isBlank [' '] := by decide
  have hword : ∀ c ∈ ("from ".toList ++ path).head?, isBlank c = false := by
    rintro c ⟨⟩
    rfl
  have hplace : " from ".toList ++ path = [' '] ++ ("from ".toList ++ path) := rfl
  rw [position?, hplace]
  simp only [hblank.skip?_append, (whiles_of_head? hword).2, Option.bind_eq_bind, Option.bind_some]
  rfl

section
variable {file : Option Text} {line : Option Nat} {place : Text}

theorem IsPlace.position?_eq (hplace : IsPlace file line place) :
    (position? place).map (·.1) = file ∧
      ((position? place).bind fun (_, digits) => decimal? largest32 digits) = line := by
  cases hplace with
  | source hne hfile hline =>
    rw [position?_source hne fun c hc => (hfile c hc).1]
    exact ⟨rfl, decimal?_decimal hline⟩
  | library =>
    rw [position?_library]
    exact ⟨rfl, rfl⟩
  | unknown => exact ⟨rfl, rfl⟩

theorem IsPlace.paren_notMem (hplace : IsPlace file line place) : ')' ∉ place := by
  cases hplace with
  | @source file line hne hfile hline =>
    have hname : ')' ∉ file := fun hmem => (hfile _ hmem).2 rfl
    have hnumber : ')' ∉ decimal line := notMem_decimal (by decide)
    simp [hname, hnumber]
  | library hpath => simp [hpath]
  | unknown => exact List.not_mem_nil

/-- A carriage return at the end of a line can only belong to the path of a library. -/
theorem IsPlace.chomp (hplace : IsPlace file line place) : IsPlace file line (chomp '\r' place) := by
  cases hplace with
  | @source file line hne hfile hline =>
    obtain ⟨digits, d, hdecimal⟩ := List.eq_nil_or_concat' (decimal line) |>.resolve_left
      (isRun_decimal line).1
    have hd : isBlank d = false := isBlank_of_mem_decimal (n := line) (by rw [hdecimal]; simp)
    have hends : EndsFirm (" at ".toList ++ (file ++ ':' :: decimal line)) :=
      ⟨" at ".toList ++ (file ++ ':' :: digits), d, by rw [hdecimal]; simp, hd⟩
    rw [hends.chomp_eq]
    exact .source hne hfile hline
  | @library path hpath =>
    obtain ⟨gap, -, hchomp⟩ := exists_eq_chomp path
    have happend : " from ".toList ++ path = " from".toList ++ ' ' :: path := rfl
    rw [happend, chomp_append_cons (by decide)]
    refine .library fun hmem => hpath ?_
    rw [hchomp]
    exact List.mem_append_left gap hmem
  | unknown => exact .unknown

end

/-! ### One line -/

variable {frame : StackFrame} {line : Text}

theorem Shows.frame?_eq (hshows : Shows frame line) : frame? line = some frame := by
  obtain ⟨hindent, hindex, hgap, haddress, hname, hgap', hplace⟩ := hshows
  rename_i indent gap address name gap' arguments place index file line
  have hstart : trimStart (indent ++ '#' :: (decimal index ++ (gap ++ (address ++ (name ++
      (gap' ++ '(' :: (arguments ++ ')' :: place))))))) = "#".toList ++ (decimal index ++ (gap ++
        (address ++ (name ++ (gap' ++ '(' :: (arguments ++ ')' :: place)))))) := by
    rw [trimStart_gap_append hindent]
    rfl
  have hbehindIndex : ∀ c ∈ (gap ++ (address ++ (name ++ (gap' ++ '(' :: (arguments ++
      ')' :: place))))).head?, isDigit c = false :=
    fun c hc => (classes_of_isBlank (hgap.of_mem_head? hc)).2.1
  have hbehindGap : ∀ c ∈ (address ++ (name ++ (gap' ++ '(' :: (arguments ++ ')' :: place)))).head?,
      isBlank c = false := by
    rcases haddress with rfl | ⟨hdigits, hblank, hblank'⟩
    · obtain ⟨d, t, rfl, hd⟩ := hname.beginsFirm
      rintro c ⟨⟩
      exact hd
    · rintro c ⟨⟩
      rfl
  obtain ⟨hfile, hline⟩ := hplace.position?_eq
  simp only [frame?, hstart, after?_eq_some_iff.2 rfl, (isRun_decimal index).run?_append,
    (whiles_of_head? hbehindIndex).1, (whiles_of_head? hbehindIndex).2, hgap.skip?_append,
    (whiles_of_head? hbehindGap).2, read?_append haddress hname hgap',
    splitLast?_eq_some_iff.2 ⟨hplace.paren_notMem, rfl⟩, List.append_nil, decimal?_decimal hindex,
    Option.bind_eq_bind, Option.bind_some, hfile, hline]

theorem isNumbered_of_frame? (hsome : frame? line = some frame) : IsNumbered line := by
  simp only [frame?, Option.bind_eq_bind, Option.bind_eq_some_iff, after?_eq_some_iff] at hsome
  obtain ⟨t, hstart, ⟨digits, behind⟩, hdigits, _, -, _, -, _, -, index, hindex, -⟩ := hsome
  obtain ⟨⟨hne, hclass⟩, rfl, -⟩ := eq_append_of_run? hdigits
  obtain ⟨c, digits, rfl⟩ := List.exists_cons_of_ne_nil hne
  have hc : c.isDigit := by
    refine isDigit_of_decimal? hindex ?_
    rintro rfl
    exact absurd (hclass _ List.mem_cons_self) (by decide)
  have hline : line = line.takeWhile isBlank ++ trimStart line := List.takeWhile_append_dropWhile.symm
  rw [hline, hstart]
  exact .intro (fun d hd => List.mem_takeWhile_imp hd) hc

theorem IsNumbered.mark_mem (hnumbered : IsNumbered line) : '#' ∈ line := by
  obtain ⟨hindent, hc⟩ := hnumbered
  exact List.mem_append_right _ List.mem_cons_self

theorem IsNumbered.append (hnumbered : IsNumbered line) (rest : Text) : IsNumbered (line ++ rest) := by
  obtain ⟨hindent, hc⟩ := hnumbered
  rw [List.append_assoc]
  exact .intro hindent hc

theorem Shows.chomp (hshows : Shows frame line) : Shows frame (chomp '\r' line) := by
  obtain ⟨hindent, hindex, hgap, haddress, hname, hgap', hplace⟩ := hshows
  rename_i indent gap address name gap' arguments place index file line
  have happend (place : Text) : indent ++ '#' :: (decimal index ++ (gap ++ (address ++ (name ++
      (gap' ++ '(' :: (arguments ++ ')' :: place)))))) = (indent ++ '#' :: (decimal index ++ (gap ++
        (address ++ (name ++ (gap' ++ '(' :: arguments)))))) ++ ')' :: place := by simp
  rw [happend, chomp_append_cons (by decide), ← happend]
  exact .intro hindent hindex hgap haddress hname hgap' hplace.chomp

/-- A carriage return that belongs to the line break changes nothing. -/
theorem Tells.chomp {told : Option StackFrame} (htells : Tells told line) :
    Tells told (chomp '\r' line) := by
  cases htells with
  | frame hshows => exact .frame hshows.chomp
  | noise hnoise =>
    obtain ⟨gap, -, hchomp⟩ := exists_eq_chomp line
    refine .noise fun hnumbered => hnoise ?_
    rw [hchomp]
    exact hnumbered.append gap

theorem Tells.frame?_eq {told : Option StackFrame} (htells : Tells told line) : frame? line = told := by
  cases htells with
  | frame hshows => exact hshows.frame?_eq
  | noise hnoise =>
    exact Option.eq_none_iff_forall_ne_some.2 fun frame hsome => hnoise (isNumbered_of_frame? hsome)

/-! ### The whole reply -/

theorem Traces.frames_eq {told : List StackFrame} {reply : Text} (htraces : Traces told reply) :
    frames reply = told := by
  induction htraces with
  | @last told line hline htells =>
    rw [Backtrace.frames, lines, pieces_of_notMem hline, linesOfPieces]
    split
    · next hempty =>
      rw [List.isEmpty_iff.1 hempty] at htells
      rw [← htells.frame?_eq]
      rfl
    · rw [List.filterMap_cons, htells.frame?_eq]
      cases told <;> rfl
  | @cons told line rest frames hline htells hrest ih =>
    rw [Backtrace.frames, lines_append_cons, pieces_of_notMem hline, List.map_singleton,
      List.singleton_append, List.filterMap_cons, htells.chomp.frame?_eq, ← Backtrace.frames, ih]
    cases told <;> rfl

theorem read_of_traces {told : List StackFrame} {reply : Text} (htraces : Traces told reply)
    (hne : told ≠ []) : read reply = .ok told := by
  rw [read, Unrecognised.unlessEmpty, htraces.frames_eq, if_neg (by simpa using hne)]

/-- A library has no source line, and what looks like a place inside of the arguments is none. -/
theorem read_of_traces_misleading :
    read ("Stopped.\n#0  0x1f in strlen () from /lib/libc.so\n".toList ++
        "  #1  main (s=\") at x:1\") at a:3:20".toList) =
      .ok [{ function := "strlen".toList, index := 0 },
        { function := "main".toList, index := 1, file := some "a:3".toList, line := some 20 }] := by
  have hstopped : Tells none "Stopped.".toList :=
    .noise fun hnumbered => absurd hnumbered.mark_mem (by decide)
  have hname (c : Char) (t : Text) (hc : isNameStart c) (ht : t.all isNamePart) :
      IsFunctionName (c :: t) := ⟨c, t, rfl, hc, List.all_eq_true.1 ht⟩
  have haddress : IsAddressPart "0x1f in ".toList :=
    @IsAddressPart.intro "1f".toList " ".toList " ".toList (by decide) (by decide) (by decide)
  have hstrlen : Shows { function := "strlen".toList, index := 0 }
      "#0  0x1f in strlen () from /lib/libc.so".toList :=
    @Shows.intro [] "  ".toList "0x1f in ".toList "strlen".toList " ".toList [] _ 0 _ _ (by decide)
      (by decide) (by decide) (.inr haddress) (hname 's' "trlen".toList rfl rfl) (by decide)
      (@IsPlace.library "/lib/libc.so".toList (by decide))
  have hfile : "a:3".toList.all fun c => !isBlank c && c != ')' := rfl
  have hplace : IsPlace (some "a:3".toList) (some 20) " at a:3:20".toList :=
    .source (by decide) (fun c hc => by simpa using List.all_eq_true.1 hfile c hc) (by decide)
  have hmain : Shows
      { function := "main".toList, index := 1, file := some "a:3".toList, line := some 20 }
      "  #1  main (s=\") at x:1\") at a:3:20".toList :=
    @Shows.intro "  ".toList "  ".toList [] "main".toList " ".toList "s=\") at x:1\"".toList _ 1 _ _
      (by decide) (by decide) (by decide) (.inl rfl) (hname 'm' "ain".toList rfl rfl) (by decide) hplace
  exact read_of_traces (.cons (by decide) hstopped (.cons (by decide) (.frame hstrlen)
    (.last (by decide) (.frame hmain)))) (List.cons_ne_nil _ _)

end DebugClient.Backtrace
