import DebugClient.Proofs.Reply.Layout
import DebugClient.Proofs.Text.Runs
import DebugClient.Console.Stepping

/-!
The names of functions, as they are cut out of a list of functions and of the lines that tell which
function was entered. Each of the two layouts has parts of any length on either side of a name, and
each determines the name, so that the two can be compared.
-/

namespace DebugClient

namespace CharClass
open Text

/-- The code points of white space. -/
def blankCodes : List Nat :=
  [0x9, 0xA, 0xB, 0xC, 0xD, 0x20, 0x85, 0xA0, 0x1680, 0x2000, 0x2001, 0x2002, 0x2003, 0x2004, 0x2005,
    0x2006, 0x2007, 0x2008, 0x2009, 0x200A, 0x2028, 0x2029, 0x202F, 0x205F, 0x3000]

theorem mem_blankCodes {c : Char} (hc : isBlank c) : c.toNat ∈ blankCodes := by
  simp only [isBlank, Bool.or_eq_true, Bool.and_eq_true, decide_eq_true_eq, beq_iff_eq] at hc
  simp only [blankCodes, List.mem_cons, List.not_mem_nil]
  omega

/-- No white space belongs to a name or to a number, in any script. -/
theorem classes_of_isBlank {c : Char} (hc : isBlank c) :
    Entry.isNamePart c = false ∧ isDigit c = false ∧ isHex c = false := by
  have hcodes : ∀ n ∈ blankCodes, Entry.isNamePart (Char.ofNat n) = false ∧
      isDigit (Char.ofNat n) = false ∧ isHex (Char.ofNat n) = false := by decide +kernel
  have hclasses := hcodes _ (mem_blankCodes hc)
  rwa [Char.ofNat_toNat] at hclasses

end CharClass

namespace Entry
open Text CharClass Literal

/-- A function name: qualified names, template arguments and versioned stubs included. -/
def IsFunctionName (name : Text) : Prop :=
  ∃ c t, name = c :: t ∧ isNameStart c ∧ ∀ d ∈ t, isNamePart d

/-- `0xADDRESS in `. -/
inductive IsAddressPart : Text → Prop
  | intro {digits gap gap' : Text} (hdigits : IsRun isHex digits) (hgap : IsRun isBlank gap)
      (hgap' : IsRun isBlank gap') :
      IsAddressPart ("0x".toList ++ (digits ++ (gap ++ ("in".toList ++ gap'))))

/-- The line tells that a function of this name was entered. -/
inductive Enters : Text → Text → Prop
  | intro {address name gap rest : Text} (haddress : address = [] ∨ IsAddressPart address)
      (hname : IsFunctionName name) (hgap : IsGap gap) :
      Enters (address ++ (name ++ (gap ++ '(' :: rest))) name

variable {line name rest t : Text}

theorem isNamePart_of_isNameStart {c : Char} (hc : isNameStart c) : isNamePart c := by
  simp only [isNamePart, isWord_of_isNameStart hc, Bool.true_or]

namespace IsFunctionName

theorem ne_nil (hname : IsFunctionName name) : name ≠ [] := by
  obtain ⟨c, t, rfl, -⟩ := hname
  exact List.cons_ne_nil c t

theorem isNamePart_of_mem (hname : IsFunctionName name) : ∀ c ∈ name, isNamePart c := by
  obtain ⟨c, t, rfl, hc, ht⟩ := hname
  exact List.forall_mem_cons.2 ⟨isNamePart_of_isNameStart hc, ht⟩

theorem beginsFirm (hname : IsFunctionName name) : BeginsFirm name := by
  obtain ⟨c, t, rfl, hc, -⟩ := hname
  exact ⟨c, t, rfl, isBlank_of_isNameStart hc⟩

theorem not_isBlank_of_mem (hname : IsFunctionName name) : ∀ c ∈ name, ¬ isBlank c := by
  intro c hmem hblank
  have hpart := hname.isNamePart_of_mem c hmem
  rw [(classes_of_isBlank hblank).1] at hpart
  cases hpart

end IsFunctionName

/-! ### Reading the entry of a function -/

/-- A name ends where its class does. -/
theorem name?_eq_some_iff : name? t = some (name, rest) ↔
    IsFunctionName name ∧ t = name ++ rest ∧ ∀ c ∈ rest.head?, isNamePart c = false := by
  constructor
  · intro hsome
    cases t with
    | nil => cases hsome
    | cons c t =>
      rw [name?] at hsome
      split at hsome
      · next hc =>
        cases hsome
        refine ⟨⟨c, _, rfl, hc, fun d hd => List.mem_takeWhile_imp hd⟩, ?_,
          fun d => not_of_mem_head?_dropWhile⟩
        rw [List.cons_append, List.takeWhile_append_dropWhile]
      · cases hsome
  · rintro ⟨⟨c, t, rfl, hc, ht⟩, rfl, hends⟩
    obtain ⟨htake, hdrop⟩ := whiles_of_head? hends
    rw [List.cons_append, name?, if_pos hc, List.takeWhile_append_of_pos ht,
      List.dropWhile_append_of_pos ht, htake, hdrop, List.append_nil]

theorem IsAddressPart.afterAddress?_append {address : Text} (haddress : IsAddressPart address)
    (hfirm : BeginsFirm rest) : afterAddress? (address ++ rest) = some rest := by
  obtain ⟨hdigits, hgap, hgap'⟩ := haddress
  rename_i digits gap gap'
  obtain ⟨c, t, rfl, hc⟩ := hfirm
  have hbehindDigits : ∀ d ∈ (gap ++ ("in".toList ++ (gap' ++ c :: t))).head?, isHex d = false :=
    fun d hd => (classes_of_isBlank (hgap.of_mem_head? hd)).2.2
  have hbehindGap : ∀ d ∈ ("in".toList ++ (gap' ++ c :: t)).head?, isBlank d = false := by
    rintro d ⟨⟩
    rfl
  have hbehindGap' : ∀ d ∈ (c :: t).head?, isBlank d = false := by
    rintro d ⟨⟩
    exact hc
  simp only [afterAddress?, List.append_assoc, after?_eq_some_iff.2 rfl, hdigits.skip?_append,
    hgap.skip?_append, hgap'.skip?_append, Option.bind_eq_bind, Option.bind_some,
    (whiles_of_head? hbehindDigits).2, (whiles_of_head? hbehindGap).2,
    (whiles_of_head? hbehindGap').2]

theorem exists_of_afterAddress? (hsome : afterAddress? t = some rest) :
    ∃ address, IsAddressPart address ∧ t = address ++ rest := by
  simp only [afterAddress?, Option.bind_eq_bind, Option.bind_eq_some_iff, after?_eq_some_iff] at hsome
  obtain ⟨_, rfl, _, hhex, _, hblank, _, rfl, hblank'⟩ := hsome
  obtain ⟨digits, hdigits, rfl, -⟩ := exists_of_skip? hhex
  obtain ⟨gap, hgap, heq, -⟩ := exists_of_skip? hblank
  obtain ⟨gap', hgap', rfl, -⟩ := exists_of_skip? hblank'
  subst heq
  exact ⟨_, .intro hdigits hgap hgap', by simp⟩

theorem afterAddress?_of_beginsName {name : Text} (hname : IsFunctionName name) (rest : Text) :
    afterAddress? (name ++ rest) = none := by
  obtain ⟨c, t, rfl, hc, -⟩ := hname
  have hzero : c ≠ '0' := by
    rintro rfl
    exact absurd hc (by decide)
  have hafter : after? "0x".toList (c :: t ++ rest) = none := if_neg fun heq => hzero heq.symm
  rw [afterAddress?, hafter]
  rfl

/-- What is read behind an address is the name, wherever it ends, and what its parenthesis opens. -/
theorem read?_append {address gap : Text} (haddress : address = [] ∨ IsAddressPart address)
    (hname : IsFunctionName name) (hgap : IsGap gap) (rest : Text) :
    read? (address ++ (name ++ (gap ++ '(' :: rest))) = some (name, rest) := by
  have hpart : (afterAddress? (address ++ (name ++ (gap ++ '(' :: rest)))).getD
      (address ++ (name ++ (gap ++ '(' :: rest))) = name ++ (gap ++ '(' :: rest) := by
    rcases haddress with rfl | haddress
    · rw [List.nil_append, afterAddress?_of_beginsName hname, Option.getD_none]
    · rw [haddress.afterAddress?_append (hname.beginsFirm.append _), Option.getD_some]
  have hends : ∀ c ∈ (gap ++ '(' :: rest).head?, isNamePart c = false := by
    intro c hc
    cases gap with
    | nil =>
      cases hc
      decide
    | cons d gap =>
      cases hc
      exact (classes_of_isBlank (hgap _ List.mem_cons_self)).1
  have htrim : trimStart (gap ++ '(' :: rest) = '(' :: rest := by
    rw [trimStart_gap_append hgap]
    rfl
  rw [read?, hpart, name?_eq_some_iff.2 ⟨hname, rfl, hends⟩]
  simp only [Option.bind_eq_bind, Option.bind_some, htrim]

theorem Enters.exists_read? (henters : Enters line name) : ∃ rest, read? line = some (name, rest) := by
  obtain ⟨haddress, hname, hgap⟩ := henters
  exact ⟨_, read?_append haddress hname hgap _⟩

theorem enters_of_read? (hread : read? line = some (name, rest)) : Enters line name := by
  obtain ⟨⟨name', behind⟩, hname, hopen⟩ := Option.bind_eq_some_iff.1 hread
  dsimp only at hopen
  split at hopen
  · next hbehind =>
    cases hopen
    obtain ⟨hvalid, happend, -⟩ := name?_eq_some_iff.1 hname
    have hgap : behind = behind.takeWhile isBlank ++ '(' :: rest := by
      rw [← hbehind]
      exact List.takeWhile_append_dropWhile.symm
    rw [hgap] at happend
    have hblank : IsGap (behind.takeWhile isBlank) := fun c hc => List.mem_takeWhile_imp hc
    cases haddress : afterAddress? line with
    | none =>
      rw [haddress, Option.getD_none] at happend
      rw [happend]
      exact @Enters.intro [] _ _ _ (.inl rfl) hvalid hblank
    | some t =>
      rw [haddress, Option.getD_some] at happend
      obtain ⟨address, hpart, rfl⟩ := exists_of_afterAddress? haddress
      rw [happend]
      exact .intro (.inr hpart) hvalid hblank
  · cases hopen

end Entry

/-- A reply enters unknown code if the name in one of its lines is not in the catalogue. -/
theorem StepState.entersUnknown_iff {catalogue : Catalogue} {reply : Text} :
    entersUnknown catalogue reply = true ↔
      ∃ line ∈ Text.lines reply, ∃ name, Entry.Enters line name ∧ catalogue.contains name = false := by
  simp only [entersUnknown, Stop.callSites, List.any_eq_true, List.mem_filterMap,
    Option.map_eq_some_iff, Bool.not_eq_true']
  constructor
  · rintro ⟨name, ⟨line, hline, ⟨_, rest⟩, hread, rfl⟩, hunlisted⟩
    exact ⟨line, hline, _, Entry.enters_of_read? hread, hunlisted⟩
  · rintro ⟨line, hline, name, henters, hunlisted⟩
    obtain ⟨rest, hread⟩ := henters.exists_read?
    exact ⟨name, ⟨line, hline, _, hread, rfl⟩, hunlisted⟩

namespace Catalogue
open Text CharClass Entry

/-- A line number, as it stands in front of a definition. -/
inductive IsNumbered : Text → Prop
  | intro {digits rest : Text} (hdigits : IsRun isDigit digits) : IsNumbered (digits ++ ':' :: rest)

/-- A type in front of a name, with white space in between; or nothing. -/
inductive IsTypePart : Text → Prop
  | absent : IsTypePart []
  | intro {type gap : Text} (htype : '(' ∉ type) (hgap : IsRun isBlank gap) : IsTypePart (type ++ gap)

/-- The line lists a function of the target program with this name. -/
inductive Defines : Text → Text → Prop
  | intro {digits gap type stars name rest : Text} (hdigits : IsRun isDigit digits)
      (hgap : IsRun isBlank gap) (htype : IsTypePart type) (hstars : ∀ c ∈ stars, c = '*')
      (hname : IsFunctionName name) :
      Defines (digits ++ ':' :: (gap ++ (type ++ (stars ++ name)) ++ '(' :: rest)) name

variable {line name reply t : Text}

theorem IsNumbered.exists_run? (hnumbered : IsNumbered t) :
    ∃ digits rest, run? isDigit t = some (digits, ':' :: rest) := by
  obtain ⟨hdigits⟩ := hnumbered
  rename_i digits rest
  have hcolon : ∀ c ∈ (':' :: rest).head?, isDigit c = false := by
    rintro c ⟨⟩
    decide
  obtain ⟨htake, hdrop⟩ := whiles_of_head? hcolon
  exact ⟨digits, rest, by rw [hdigits.run?_append, htake, hdrop, List.append_nil]⟩

theorem isNumbered_iff : IsNumbered t ↔
    (run? isDigit t).any (fun (_, rest) => rest.head? == some ':') = true := by
  constructor
  · intro hnumbered
    obtain ⟨digits, rest, hrun⟩ := hnumbered.exists_run?
    rw [hrun]
    rfl
  · intro hany
    obtain ⟨⟨digits, rest⟩, hrun, hhead⟩ := Option.any_eq_true _ _ |>.1 hany
    obtain ⟨rest, rfl⟩ := List.head?_eq_some_iff.1 (beq_iff_eq.1 hhead)
    obtain ⟨hdigits, rfl, -⟩ := eq_append_of_run? hrun
    exact .intro hdigits

instance : Decidable (IsNumbered t) := decidable_of_iff _ isNumbered_iff.symm

theorem Defines.isNumbered (hdefines : Defines line name) : IsNumbered line := by
  obtain ⟨hdigits, -⟩ := hdefines
  exact .intro hdigits

theorem IsTypePart.paren_notMem {type : Text} (htype : IsTypePart type) : '(' ∉ type := by
  cases htype with
  | absent => exact List.not_mem_nil
  | intro htype hgap =>
    rw [List.mem_append, not_or]
    exact ⟨htype, fun hmem => absurd (hgap.2 _ hmem) (by decide)⟩

/-- The last word behind a type is what follows it. -/
theorem IsTypePart.getLast?_words {type word : Text} (htype : IsTypePart type) (hne : word ≠ [])
    (hfirm : ∀ c ∈ word, ¬ isBlank c) : (words (type ++ word)).getLast? = some word := by
  have hword : words word = [word] := words_of_forall_not hne hfirm
  cases htype with
  | absent => rw [List.nil_append, hword, List.getLast?_singleton]
  | @intro type gap htype hgap =>
    obtain ⟨before, c, rfl⟩ := List.eq_nil_or_concat' gap |>.resolve_left hgap.1
    have hc : isBlank c := hgap.2 c (by simp)
    have happend : type ++ (before ++ [c]) ++ word = (type ++ before) ++ c :: word := by simp
    rw [happend, words_append_cons hc, hword, List.getLast?_concat]

/-- Behind the number of a line, only the last word in front of the parenthesis counts. -/
theorem definition?_numbered {digits gap declaration : Text} (hdigits : IsRun isDigit digits)
    (hgap : IsRun isBlank gap) (hparen : '(' ∉ declaration)
    (hfirm : ∃ c ∈ declaration, isBlank c = false) (rest : Text) :
    definition? (digits ++ ':' :: (gap ++ declaration ++ '(' :: rest)) =
      (words declaration).getLast?.bind fun word =>
        match word.dropWhile (· == '*') with
        | [] => none
        | name => some name := by
  have hstart : trimStart (digits ++ ':' :: (gap ++ declaration ++ '(' :: rest)) =
      digits ++ ':' :: (gap ++ declaration ++ '(' :: rest) := by
    refine (whiles_of_head? fun c hc => ?_).2
    have hdigit := hdigits.of_mem_head? hc
    rw [← Bool.not_eq_true]
    intro hblank
    rw [(classes_of_isBlank hblank).2.1] at hdigit
    cases hdigit
  have hcolon : ∀ c ∈ (':' :: (gap ++ declaration ++ '(' :: rest)).head?, isDigit c = false := by
    rintro c ⟨⟩
    decide
  have hskip : skip? isBlank (gap ++ declaration ++ '(' :: rest) =
      some (trimStart declaration ++ '(' :: rest) := by
    rw [List.append_assoc, hgap.skip?_append]
    exact congrArg some (trimStart_append hfirm _)
  have hcut : (trimStart declaration ++ '(' :: rest).takeWhile (· ≠ '(') = trimStart declaration :=
    (whiles_append_cons (mt (List.dropWhile_sublist _).mem hparen) rest).1
  have hopen : (trimStart declaration ++ '(' :: rest).contains '(' = true := by simp
  rw [definition?, hstart, hdigits.run?_append, (whiles_of_head? hcolon).2]
  have hafter : after? ":".toList (':' :: (gap ++ declaration ++ '(' :: rest)) =
      some (gap ++ declaration ++ '(' :: rest) := after?_eq_some_iff.2 rfl
  simp only [Option.bind_eq_bind, Option.bind_some, hafter, hskip, hopen, hcut, words_trimStart]
  rfl

/-- A definition is read as the name in it. -/
theorem Defines.definition?_eq (hdefines : Defines line name) : definition? line = some name := by
  obtain ⟨hdigits, hgap, htype, hstars, hname⟩ := hdefines
  rename_i type stars rest
  have hparen : '(' ∉ type ++ (stars ++ name) := by
    simp only [List.mem_append, not_or]
    exact ⟨htype.paren_notMem, fun hmem => absurd (hstars _ hmem) (by decide),
      fun hmem => absurd (hname.isNamePart_of_mem _ hmem) (by decide)⟩
  have hfirm : ∃ c ∈ type ++ (stars ++ name), isBlank c = false := by
    obtain ⟨c, hc, hblank⟩ := hname.beginsFirm.exists_mem
    exact ⟨c, by simp [hc], hblank⟩
  have hword : (words (type ++ (stars ++ name))).getLast? = some (stars ++ name) := by
    refine htype.getLast?_words (List.append_ne_nil_of_right_ne_nil _ hname.ne_nil) ?_
    intro c hc
    rcases List.mem_append.1 hc with hstar | hpart
    · rw [hstars c hstar]
      decide
    · exact hname.not_isBlank_of_mem c hpart
  rw [definition?_numbered hdigits hgap hparen hfirm, hword, Option.bind_some,
    List.dropWhile_append_of_pos fun c hc => beq_iff_eq.2 (hstars c hc)]
  obtain ⟨c, t, rfl, hc, -⟩ := hname
  have hstar : ¬ (c == '*') = true := by
    rw [beq_iff_eq]
    rintro rfl
    exact absurd hc (by decide)
  have hkeep : (c :: t).dropWhile (· == '*') = c :: t := List.dropWhile_cons_of_neg hstar
  rw [hkeep]

theorem isNumbered_of_definition? (hsome : definition? line = some name) :
    IsNumbered (trimStart line) := by
  obtain ⟨⟨digits, behind⟩, hrun, hbehind⟩ := Option.bind_eq_some_iff.1 hsome
  obtain ⟨hdigits, heq, -⟩ := eq_append_of_run? hrun
  obtain ⟨rest, hafter, -⟩ := Option.bind_eq_some_iff.1 hbehind
  rw [heq, after?_eq_some_iff.1 hafter]
  exact .intro hdigits

/-! ### Lists of functions -/

/-- Some line of the reply lists a function with this name. -/
def Listed (reply name : Text) : Prop := ∃ line ∈ lines reply, Defines line name

/-- Some line of the reply tells that a function was entered whose name is not in the list. -/
def EntersUnlisted (list reply : Text) : Prop :=
  ∃ line ∈ lines reply, ∃ name, Enters line name ∧ ¬ Listed list name

/-- Each line lists a function of the target program or has no number in front. White space before a
    number does not hide it. -/
def IsListing (reply : Text) : Prop :=
  ∀ line ∈ lines reply, (∃ name, Defines line name) ∨ ¬ IsNumbered (trimStart line)

theorem contains_ofList {names : List Text} : (ofList names).contains name = true ↔ name ∈ names := by
  rw [contains, List.contains_iff_mem]
  induction names using List.reverseRecOn with
  | nil => rfl
  | append_singleton names other ih =>
    have hinsert : (ofList (names ++ [other])).names = place other (ofList names).names := by
      rw [ofList, List.foldl_append]
      rfl
    rw [hinsert, mem_place, ih, List.mem_append, List.mem_singleton, or_comm]

theorem contains_read : ((read reply).toOption.getD {}).contains name = true ↔
    name ∈ definitions reply := by
  rw [read, Unrecognised.unlessEmpty]
  cases hempty : (definitions reply).isEmpty with
  | true =>
    rw [List.isEmpty_iff.1 hempty]
    exact iff_of_false Bool.false_ne_true List.not_mem_nil
  | false => exact contains_ofList

theorem IsListing.mem_definitions_iff (hlisting : IsListing reply) :
    name ∈ definitions reply ↔ Listed reply name := by
  rw [definitions, List.mem_filterMap]
  constructor
  · rintro ⟨line, hline, hread⟩
    rcases hlisting line hline with ⟨other, hdefines⟩ | hunnumbered
    · cases hread.symm.trans hdefines.definition?_eq
      exact ⟨line, hline, hdefines⟩
    · exact absurd (isNumbered_of_definition? hread) hunnumbered
  · rintro ⟨line, hline, hdefines⟩
    exact ⟨line, hline, hdefines.definition?_eq⟩

/-- The catalogue that a list of functions gives has the names listed and no other ones. -/
theorem IsListing.contains_read_iff (hlisting : IsListing reply) :
    ((read reply).toOption.getD {}).contains name = true ↔ Listed reply name :=
  contains_read.trans hlisting.mem_definitions_iff

end Catalogue
end DebugClient
