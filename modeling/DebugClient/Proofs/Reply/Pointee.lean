import DebugClient.Reply.Printed
import DebugClient.Proofs.Reply.Addresses

/-!
The type of a variable, from the type of its address. C writes a type around the place of a name. The
star of a pointer to it is put there: behind everything, in parentheses of its own, or next to other
stars in parentheses that are there already. Only the last is not undone.
-/

namespace DebugClient.Text

/-- Ends with a bracket that closes something. -/
def EndsBracketed (t : Text) : Prop := ∃ s c, t = s ++ [c] ∧ c ∈ [')', ']']

theorem EndsBracketed.ne_nil {t : Text} (hbracketed : EndsBracketed t) : t ≠ [] := by
  obtain ⟨s, c, rfl, -⟩ := hbracketed
  exact List.append_ne_nil_of_right_ne_nil s (List.cons_ne_nil c [])

theorem EndsBracketed.append {t : Text} (hbracketed : EndsBracketed t) (s : Text) :
    EndsBracketed (s ++ t) := by
  obtain ⟨t, c, rfl, hc⟩ := hbracketed
  exact ⟨s ++ t, c, (List.append_assoc ..).symm, hc⟩

end DebugClient.Text

namespace DebugClient
open Text

/-! ### Types and how they are written -/

/-- A name of a type, on one line and without a closing parenthesis. -/
structure TypeName where
  text : Text
  firm : IsFirm text
  unclosed : ')' ∉ text
  line : '\n' ∉ text

/-- The types that are built from named ones. -/
inductive CType where
  | named (name : TypeName)
  | pointer (target : CType)
  | array (length : Nat) (element : CType)
  | functionPointer (result : CType) (parameters : List CType)

namespace CType

def int : CType :=
  .named ⟨"int".toList, ⟨⟨'i', "nt".toList, rfl, rfl⟩, ⟨"in".toList, 't', rfl, rfl⟩⟩, by decide,
    by decide⟩

def isArray : CType → Bool
  | .array _ _ => true
  | _ => false

/-- A list of parameters that have been written. -/
def parameterList (parameters : List Text) : Text :=
  if parameters = [] then "void".toList else ", ".toList.intercalate parameters

/-- A declarator is set off from the name of the type. -/
def setOff : Text → Text
  | [] => []
  | c :: declarator => ' ' :: c :: declarator

mutual
/-- The declaration of something of the type; the declarator, which may be empty, stands where its name
    would. A star binds less than dimensions and parameters do. -/
def spell : CType → Text → Text
  | .named name, declarator => name.text ++ setOff declarator
  | .pointer target, declarator =>
    target.spell (if target.isArray then "(*".toList ++ declarator ++ ")".toList else '*' :: declarator)
  | .array length element, declarator =>
    element.spell (declarator ++ ("[".toList ++ Numeral.decimal length ++ "]".toList))
  | .functionPointer result parameters, declarator =>
    result.spell ("(*".toList ++ declarator ++
      (")(".toList ++ parameterList (spellEach parameters) ++ ")".toList))

def spellEach : List CType → List Text
  | [] => []
  | type :: others => type.spell [] :: spellEach others
end

/-- The star of a pointer to the type is written next to other stars in their parentheses. -/
def joinsStars : CType → Bool
  | .named _ | .array _ _ => false
  | .pointer target => target.isArray || target.joinsStars
  | .functionPointer _ _ => true

/-- What is written on either side of the declarator. -/
structure Frame (type : CType) (left right : Text) : Prop where
  spell_eq {declarator : Text} (hne : declarator ≠ []) :
    type.spell declarator = left ++ declarator ++ right
  words_eq : words (left ++ right) = words (type.spell [])
  unclosed : ')' ∉ left

variable {type target : CType} {left right declarator : Text}

theorem setOff_of_ne_nil (hne : declarator ≠ []) : setOff declarator = ' ' :: declarator := by
  cases declarator with
  | nil => exact absurd rfl hne
  | cons c declarator => rfl

/-- A constructor writes its own marks on either side of the declarator, and the frame of the type that
    it is applied to around them. -/
theorem Frame.wrap (hframe : Frame target left right) {before behind : Text}
    (hspell : ∀ declarator, type.spell declarator = target.spell (before ++ declarator ++ behind))
    (hne : before ++ behind ≠ []) (hbefore : ')' ∉ before) :
    Frame type (left ++ before) (behind ++ right) where
  spell_eq {declarator} hdeclarator := by
    rw [hspell, hframe.spell_eq (by simp [hdeclarator])]
    simp only [List.append_assoc]
  words_eq := by
    rw [hspell, List.append_nil, hframe.spell_eq hne]
    simp only [List.append_assoc]
  unclosed := by
    rw [List.mem_append, not_or]
    exact ⟨hframe.unclosed, hbefore⟩

theorem frame_named (name : TypeName) : Frame (.named name) (name.text ++ [' ']) [] where
  spell_eq {declarator} hne := by
    rw [spell, setOff_of_ne_nil hne]
    simp
  words_eq := by
    rw [List.append_nil, words_append_cons (by rfl), spell, setOff, List.append_nil]
    exact List.append_nil _
  unclosed hmem := by
    rcases List.mem_append.1 hmem with hmem | hmem
    · exact name.unclosed hmem
    · exact absurd hmem (by decide)

theorem spell_pointer_of_isArray (harray : target.isArray = true) (declarator : Text) :
    (CType.pointer target).spell declarator =
      target.spell ("(*".toList ++ declarator ++ ")".toList) := by
  rw [spell, if_pos harray]

theorem spell_pointer (harray : target.isArray = false) (declarator : Text) :
    (CType.pointer target).spell declarator = target.spell ('*' :: declarator) := by
  rw [spell, if_neg (by simp [harray])]

theorem Frame.pointer (hframe : Frame target left right) (harray : target.isArray = false) :
    Frame (.pointer target) (left ++ ['*']) right := by
  have hspell (declarator : Text) :
      (CType.pointer target).spell declarator = target.spell (['*'] ++ declarator ++ []) := by
    rw [List.append_nil]
    exact spell_pointer harray declarator
  exact hframe.wrap hspell (by decide) (by decide)

theorem exists_frame : ∀ type : CType, ∃ left right, Frame type left right
  | .named name => ⟨_, _, frame_named name⟩
  | .pointer target => by
    obtain ⟨left, right, hframe⟩ := exists_frame target
    cases harray : target.isArray with
    | true => exact ⟨_, _, hframe.wrap (spell_pointer_of_isArray harray) (by decide) (by decide)⟩
    | false => exact ⟨_, _, hframe.pointer harray⟩
  | .array length element => by
    obtain ⟨left, right, hframe⟩ := exists_frame element
    have hspell (declarator : Text) : (CType.array length element).spell declarator = element.spell
        ([] ++ declarator ++ ("[".toList ++ Numeral.decimal length ++ "]".toList)) := by
      rw [spell, List.nil_append]
    exact ⟨_, _, hframe.wrap hspell (by simp) List.not_mem_nil⟩
  | .functionPointer result parameters => by
    obtain ⟨left, right, hframe⟩ := exists_frame result
    exact ⟨_, _, hframe.wrap (fun _ => by rw [spell]) (by simp) (by decide)⟩

theorem beginsFirm_spell : ∀ (type : CType) (declarator : Text), BeginsFirm (type.spell declarator)
  | .named name, declarator => by
    rw [spell]
    exact name.firm.begins.append _
  | .pointer target, declarator => by
    rw [spell]
    exact beginsFirm_spell target _
  | .array length element, declarator => by
    rw [spell]
    exact beginsFirm_spell element _
  | .functionPointer result parameters, declarator => by
    rw [spell]
    exact beginsFirm_spell result _

/-- Nothing but brackets is written behind a declarator. -/
theorem endsBracketed_spell : ∀ (type : CType) {declarator : Text}, EndsBracketed declarator →
    EndsBracketed (type.spell declarator)
  | .named name, declarator, hbracketed => by
    rw [spell, setOff_of_ne_nil hbracketed.ne_nil]
    exact (hbracketed.append [' ']).append name.text
  | .pointer target, declarator, hbracketed => by
    cases harray : target.isArray with
    | true =>
      rw [spell_pointer_of_isArray harray]
      exact endsBracketed_spell target ⟨_, ')', rfl, by decide⟩
    | false =>
      rw [spell_pointer harray]
      exact endsBracketed_spell target (hbracketed.append ['*'])
  | .array length element, declarator, _ => by
    rw [spell, ← List.append_assoc]
    exact endsBracketed_spell element ⟨_, ']', rfl, by decide⟩
  | .functionPointer result parameters, declarator, _ => by
    rw [spell, ← List.append_assoc]
    exact endsBracketed_spell result ⟨_, ')', rfl, by decide⟩

theorem isArray_of_joinsStars (hjoins : type.joinsStars = true) : type.isArray = false := by
  cases type with
  | array => cases hjoins
  | _ => rfl

theorem exists_eq_array (harray : type.isArray = true) :
    ∃ length element, type = .array length element := by
  cases type with
  | array length element => exact ⟨length, element, rfl⟩
  | _ => cases harray

theorem endsBracketed_spell_of_joinsStars : ∀ {type : CType}, type.joinsStars = true →
    ∀ declarator : Text, EndsBracketed (type.spell declarator)
  | .pointer target, hjoins, declarator => by
    cases harray : target.isArray with
    | true =>
      rw [spell_pointer_of_isArray harray]
      exact endsBracketed_spell target ⟨_, ')', rfl, by decide⟩
    | false =>
      rw [joinsStars, harray, Bool.false_or] at hjoins
      rw [spell_pointer harray]
      exact endsBracketed_spell_of_joinsStars hjoins _
  | .functionPointer result parameters, _, declarator => by
    rw [spell, ← List.append_assoc]
    exact endsBracketed_spell result ⟨_, ')', rfl, by decide⟩

theorem exists_frame_of_not_joinsStars : ∀ {type : CType}, type.joinsStars = false →
    type.isArray = false → ∃ left, Frame type left []
  | .named name, _, _ => ⟨_, frame_named name⟩
  | .pointer target, hjoins, _ => by
    obtain ⟨harray, hjoins⟩ := Bool.or_eq_false_iff.1 hjoins
    obtain ⟨left, hframe⟩ := exists_frame_of_not_joinsStars hjoins harray
    exact ⟨_, hframe.pointer harray⟩

mutual
theorem newline_notMem_spell : ∀ (type : CType) {declarator : Text}, '\n' ∉ declarator →
    '\n' ∉ type.spell declarator
  | .named name, declarator, hline => by
    have hdeclarator : '\n' ∉ setOff declarator := by
      cases declarator with
      | nil => exact hline
      | cons c declarator => exact List.not_mem_cons_of_ne_of_not_mem (by decide) hline
    rw [spell, List.mem_append, not_or]
    exact ⟨name.line, hdeclarator⟩
  | .pointer target, declarator, hline => by
    rw [spell]
    exact newline_notMem_spell target (by split <;> simp [hline])
  | .array length element, declarator, hline => by
    have hlength : '\n' ∉ Numeral.decimal length := Numeral.notMem_decimal (by decide)
    rw [spell]
    exact newline_notMem_spell element (by simp [hline, hlength])
  | .functionPointer result parameters, declarator, hline => by
    have hparameters : '\n' ∉ parameterList (spellEach parameters) := by
      rw [parameterList]
      split
      · decide
      · exact notMem_intercalate (by decide) (newline_notMem_spellEach parameters)
    rw [spell]
    exact newline_notMem_spell result (by simp [hline, hparameters])

theorem newline_notMem_spellEach : ∀ (types : List CType), ∀ text ∈ spellEach types, '\n' ∉ text
  | [] => fun _ hmem => absurd hmem List.not_mem_nil
  | type :: others => by
    rw [spellEach]
    exact List.forall_mem_cons.2
      ⟨newline_notMem_spell type List.not_mem_nil, newline_notMem_spellEach others⟩
end

end CType

namespace Printed
open CharClass Numeral

variable {type : CType} {left right part t : Text} {address : Nat}

/-! ### Taking a star away -/

theorem removeFirst_append (hleft : ')' ∉ left) (right : Text) :
    removeFirst "(*)".toList (left ++ ("(*)".toList ++ right)) = left ++ right := by
  induction left with
  | nil => rfl
  | cons c left ih =>
    obtain ⟨-, hrest⟩ := not_or.1 (mt List.mem_cons.2 hleft)
    have hnone : after? "(*)".toList (c :: left ++ ("(*)".toList ++ right)) = none := by
      -- The closing parenthesis would lie in front of the part, or on another character of it.
      rw [Option.eq_none_iff_forall_ne_some]
      intro rest hsome
      have heq := after?_eq_some_iff.1 hsome
      match left with
      | [] => simp at heq
      | [_] => simp at heq
      | _ :: d :: _ =>
        obtain ⟨-, heq⟩ := List.cons.inj heq
        have hd : d = ')' := (List.cons.inj (List.cons.inj heq).2).1
        exact hrest (hd ▸ List.mem_cons_of_mem _ List.mem_cons_self)
    rw [List.cons_append, removeFirst]
    rw [List.cons_append] at hnone
    simp only [hnone, ih hrest]
    rfl

theorem removeFirst_cases (part t : Text) :
    removeFirst part t = t ∨
      ∃ front back, t = front ++ part ++ back ∧ removeFirst part t = front ++ back := by
  induction t with
  | nil => exact .inl rfl
  | cons c t ih =>
    rw [removeFirst]
    split
    · next rest hsome => exact .inr ⟨[], rest, after?_eq_some_iff.1 hsome, rfl⟩
    · rcases ih with hsame | ⟨front, back, rfl, hremoved⟩
      · exact .inl (by rw [hsame])
      · exact .inr ⟨c :: front, back, rfl, by rw [hremoved, List.cons_append]⟩

theorem pointee_concat_star (hbegins : BeginsFirm (t ++ ['*'])) :
    pointee (t ++ ['*']) = [' '].intercalate (words t) := by
  have hfirm : IsFirm (t ++ ['*']) := ⟨hbegins, t, '*', rfl, rfl⟩
  have hbefore : before? "*".toList (t ++ ['*']) = some t := before?_eq_some_iff.2 rfl
  simp only [pointee, hfirm.trim_eq, hbefore]

theorem pointee_of_endsBracketed (hbegins : BeginsFirm t) (hbracketed : EndsBracketed t) :
    pointee t = [' '].intercalate (words (removeFirst "(*)".toList t)) := by
  obtain ⟨s, c, rfl, hc⟩ := hbracketed
  have hmark : isBlank c = false ∧ c ≠ '*' := by
    simp only [List.mem_cons, List.not_mem_nil, or_false] at hc
    rcases hc with rfl | rfl <;> decide
  have hfirm : IsFirm (s ++ [c]) := ⟨hbegins, s, c, rfl, hmark.1⟩
  have hbefore : before? "*".toList (s ++ [c]) = none := by
    rw [before?_eq_none_iff]
    rintro ⟨rest, heq⟩
    have hlast : ['*'] = [c] := List.append_inj_right' heq rfl
    exact hmark.2 (List.cons.inj hlast).1.symm
  simp only [pointee, hfirm.trim_eq, hbefore]

/-- The star of a pointer is taken away where it stands in front of nothing or alone in parentheses. -/
theorem pointee_spell (hjoins : type.joinsStars = false) :
    pointee ((CType.pointer type).spell []) = [' '].intercalate (words (type.spell [])) := by
  cases harray : type.isArray with
  | false =>
    obtain ⟨left, hframe⟩ := CType.exists_frame_of_not_joinsStars hjoins harray
    have hspell : (CType.pointer type).spell [] = left ++ ['*'] := by
      rw [CType.spell_pointer harray, hframe.spell_eq (List.cons_ne_nil _ _), List.append_nil]
    have hbegins := CType.beginsFirm_spell (.pointer type) []
    rw [hspell] at hbegins ⊢
    rw [pointee_concat_star hbegins, ← hframe.words_eq, List.append_nil]
  | true =>
    obtain ⟨length, element, rfl⟩ := CType.exists_eq_array harray
    obtain ⟨left, right, hframe⟩ := CType.exists_frame element
    have hspell : (CType.pointer (.array length element)).spell [] =
        left ++ ("(*)".toList ++ ("[".toList ++ decimal length ++ "]".toList ++ right)) := by
      rw [CType.spell_pointer_of_isArray harray, CType.spell, hframe.spell_eq (by simp)]
      simp
    have hspell' : (CType.array length element).spell [] =
        left ++ ("[".toList ++ decimal length ++ "]".toList ++ right) := by
      rw [CType.spell, hframe.spell_eq (by simp)]
      simp
    have hbracketed : EndsBracketed ((CType.pointer (.array length element)).spell []) := by
      rw [CType.spell_pointer_of_isArray harray]
      exact CType.endsBracketed_spell _ ⟨_, ')', rfl, by decide⟩
    rw [pointee_of_endsBracketed (CType.beginsFirm_spell _ _) hbracketed, hspell,
      removeFirst_append hframe.unclosed, hspell']

/-- Where the star has joined others, either nothing is taken away or three characters are, one of them
    the star of another pointer. -/
theorem solid_pointee_ne (hjoins : type.joinsStars = true) :
    solid (pointee ((CType.pointer type).spell [])) ≠ solid (type.spell []) := by
  have harray := CType.isArray_of_joinsStars hjoins
  obtain ⟨left, right, hframe⟩ := CType.exists_frame type
  have hpointer : (CType.pointer type).spell [] = left ++ ['*'] ++ right := by
    rw [CType.spell_pointer harray, hframe.spell_eq (List.cons_ne_nil _ _)]
  have hbracketed : EndsBracketed ((CType.pointer type).spell []) := by
    rw [CType.spell_pointer harray]
    exact CType.endsBracketed_spell_of_joinsStars hjoins _
  have htype : solid (type.spell []) = solid left ++ solid right := by
    rw [← flatten_words, ← hframe.words_eq, flatten_words, solid_append]
  have hstar : (solid ((CType.pointer type).spell [])).length = (solid (type.spell [])).length + 1 := by
    rw [hpointer, htype, solid_append, solid_append]
    simp only [List.length_append, show (solid ['*']).length = 1 from rfl]
    omega
  rw [pointee_of_endsBracketed (CType.beginsFirm_spell _ _) hbracketed, solid_intercalate_words]
  intro heq
  have hlength := congrArg List.length heq
  rcases removeFirst_cases "(*)".toList ((CType.pointer type).spell []) with
    hsame | ⟨front, back, hparts, hremoved⟩
  · rw [hsame] at hlength
    omega
  · rw [hparts, solid_append, solid_append] at hstar
    rw [hremoved, solid_append] at hlength
    simp only [List.length_append, show (solid "(*)".toList).length = 3 from rfl] at hstar hlength
    omega

/-! ### Reading the line -/

/-- What is printed for the address of a variable of the type, as the value with this number. -/
def addressLine (number : Nat) (type : CType) (address : Nat) : Text :=
  "$".toList ++ decimal number ++ " = (".toList ++ (CType.pointer type).spell [] ++ ") ".toList ++
    Numeral.address address

theorem splitCast?_of_notMem (hclosing : ')' ∉ t) : splitCast? t = none := by
  induction t with
  | nil => rfl
  | cons c t ih =>
    obtain ⟨hc, hrest⟩ := not_or.1 (mt List.mem_cons.2 hclosing)
    rw [splitCast?, ih hrest]
    exact if_neg fun heq => hc heq.symm

/-- The cut is made at the last parenthesis, if an address follows it. -/
theorem splitCast?_append {back digits : Text} (hback : ')' ∉ back)
    (hdigits : addressDigits? back = some digits) (front : Text) :
    splitCast? (front ++ ')' :: back) = some (front, digits) := by
  induction front with
  | nil => rw [List.nil_append, splitCast?, splitCast?_of_notMem hback, hdigits]; rfl
  | cons c front ih => rw [List.cons_append, splitCast?, ih]

theorem addressDigits?_address (address : Nat) :
    addressDigits? (' ' :: Numeral.address address) = some (Nat.toDigits 16 address) := by
  have htrim : trimStart (' ' :: Numeral.address address) = Numeral.address address := rfl
  have hafter : after? "0x".toList (Numeral.address address) = some (Nat.toDigits 16 address) :=
    after?_eq_some_iff.2 rfl
  rw [addressDigits?, htrim, hafter]
  simp only [bind, Option.bind, run?_hexDigits]

theorem isFirm_addressLine (number : Nat) (type : CType) (address : Nat) :
    IsFirm (addressLine number type address) := by
  obtain ⟨front, last, heq, hlast, -⟩ := exists_address_concat address
  have hends : EndsFirm (Numeral.address address) := ⟨front, last, heq, hlast⟩
  exact ⟨⟨'$', _, rfl, rfl⟩, hends.append _⟩

theorem newline_notMem_addressLine (number : Nat) (type : CType) (address : Nat) :
    '\n' ∉ addressLine number type address := by
  have hnumber : '\n' ∉ decimal number := notMem_decimal (by decide)
  have htype : '\n' ∉ (CType.pointer type).spell [] :=
    CType.newline_notMem_spell (.pointer type) List.not_mem_nil
  have haddress : '\n' ∉ Numeral.address address := fun hmem =>
    absurd (isWord_of_mem_address hmem) (by decide)
  simp [addressLine, hnumber, htype, haddress]

theorem afterEquals?_append (number : Nat) (t : Text) :
    afterEquals? ("$".toList ++ decimal number ++ " = ".toList ++ t) = some t := by
  have hends : ∀ c ∈ (" = ".toList ++ t).head?, isDigit c = false := by
    rintro c ⟨⟩
    rfl
  simp only [afterEquals?, List.append_assoc, after?_eq_some_iff.2 rfl,
    (isRun_decimal number).skip?_append, (whiles_of_head? hends).2, Option.bind_eq_bind,
    Option.bind_some]

theorem typedAddress?_addressLine (number : Nat) (type : CType) (haddress : address ≤ largest64) :
    typedAddress? (addressLine number type address) =
      some (pointee ((CType.pointer type).spell []), address) := by
  have htrim := (isFirm_addressLine number type address).trim_eq
  have hline : addressLine number type address = "$".toList ++ decimal number ++ " = ".toList ++
      ("(".toList ++ ((CType.pointer type).spell [] ++ ')' :: ' ' :: Numeral.address address)) := by
    simp [addressLine]
  have hclosing : ')' ∉ ' ' :: Numeral.address address := by
    rw [List.mem_cons, not_or]
    exact ⟨by decide, fun hmem => absurd (isWord_of_mem_address hmem) (by decide)⟩
  have hsplit := splitCast?_append hclosing (addressDigits?_address address)
    ((CType.pointer type).spell [])
  have hne : ((CType.pointer type).spell []).isEmpty = false := by
    obtain ⟨c, s, heq, -⟩ := CType.beginsFirm_spell (.pointer type) []
    rw [heq]
    rfl
  have hhex : hex? largest64 (Nat.toDigits 16 address) = some address :=
    read?_toDigits (by decide) (by decide) haddress
  rw [typedAddress?, htrim, hline, afterEquals?_append]
  simp only [Option.bind_eq_bind, Option.bind_some, after?_eq_some_iff.2 rfl, hsplit, hne, hhex,
    Bool.false_eq_true, if_false]

/-- The address of a variable is read from its line, and so is the type of the variable, unless the star
    of the pointer stands with others in their parentheses: then the text read is not a spelling of that
    type, wherever blanks are put. -/
theorem readAddress?_spelled (number : Nat) (type : CType) {address : Nat}
    (haddress : address ≤ largest64) {rest : Text} (hrest : ∀ c ∈ rest.head?, c = '\n') :
    ∃ recovered, readAddress? (addressLine number type address ++ rest) = some (recovered, address) ∧
      (type.joinsStars = false → recovered = [' '].intercalate (words (type.spell []))) ∧
      (type.joinsStars = true → solid recovered ≠ solid (type.spell [])) := by
  have htyped := typedAddress?_addressLine number type haddress
  have hline := newline_notMem_addressLine number type address
  have hends := (isFirm_addressLine number type address).ends
  obtain ⟨others, hlines⟩ : ∃ others,
      lines (addressLine number type address ++ rest) = addressLine number type address :: others := by
    have hsingle : (pieces (· == '\n') (addressLine number type address)).map (chomp '\r') =
        [addressLine number type address] := by
      rw [pieces_of_notMem hline, List.map_singleton, hends.chomp_eq]
    cases rest with
    | nil => exact ⟨[], by rw [List.append_nil, hends.lines_eq, hsingle]⟩
    | cons c rest =>
      obtain rfl := hrest c rfl
      exact ⟨lines rest, by rw [lines_append_cons, hsingle]; rfl⟩
  refine ⟨_, ?_, pointee_spell, solid_pointee_ne⟩
  rw [readAddress?, hlines, List.findSome?_cons, htyped]

/-- An array of function pointers, one of whose parameters points to an array itself. -/
theorem readAddress?_spelled_handlers :
    let handlers : CType := .array 4 (.functionPointer (.pointer .int)
      [.int, .pointer (.array 2 .int)])
    addressLine 1 handlers 0x7ffe0020 =
        "$1 = (int *(*(*)[4])(int, int (*)[2])) 0x7ffe0020".toList ∧
      readAddress? (addressLine 1 handlers 0x7ffe0020 ++ "\n".toList) =
        some ("int *(*[4])(int, int (*)[2])".toList, 0x7ffe0020) := by
  intro handlers
  have hrest : ∀ c ∈ ("\n".toList).head?, c = '\n' := fun c hc => (Option.some.inj hc).symm
  have hjoins : handlers.joinsStars = false := rfl
  obtain ⟨recovered, hread, hspelled, -⟩ := readAddress?_spelled 1 handlers
    (show 0x7ffe0020 ≤ largest64 by decide) hrest
  have hwords : [' '].intercalate (words (handlers.spell [])) =
      "int *(*[4])(int, int (*)[2])".toList := by decide
  rw [hread, hspelled hjoins, hwords]
  exact ⟨by decide, rfl⟩

/-- What is read for a function pointer is the type of a pointer to it. -/
theorem not_readAddress?_functionPointer :
    let handler : CType := .functionPointer .int [.int]
    handler.spell [] = "int (*)(int)".toList ∧
      addressLine 1 handler 0x10 = "$1 = (int (**)(int)) 0x10".toList ∧
      ¬ ∃ recovered,
        readAddress? (addressLine 1 handler 0x10 ++ "\n".toList) = some (recovered, 0x10) ∧
          solid recovered = solid (handler.spell []) := by
  intro handler
  have hread : readAddress? (addressLine 1 handler 0x10 ++ "\n".toList) =
      some ("int (**)(int)".toList, 0x10) := by decide
  refine ⟨by decide, by decide, ?_⟩
  rintro ⟨recovered, hrecovered, hsolid⟩
  rw [hread] at hrecovered
  obtain ⟨rfl, -⟩ := Prod.mk.inj (Option.some.inj hrecovered)
  exact absurd hsolid (by decide)

end Printed
end DebugClient
