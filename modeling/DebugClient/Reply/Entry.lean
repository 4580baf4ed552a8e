import DebugClient.Text.CharClass

/-!
Function entries: the part `0x4011a0 in strlen (` that begins a line about a function, with the
address present only where the debugger stands in the middle of a source line. Backtraces and
stop messages share this form.
-/

namespace DebugClient.Entry
open Text CharClass

/-- Characters of a function name: qualified names, template arguments and versioned stubs
    included. -/
def isNamePart (c : Char) : Bool :=
  isWord c || c == ':' || c == '.' || c == '~' || c == '<' || c == '>' || c == '@'

/-- A function name at the front, and what follows it. -/
def name? : Text → Option (Text × Text)
  | [] => none
  | c :: t => if isNameStart c then some (c :: t.takeWhile isNamePart, t.dropWhile isNamePart) else none

/-- What follows `0xADDRESS in `. -/
def afterAddress? (t : Text) : Option Text := do
  let t ← after? "0x".toList t
  let t ← skip? isHex t
  let t ← skip? isBlank t
  let t ← after? "in".toList t
  skip? isBlank t

/-- The name of the function entered, and what follows its opening parenthesis. -/
def read? (t : Text) : Option (Text × Text) := do
  let (name, t) ← name? ((afterAddress? t).getD t)
  match trimStart t with
  | '(' :: t => some (name, t)
  | _ => none

end DebugClient.Entry
