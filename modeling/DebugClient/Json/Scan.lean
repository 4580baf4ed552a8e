import DebugClient.Text.Fault
import DebugClient.Text.Numeral

/-!
Lexical parts of JSON. A reader takes what it reads off the front of the text and gives the rest.

Where a reader fails it tells apart a text that stops too early from one that is wrong, and it does
so at the first place where the text cannot be what was asked for: a wrong type is noticed before
the end of the text is.
-/

namespace DebugClient.Json

def isSpace (c : Char) : Bool := c == ' ' || c == '\n' || c == '\t' || c == '\r'

def skipSpace (t : Text) : Text := t.dropWhile isSpace

/-- The rest of a word such as `null`. -/
def word : Text → Text → Except Fault Text
  | [], t => .ok t
  | _ :: _, [] => .error .truncated
  | c :: expected, d :: t => if c = d then word expected t else .error .malformed

/-- What a backslash and one character stand for. -/
def escape? : Char → Option Char
  | '"' => some '"'
  | '\\' => some '\\'
  | '/' => some '/'
  | 'b' => some '\x08'
  | 'f' => some '\x0c'
  | 'n' => some '\n'
  | 'r' => some '\r'
  | 't' => some '\t'
  | _ => none

/-- Characters that a string may only hold in escaped form. -/
def isControl (c : Char) : Bool := c.toNat < 0x20

def fourHex? (a b c d : Char) : Option Nat := Numeral.continue? 16 0 [a, b, c, d]

/-- The first half of a pair that stands for one character. -/
def isLeading (unit : Nat) : Bool := 0xD800 ≤ unit && unit ≤ 0xDBFF

/-- The second half of such a pair. -/
def isTrailing (unit : Nat) : Bool := 0xDC00 ≤ unit && unit ≤ 0xDFFF

def joinPair (leading trailing : Nat) : Char :=
  Char.ofNat (0x10000 + (leading - 0xD800) * 0x400 + (trailing - 0xDC00))

/-- Fewer than four characters where four digits are needed: the text has stopped if they are fewer
    than four bytes too. -/
def shortEscape (t : Text) : Fault := if Text.byteLength t < 4 then .truncated else .malformed

def addChar (c : Char) (result : Except Fault (Text × Text)) : Except Fault (Text × Text) :=
  result.map fun (s, t) => (c :: s, t)

/-- A string whose opening quotation mark has been read. -/
def stringRest : Text → Except Fault (Text × Text)
  | [] => .error .truncated
  | '"' :: t => .ok ([], t)
  | '\\' :: 'u' :: a :: b :: c :: d :: t =>
    match fourHex? a b c d with
    | none => .error .malformed
    | some unit =>
      if isTrailing unit then .error .malformed
      else if isLeading unit then
        match t with
        | '\\' :: 'u' :: a :: b :: c :: d :: t =>
          match fourHex? a b c d with
          | none => .error .malformed
          | some trailing =>
            if isTrailing trailing then addChar (joinPair unit trailing) (stringRest t)
            else .error .malformed
        | '\\' :: 'u' :: t => .error (shortEscape t)
        | ['\\'] | [] => .error .truncated
        | _ => .error .malformed
      else addChar (Char.ofNat unit) (stringRest t)
  | '\\' :: 'u' :: t => .error (shortEscape t)
  | ['\\'] => .error .truncated
  | '\\' :: e :: t =>
    match escape? e with
    | some c => addChar c (stringRest t)
    | none => .error .malformed
  | c :: t => if isControl c then .error .malformed else addChar c (stringRest t)

/-- Skip a string whose opening quotation mark has been read. Escapes must have their form; what
    they stand for is not looked at. -/
def skipString : Text → Except Fault Text
  | [] => .error .truncated
  | '"' :: t => .ok t
  | '\\' :: 'u' :: a :: b :: c :: d :: t =>
    if (fourHex? a b c d).isSome then skipString t else .error .malformed
  | '\\' :: 'u' :: t => .error (shortEscape t)
  | ['\\'] => .error .truncated
  | '\\' :: e :: t => if (escape? e).isSome then skipString t else .error .malformed
  | c :: t => if isControl c then .error .malformed else skipString t

end DebugClient.Json
