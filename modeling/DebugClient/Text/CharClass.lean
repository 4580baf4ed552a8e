import DebugClient.Text.Ranges
import DebugClient.Text.Basic

/-!
Classes of characters that the debugger's replies are read with. Digits and word characters are
taken in the Unicode sense, as a reply may quote names and values in any script; a digit is
therefore not always one that a number can be written with (see `Text.Numeral`).
-/

namespace DebugClient.CharClass

def inRanges (ranges : List (Nat × Nat)) (c : Char) : Bool :=
  ranges.any fun (low, high) => low ≤ c.toNat && c.toNat ≤ high

/-- Decimal digits of any script. -/
def isDigit (c : Char) : Bool :=
  if c.toNat < 128 then c.isDigit else inRanges digitRanges c

/-- Characters of words: letters, marks, digits and connectors of any script. -/
def isWord (c : Char) : Bool :=
  if c.toNat < 128 then c.isAlphanum || c == '_' else inRanges wordRanges c

/-- Hexadecimal digits, in either case. -/
def isHex (c : Char) : Bool :=
  c.isDigit || ('a' ≤ c && c ≤ 'f') || ('A' ≤ c && c ≤ 'F')

/-- Characters that an identifier can begin with. -/
def isNameStart (c : Char) : Bool := c.isAlpha || c == '_'

end DebugClient.CharClass

namespace DebugClient.Text

/-- The longest run of a class at the front, and what follows; nothing if the run is empty. -/
def run? (inClass : Char → Bool) (t : Text) : Option (Text × Text) :=
  match t.takeWhile inClass with
  | [] => none
  | run => some (run, t.dropWhile inClass)

/-- What follows one or more characters of a class. -/
def skip? (inClass : Char → Bool) (t : Text) : Option Text :=
  (run? inClass t).map (·.2)

end DebugClient.Text
