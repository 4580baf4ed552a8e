import DebugClient.Text.CharClass
import DebugClient.Text.Numeral

/-!
Replies to `print`: the value of an address expression with its type, and plain integers.

    $1 = (int (*)[3]) 0x7ffe0020
    $2 = 12
-/

namespace DebugClient.Printed
open Text CharClass Numeral

/-- What follows `$NUMBER = `. -/
def afterEquals? (line : Text) : Option Text := do
  let t ← after? "$".toList line
  let t ← skip? isDigit t
  after? " = ".toList t

/-- The digits of the address at the front, behind any white space. -/
def addressDigits? (t : Text) : Option Text := do
  let t ← after? "0x".toList (trimStart t)
  let (digits, _) ← run? isHex t
  some digits

/-- Cut at the last closing parenthesis that an address follows: the text in front of it and the
    digits of the address. -/
def splitCast? : Text → Option (Text × Text)
  | [] => none
  | c :: t =>
    match splitCast? t with
    | some (type, digits) => some (c :: type, digits)
    | none => if c = ')' then (addressDigits? t).map fun digits => ([], digits) else none

/-- The text without the first occurrence of `part`. -/
def removeFirst (part : Text) : Text → Text
  | [] => []
  | c :: t =>
    match after? part (c :: t) with
    | some rest => rest
    | none => c :: removeFirst part t

/-- The type that a pointer type points to: without the star at its end or, failing that, without
    the first star in parentheses. -/
def pointee (pointerType : Text) : Text :=
  let type := trim pointerType
  let target := match before? "*".toList type with
    | some target => target
    | none => removeFirst "(*)".toList type
  [' '].intercalate (words target)

/-- The pointee type and the address on a line. -/
def typedAddress? (line : Text) : Option (Text × Nat) := do
  let t ← afterEquals? (trim line)
  let t ← after? "(".toList t
  let (type, digits) ← splitCast? t
  if type.isEmpty then none
  let address ← hex? largest64 digits
  some (pointee type, address)

/-- The integer on a line that holds nothing else. -/
def integer? (line : Text) : Option Nat := do
  let t ← afterEquals? (trim line)
  let (digits, rest) ← run? isDigit t
  if rest.isEmpty then decimal? largest64 digits else none

/-- The type of a variable and its address, from the reply to a request for its address. -/
def readAddress? (reply : Text) : Option (Text × Nat) := (lines reply).findSome? typedAddress?

/-- The integer printed by a reply. -/
def readInteger? (reply : Text) : Option Nat := (lines reply).findSome? integer?

end DebugClient.Printed
