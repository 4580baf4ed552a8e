import DebugClient.Text.Basic

/-!
Numbers written in ASCII digits, read within a limit, and their shortest writing.
-/

namespace DebugClient.Numeral

/-- The largest number of 64 bits: addresses, sizes and counts stay within it. -/
def largest64 : Nat := 0xFFFFFFFFFFFFFFFF

/-- The largest number of 32 bits: source lines and allocation sites stay within it. -/
def largest32 : Nat := 0xFFFFFFFF

/-- The value of a digit in a base of at most sixteen. -/
def digit? (base : Nat) (c : Char) : Option Nat :=
  let value :=
    if '0' ≤ c && c ≤ '9' then c.toNat - '0'.toNat
    else if 'a' ≤ c && c ≤ 'f' then c.toNat - 'a'.toNat + 10
    else if 'A' ≤ c && c ≤ 'F' then c.toNat - 'A'.toNat + 10
    else base
  if value < base then some value else none

/-- The number that `t` goes on to write, if the digits before it write `high`. -/
def continue? (base : Nat) (high : Nat) : Text → Option Nat
  | [] => some high
  | c :: t => (digit? base c).bind fun low => continue? base (high * base + low) t

/-- One or more digits after at most one plus sign, for a number up to `limit`. -/
def read? (base limit : Nat) (t : Text) : Option Nat :=
  let digits := match t with
    | '+' :: digits => digits
    | digits => digits
  if digits.isEmpty then none
  else (continue? base 0 digits).filter (· ≤ limit)

def decimal? (limit : Nat) (t : Text) : Option Nat := read? 10 limit t

def hex? (limit : Nat) (t : Text) : Option Nat := read? 16 limit t

/-- Decimal digits, without leading zeros. -/
def decimal (n : Nat) : Text := Nat.toDigits 10 n

/-- Lower-case hexadecimal digits behind `0x`, the way addresses are shown. -/
def address (n : Nat) : Text := '0' :: 'x' :: Nat.toDigits 16 n

end DebugClient.Numeral
