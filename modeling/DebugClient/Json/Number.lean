import DebugClient.Json.Scan

/-!
Numbers in JSON. Only natural numbers of 64 bits have a use here; any other number must have its
form and, where it is really read, a magnitude that a double can hold.
-/

namespace DebugClient.Json

/-- A number that has been read. -/
inductive Number where
  | natural (n : Nat)
  /-- Negative, fractional, with an exponent, or of more than 64 bits. -/
  | other
  deriving DecidableEq, Repr

/-- The double nearest to a natural number, a tie going to the even neighbour, with no limit to the
    exponent. -/
def nearestDouble (n : Nat) : Nat :=
  let unit := Nat.pow 2 (n.log2 - 52)
  let low := n % unit
  let even := n / unit % 2 = 0
  if 2 * low < unit ∨ (2 * low = unit ∧ even) then n - low else n - low + unit

/-- Whether `significand · 10 ^ exponent` has a double: both factors are rounded, then their
    product. -/
def hasDouble (significand : Nat) (exponent : Int) : Bool :=
  significand = 0 || exponent < 0 ||
    (exponent ≤ 308 &&
      nearestDouble (nearestDouble significand * nearestDouble (Nat.pow 10 exponent.toNat)) <
        Nat.pow 2 1024)

/-- Extend a significand by digits as long as it stays within 64 bits; gives the number of digits
    that were left over. -/
def significand : Nat → Text → Nat × Nat
  | n, [] => (n, 0)
  | n, c :: digits =>
    let extended := n * 10 + (c.toNat - '0'.toNat)
    if extended ≤ Numeral.largest64 then significand extended digits else (n, digits.length + 1)

/-- The digits behind a decimal point, and what follows them. -/
def decimals (t : Text) : Except Fault (Text × Text) :=
  match t with
  | [] => .error .truncated
  | c :: _ =>
    if c.isDigit then .ok (t.takeWhile Char.isDigit, t.dropWhile Char.isDigit)
    else .error .malformed

/-- An exponent, and what follows it. -/
def exponent (t : Text) : Except Fault (Int × Text) :=
  let (negative, t) := match t with
    | '-' :: t => (true, t)
    | '+' :: t => (false, t)
    | t => (false, t)
  (decimals t).map fun (digits, t) =>
    let n := (Numeral.continue? 10 0 digits).getD 0
    (if negative then -n else n, t)

/-- A number with a fraction or an exponent, from its significant digits on. -/
def fractional (n : Nat) (scale : Int) (t : Text) : Except Fault (Number × Text) := do
  let (n, scale, t) ← match t with
    | '.' :: t => do
      let (digits, t) ← decimals t
      let (extended, left) := significand n digits
      pure (extended, scale - (digits.length - left : Nat), t)
    | t => pure (n, scale, t)
  let (power, t) ← match t with
    | 'e' :: t | 'E' :: t => exponent t
    | t => pure (0, t)
  if hasDouble n (scale + power) then .ok (.other, t) else .error .malformed

/-- A number without its sign. -/
def unsigned (t : Text) : Except Fault (Number × Text) :=
  match t with
  | [] => .error .truncated
  | c :: _ =>
    let digits := t.takeWhile Char.isDigit
    let rest := t.dropWhile Char.isDigit
    if !c.isDigit || (c == '0' && 1 < digits.length) then .error .malformed
    else
      let (n, left) := significand 0 digits
      match rest with
      | '.' :: _ | 'e' :: _ | 'E' :: _ => fractional n left rest
      | _ => if left = 0 then .ok (.natural n, rest) else fractional n left rest

/-- A number. A minus sign makes it one that has no use, even in front of zero. -/
def number (t : Text) : Except Fault (Number × Text) :=
  match t with
  | '-' :: t => (unsigned t).map fun (_, t) => (.other, t)
  | t => unsigned t

/-- Skip a number of any magnitude. A part of it that is missing is a fault of its form, also at
    the end of the text. -/
def skipNumber (t : Text) : Except Fault Text :=
  let digitsThen (t : Text) : Except Fault Text :=
    if t.head?.any Char.isDigit then .ok (t.dropWhile Char.isDigit) else .error .malformed
  let magnitude := match t with
    | '-' :: t => t
    | t => t
  do
    let t ← digitsThen magnitude
    if magnitude.head? = some '0' ∧ 1 < (magnitude.takeWhile Char.isDigit).length then
      throw .malformed
    let t ← match t with
      | '.' :: t => digitsThen t
      | t => pure t
    match t with
    | 'e' :: t | 'E' :: t =>
      match t with
      | '+' :: t | '-' :: t => digitsThen t
      | t => digitsThen t
    | t => .ok t

end DebugClient.Json
