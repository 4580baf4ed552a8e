import DebugClient.Text.Numeral

/-!
Durations in words: whole milliseconds below a second, and seconds with the fewest decimals from
there on.
-/

namespace DebugClient.Duration

/-- A number below a thousand, in three digits. -/
def thousandths (n : Nat) : Text :=
  (Nat.toDigits 10 (n + 1000)).drop 1

/-- A duration given in milliseconds. -/
def render (milliseconds : Nat) : Text :=
  if milliseconds < 1000 then Numeral.decimal milliseconds ++ "ms".toList
  else
    let decimals := ((thousandths (milliseconds % 1000)).reverse.dropWhile (· == '0')).reverse
    Numeral.decimal (milliseconds / 1000) ++
      (if decimals.isEmpty then [] else '.' :: decimals) ++ ['s']

end DebugClient.Duration
