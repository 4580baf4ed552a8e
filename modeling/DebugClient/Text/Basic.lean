/-!
Text as a list of characters.

Whatever travels between the client and the debugger is a `Text`. Offsets and lengths that leave
the library count UTF-8 bytes, so this module measures and cuts text in bytes, and splits it into
lines and words.
-/

namespace DebugClient

/-- Characters in order. -/
abbrev Text := List Char

/-- White space: the 25 characters with the Unicode property `White_Space`. -/
def isBlank (c : Char) : Bool :=
  let n := c.toNat
  (0x9 ≤ n && n ≤ 0xD) || n == 0x20 || n == 0x85 || n == 0xA0 || n == 0x1680 ||
    (0x2000 ≤ n && n ≤ 0x200A) || n == 0x2028 || n == 0x2029 || n == 0x202F || n == 0x205F ||
    n == 0x3000

namespace Text

/-- Bytes that the text takes in UTF-8. -/
def byteLength : Text → Nat
  | [] => 0
  | c :: t => c.utf8Size + byteLength t

@[simp] theorem byteLength_append (s t : Text) :
    byteLength (s ++ t) = byteLength s + byteLength t := by
  induction s with
  | nil => simp [byteLength]
  | cons c s ih => simp [byteLength, ih, Nat.add_assoc]

/-- Cut after exactly `n` bytes; nothing if that place is past the end or inside a character. -/
def splitAtByte? : Nat → Text → Option (Text × Text)
  | 0, t => some ([], t)
  | _ + 1, [] => none
  | n + 1, c :: t =>
    if c.utf8Size ≤ n + 1 then
      (splitAtByte? (n + 1 - c.utf8Size) t).map fun (before, after) => (c :: before, after)
    else none

/-- The characters that lie wholly within the first `n` bytes. -/
def takeBytes : Nat → Text → Text
  | _, [] => []
  | n, c :: t => if c.utf8Size ≤ n then c :: takeBytes (n - c.utf8Size) t else []

/-- What follows `lead`, if the text begins with it. -/
def after? : Text → Text → Option Text
  | [], t => some t
  | _ :: _, [] => none
  | c :: lead, d :: t => if c = d then after? lead t else none

theorem after?_eq_some_iff {lead t rest : Text} : after? lead t = some rest ↔ t = lead ++ rest := by
  fun_induction after? lead t with
  | case1 t => simp
  | case2 c lead => simp
  | case3 lead d t ih => simp [ih]
  | case4 c lead d t hne => simp [Ne.symm hne]

/-- What comes before `tail`, if the text ends with it. -/
def before? (tail t : Text) : Option Text :=
  (after? tail.reverse t.reverse).map List.reverse

theorem before?_eq_some_iff {tail t rest : Text} :
    before? tail t = some rest ↔ t = rest ++ tail := by
  simp only [before?, Option.map_eq_some_iff, after?_eq_some_iff]
  constructor
  · rintro ⟨r, hr, rfl⟩
    simpa using congrArg List.reverse hr
  · rintro rfl
    exact ⟨rest.reverse, by simp, by simp⟩

/-- The text in front of the last `c` and the text behind it. -/
def splitLast? (c : Char) (t : Text) : Option (Text × Text) :=
  match t.reverse.dropWhile (· ≠ c) with
  | [] => none
  | _ :: before => some (before.reverse, (t.reverse.takeWhile (· ≠ c)).reverse)

/-- Whether the text occurs in the other one, at any place. -/
def occursIn (part : Text) : Text → Bool
  | [] => part.isEmpty
  | c :: t => (after? part (c :: t)).isSome || occursIn part t

/-- Without its leading white space. -/
def trimStart (t : Text) : Text := t.dropWhile isBlank

/-- Without its trailing white space. -/
def trimEnd (t : Text) : Text := (t.reverse.dropWhile isBlank).reverse

/-- Without white space at either end. -/
def trim (t : Text) : Text := trimEnd (trimStart t)

/-- The stretches between separators, empty ones included: one more than there are separators. -/
def pieces {α : Type} (isSeparator : α → Bool) : List α → List (List α)
  | [] => [[]]
  | c :: t =>
    if isSeparator c then [] :: pieces isSeparator t
    else match pieces isSeparator t with
      | [] => [[c]]
      | first :: others => (c :: first) :: others

/-- Lines from the stretches between line feeds. A carriage return in front of a line feed belongs
    to the line break. The last stretch was not ended by a line feed: it is a line, carriage return
    and all, unless it is empty. -/
def linesOfPieces {α : Type} [DecidableEq α] (carriageReturn : α) : List (List α) → List (List α)
  | [] => []
  | [last] => if last.isEmpty then [] else [last]
  | line :: others =>
    (if line.getLast? = some carriageReturn then line.dropLast else line) ::
      linesOfPieces carriageReturn others

/-- The lines of a text, without their line breaks. -/
def lines (t : Text) : List Text := linesOfPieces '\r' (pieces (· == '\n') t)

/-- The maximal runs of characters other than white space. -/
def words (t : Text) : List Text := (pieces isBlank t).filter fun word => !word.isEmpty

/-- The order of the UTF-8 encodings, which is the order by code points. -/
def precedes : Text → Text → Bool
  | [], [] => false
  | [], _ :: _ => true
  | _ :: _, [] => false
  | c :: s, d :: t => c.toNat < d.toNat || (c == d && precedes s t)

end Text
end DebugClient
