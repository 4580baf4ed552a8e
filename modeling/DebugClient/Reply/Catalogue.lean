import DebugClient.Text.CharClass
import DebugClient.Reply.Unrecognised

/-!
The catalogue of functions that belong to the target program.

In the debugger's list a function with debug information is preceded by the number of its line:

    12:	static int *make_array(int);

Functions of libraries come without one, which is what tells the two apart.
-/

namespace DebugClient

/-- A set of function names, each listed once, in the order of their encodings. -/
structure Catalogue where
  names : List Text := []
  deriving DecidableEq, Repr

namespace Catalogue
open Text CharClass

def contains (catalogue : Catalogue) (name : Text) : Bool := catalogue.names.contains name

/-- Put a name in its place among ascending names, unless it is there. -/
def place (name : Text) : List Text → List Text
  | [] => [name]
  | first :: others =>
    if name = first then first :: others
    else if precedes name first then name :: first :: others
    else first :: place name others

theorem mem_place {name other : Text} {names : List Text} :
    other ∈ place name names ↔ other = name ∨ other ∈ names := by
  induction names with
  | nil => simp [place]
  | cons first others ih =>
    by_cases heq : name = first
    · simp [place, heq]
    · by_cases hlt : precedes name first
      · simp [place, heq, hlt]
      · simp only [place, heq, hlt, if_false, List.mem_cons, ih, Bool.false_eq_true]
        constructor
        · rintro (h | h | h) <;> simp [h]
        · rintro (h | h | h) <;> simp [h]

def insert (name : Text) (catalogue : Catalogue) : Catalogue := ⟨place name catalogue.names⟩

def ofList (names : List Text) : Catalogue := names.foldl (fun c name => c.insert name) {}

/-- The name that a line defines: the last word in front of the first parenthesis, without the
    stars of its return type. -/
def definition? (line : Text) : Option Text := do
  let (_, t) ← run? isDigit (trimStart line)
  let t ← after? ":".toList t
  let t ← skip? isBlank t
  if !t.contains '(' then none
  let word ← (words (t.takeWhile (· ≠ '('))).getLast?
  match word.dropWhile (· == '*') with
  | [] => none
  | name => some name

def definitions (reply : Text) : List Text := (lines reply).filterMap definition?

/-- The catalogue that a list of functions gives. -/
def read (reply : Text) : Except Unrecognised Catalogue :=
  (Unrecognised.functionDefinitions.unlessEmpty (definitions reply)).map ofList

end Catalogue
end DebugClient
