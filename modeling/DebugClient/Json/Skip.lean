import DebugClient.Json.Number

/-!
Whole values that are not kept: unknown fields, which need only have the form of JSON, and values
that are read before it is known whether they have a use, which must be readable as well.
-/

namespace DebugClient.Json

inductive Bracket where
  | list
  | object
  deriving DecidableEq, Repr

/-- What is expected next while values are skipped. -/
inductive Expecting where
  | value
  /-- A name, a colon and a value. -/
  | member
  /-- A comma or a closing bracket. -/
  | separator
  deriving DecidableEq, Repr

/-- How much of the values that are passed over is checked. -/
inductive Strictness where
  /-- Form only. -/
  | form
  /-- Escapes must stand for characters, numbers must have doubles, and brackets may be nested in
      so many others at most. -/
  | readable (room : Nat)
  deriving DecidableEq, Repr

namespace Strictness

def string (strictness : Strictness) (t : Text) : Except Fault Text :=
  match strictness with
  | .form => skipString t
  | .readable _ => (stringRest t).map (·.2)

def number (strictness : Strictness) (t : Text) : Except Fault Text :=
  match strictness with
  | .form => skipNumber t
  | .readable _ => (Json.number t).map (·.2)

/-- Whether a bracket may open inside so many others. -/
def admits (strictness : Strictness) (depth : Nat) : Bool :=
  match strictness with
  | .form => true
  | .readable room => depth < room

end Strictness

/-- Skip up to the end of the value begun, inside the brackets that are open. Each round takes at
    least one character, so there are enough rounds if there is one more of them than characters. -/
def skipRounds (strictness : Strictness) : Nat → Expecting → List Bracket → Text → Except Fault Text
  | 0, _, _, _ => .error .malformed
  | rounds + 1, .value, enclosing, t =>
    match skipSpace t with
    | [] => .error .truncated
    | '[' :: t =>
      if strictness.admits enclosing.length then
        match skipSpace t with
        | [] => .error .truncated
        | ']' :: t => skipRounds strictness rounds .separator enclosing t
        | t => skipRounds strictness rounds .value (.list :: enclosing) t
      else .error .malformed
    | '{' :: t =>
      if strictness.admits enclosing.length then
        match skipSpace t with
        | [] => .error .truncated
        | '}' :: t => skipRounds strictness rounds .separator enclosing t
        | t => skipRounds strictness rounds .member (.object :: enclosing) t
      else .error .malformed
    | 'n' :: t => do skipRounds strictness rounds .separator enclosing (← word "ull".toList t)
    | 't' :: t => do skipRounds strictness rounds .separator enclosing (← word "rue".toList t)
    | 'f' :: t => do skipRounds strictness rounds .separator enclosing (← word "alse".toList t)
    | '"' :: t => do skipRounds strictness rounds .separator enclosing (← strictness.string t)
    | c :: t =>
      if c.isDigit || c == '-' then do
        skipRounds strictness rounds .separator enclosing (← strictness.number (c :: t))
      else .error .malformed
  | rounds + 1, .member, enclosing, t =>
    match skipSpace t with
    | [] => .error .truncated
    | '"' :: t => do
      match skipSpace (← strictness.string t) with
      | [] => .error .truncated
      | ':' :: t => skipRounds strictness rounds .value enclosing t
      | _ => .error .malformed
    | _ => .error .malformed
  | _ + 1, .separator, [], t => .ok t
  | rounds + 1, .separator, bracket :: enclosing, t =>
    match bracket, skipSpace t with
    | _, [] => .error .truncated
    | .list, ',' :: t => skipRounds strictness rounds .value (.list :: enclosing) t
    | .object, ',' :: t => skipRounds strictness rounds .member (.object :: enclosing) t
    | .list, ']' :: t | .object, '}' :: t => skipRounds strictness rounds .separator enclosing t
    | _, _ => .error .malformed

/-- Skip a value. -/
def skipValue (strictness : Strictness) (t : Text) : Except Fault Text :=
  skipRounds strictness (t.length + 1) .value [] t

end DebugClient.Json
