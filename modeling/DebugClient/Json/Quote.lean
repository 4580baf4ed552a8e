import DebugClient.Json.Scan

/-!
Writing JSON, without any white space.
-/

namespace DebugClient.Json

/-- A character as it stands in a string. -/
def escapeChar (c : Char) : Text :=
  match c with
  | '"' => ['\\', '"']
  | '\\' => ['\\', '\\']
  | '\x08' => ['\\', 'b']
  | '\x0c' => ['\\', 'f']
  | '\n' => ['\\', 'n']
  | '\r' => ['\\', 'r']
  | '\t' => ['\\', 't']
  | c =>
    if isControl c then
      ['\\', 'u', '0', '0', (c.toNat / 16).digitChar, (c.toNat % 16).digitChar]
    else [c]

def quote (s : Text) : Text := '"' :: s.flatMap escapeChar ++ ['"']

/-- An object from the texts of its members. -/
def writeObject (members : List (Text × Text)) : Text :=
  '{' :: [','].intercalate (members.map fun (name, value) => quote name ++ ':' :: value) ++ ['}']

def writeList (items : List Text) : Text := '[' :: [','].intercalate items ++ [']']

end DebugClient.Json
