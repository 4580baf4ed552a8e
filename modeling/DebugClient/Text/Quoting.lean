import DebugClient.Text.Basic

/-!
Quotation in printed values. Brackets and commas between quotation marks are text; a backslash
takes the next character with it.
-/

namespace DebugClient

/-- Where a character stands with respect to quotation marks. -/
inductive Quoting where
  | outside
  | inside (mark : Char)
  | escaped (mark : Char)
  deriving DecidableEq, Repr

namespace Quoting

/-- Where the next character stands. -/
def next : Quoting → Char → Quoting
  | .outside, c => if c = '"' || c = '\'' then .inside c else .outside
  | .inside mark, c =>
    if c = '\\' then .escaped mark else if c = mark then .outside else .inside mark
  | .escaped mark, _ => .inside mark

/-- By how much a character changes the depth of braces. -/
def braceStep : Quoting → Char → Int
  | .outside, '{' => 1
  | .outside, '}' => -1
  | _, _ => 0

/-- By how much a character changes the depth of brackets of all kinds. -/
def bracketStep : Quoting → Char → Int
  | .outside, '{' | .outside, '(' | .outside, '[' => 1
  | .outside, '}' | .outside, ')' | .outside, ']' => -1
  | _, _ => 0

/-- Braces that the text opens less those that it closes, quotation taken into account. -/
def braceBalance : Quoting → Text → Int
  | _, [] => 0
  | quoting, c :: t => quoting.braceStep c + braceBalance (quoting.next c) t

end Quoting
end DebugClient
