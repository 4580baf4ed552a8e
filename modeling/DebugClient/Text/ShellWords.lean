import DebugClient.Text.Basic

/-!
Splitting a line into words the way a shell does: quotation marks and backslashes take away the
meaning of the characters behind them, and `#` at the beginning of a word starts a comment.
-/

namespace DebugClient.ShellWords

/-- Where a character stands. -/
inductive Mode where
  | between
  | comment
  | word
  | escape
  | single
  | double
  | doubleEscape
  deriving DecidableEq, Repr

def isSeparator (c : Char) : Bool := c == ' ' || c == '\t' || c == '\n'

/-- What a character in a word opens, if it is not taken for itself. -/
def opened? (c : Char) : Option Mode :=
  if c = '"' then some .double
  else if c = '\'' then some .single
  else if c = '\\' then some .escape
  else none

/-- Between double quotation marks a backslash is kept, except in front of these. -/
def isQuotable (c : Char) : Bool := c == '$' || c == '\x60' || c == '"' || c == '\\'

/-- The words that are still to come, the first of which begins with `w`; none if something stays
    open at the end. -/
def splitFrom : Mode → Text → Text → Option (List Text)
  | .between, _, [] | .comment, _, [] => some []
  | .word, w, [] => some [w]
  | .escape, _, [] | .single, _, [] | .double, _, [] | .doubleEscape, _, [] => none
  | .between, _, c :: t =>
    if isSeparator c then splitFrom .between [] t
    else if c = '#' then splitFrom .comment [] t
    else match opened? c with
      | some mode => splitFrom mode [] t
      | none => splitFrom .word [c] t
  | .comment, _, c :: t => splitFrom (if c = '\n' then .between else .comment) [] t
  | .word, w, c :: t =>
    if isSeparator c then (splitFrom .between [] t).map (w :: ·)
    else match opened? c with
      | some mode => splitFrom mode w t
      | none => splitFrom .word (w ++ [c]) t
  | .escape, w, c :: t => splitFrom .word (if c = '\n' then w else w ++ [c]) t
  | .single, w, c :: t =>
    if c = '\'' then splitFrom .word w t else splitFrom .single (w ++ [c]) t
  | .double, w, c :: t =>
    if c = '"' then splitFrom .word w t
    else if c = '\\' then splitFrom .doubleEscape w t
    else splitFrom .double (w ++ [c]) t
  | .doubleEscape, w, c :: t =>
    if c = '\n' then splitFrom .double w t
    else splitFrom .double (if isQuotable c then w ++ [c] else w ++ ['\\', c]) t

def split (line : Text) : Option (List Text) := splitFrom .between [] line

end DebugClient.ShellWords
