import DebugClient.Reply.Assignment
import DebugClient.Reply.Unrecognised
import DebugClient.Text.Quoting

/-!
Lists of locals and arguments: a variable a line, except that an aggregate may be spread over
several lines. Such a value is joined back into one line.
-/

namespace DebugClient

/-- A variable with the text of its value. -/
structure Local where
  name : Text
  value : Text
  deriving DecidableEq, Repr

namespace Locals
open Text

/-- The variables read so far, the latest first, and the braces that the latest has left open. -/
structure Progress where
  locals : List Local := []
  openBraces : Int := 0
  deriving DecidableEq, Repr

/-- A line with an assignment begins a variable; any other is passed over. -/
def Progress.begin (progress : Progress) (line : Text) : Progress :=
  match Assignment.read? (trimEnd line) with
  | some (name, value) =>
    { locals := ⟨name, trim value⟩ :: progress.locals
      openBraces := Quoting.outside.braceBalance (trim value) }
  | none => progress

/-- A line continues the latest variable as long as one of its braces is open. -/
def Progress.addLine (progress : Progress) (line : Text) : Progress :=
  match progress.locals with
  | latest :: earlier =>
    if 0 < progress.openBraces then
      { locals := { latest with value := latest.value ++ ' ' :: trim line } :: earlier
        openBraces := progress.openBraces + Quoting.outside.braceBalance line }
    else progress.begin line
  | [] => progress.begin line

def all (reply : Text) : List Local :=
  ((lines reply).foldl Progress.addLine {}).locals.reverse

/-- The variables that a reply lists, in order. -/
def read (reply : Text) : Except Unrecognised (List Local) :=
  Unrecognised.locals.unlessEmpty (all reply)

end Locals
end DebugClient
