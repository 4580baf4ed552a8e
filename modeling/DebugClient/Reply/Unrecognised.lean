import DebugClient.Text.Basic

/-!
What a reader reports when a reply holds nothing that it is looking for.
-/

namespace DebugClient

/-- The kind of entry that a reply had none of. -/
inductive Unrecognised where
  | stackFrames
  | functionDefinitions
  | locals
  deriving DecidableEq, Repr

def Unrecognised.entries : Unrecognised → Text
  | .stackFrames => "stack frames".toList
  | .functionDefinitions => "function definitions".toList
  | .locals => "locals".toList

def Unrecognised.message (missing : Unrecognised) : Text :=
  "no ".toList ++ missing.entries ++ " found in debugger output".toList

/-- The entries found, or the report that there were none. -/
def Unrecognised.unlessEmpty (missing : Unrecognised) {α : Type} (entries : List α) :
    Except Unrecognised (List α) :=
  if entries.isEmpty then .error missing else .ok entries

end DebugClient
