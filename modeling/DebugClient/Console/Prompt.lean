import DebugClient.Text.Basic

/-!
Prompts. A reply has ended when the output ends with one of the prompts that the debugger may use,
and the only question is when it does: white space at the end of a prompt may arrive late, or in
another amount, and any tail of the output may be the beginning of a prompt.
-/

namespace DebugClient

/-- Recognises the prompts in `sentinels`, all of them other than blank, the primary one first. -/
structure PromptDetector where
  sentinels : List Text
  deriving DecidableEq, Repr

/-- A prompt found at the end of the output. -/
structure PromptMatch where
  /-- Bytes of output in front of the prompt. -/
  start : Nat
  /-- What is still to come of a prompt that was recognised before its last white space. -/
  awaited : Text
  deriving DecidableEq, Repr

namespace PromptDetector
open Text

/-- Blank sentinels are left out: they would end every reply at once. -/
def ofSentinels (sentinels : List Text) : PromptDetector :=
  { sentinels := sentinels.filter fun sentinel => !(trim sentinel).isEmpty }

instance : Inhabited PromptDetector := ⟨ofSentinels ["(gdb) ".toList]⟩

/-- Space that may follow a prompt in any amount. -/
def isGap (c : Char) : Bool := c == ' ' || c == '\t'

/-- The sentinel at the end of the buffer. Its trailing white space does not count, and spaces and
    tabs may follow. -/
def matchSentinel? (buffer sentinel : Text) : Option PromptMatch :=
  let stem := trimEnd sentinel
  let gap := (buffer.reverse.takeWhile isGap).reverse
  (before? stem (buffer.reverse.dropWhile isGap).reverse).map fun front =>
    { start := byteLength front
      awaited := (after? gap (sentinel.drop stem.length)).getD [] }

/-- The match that starts first; of several, that of the earliest sentinel. -/
def firstMatch : List PromptMatch → Option PromptMatch
  | [] => none
  | found :: others =>
    match firstMatch others with
    | none => some found
    | some other => if other.start < found.start then some other else some found

/-- The prompt that the buffer ends with. -/
def promptMatch? (detector : PromptDetector) (buffer : Text) : Option PromptMatch :=
  firstMatch (detector.sentinels.filterMap (matchSentinel? buffer))

/-- Bytes of the longest beginning of the sentinel, short of all of it, that the buffer ends
    with. -/
def pendingBytes (buffer sentinel : Text) : Nat :=
  let beginnings := (List.range sentinel.length).reverse.map sentinel.take
  match beginnings.find? fun beginning => (before? beginning buffer).isSome with
  | some beginning => byteLength beginning
  | none => 0

/-- Bytes of the longest tail of the buffer that may still grow into a prompt. -/
def pendingTail (detector : PromptDetector) (buffer : Text) : Nat :=
  (detector.sentinels.map (pendingBytes buffer)).foldl max 0

end PromptDetector
end DebugClient
