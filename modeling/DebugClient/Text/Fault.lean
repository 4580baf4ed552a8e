/-!
Why something written is not read.
-/

namespace DebugClient

inductive Fault where
  /-- It stops too early. -/
  | truncated
  /-- It is wrong, or is not what was asked for. -/
  | malformed
  deriving DecidableEq, Repr

end DebugClient
