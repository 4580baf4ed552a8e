import DebugClient.Memlog.Event
import DebugClient.Text.Utf8

/-!
Following the memory log while the target appends to it.
-/

namespace DebugClient

/-- How much of the log has been read. -/
structure MemlogTail where
  offset : Nat := 0
  deriving DecidableEq, Repr

namespace MemlogTail

/-- The bytes up to the last line feed. A line that is still being written waits. -/
def completeLines (bytes : List UInt8) : List UInt8 :=
  (bytes.reverse.dropWhile (· ≠ 10)).reverse

/-- The events on the complete lines that have come since the last poll. As long as what has come
    is not text, the poll fails and the same bytes are looked at again. A log that is not there
    reads as an empty one. -/
def poll (file : Option (List UInt8)) (tail : MemlogTail) :
    Except Fault (List MemlogEvent) × MemlogTail :=
  let arrived := (file.getD []).drop tail.offset
  match Utf8.decode? arrived with
  | none => (.error .malformed, tail)
  | some _ =>
    let complete := completeLines arrived
    (.ok ((Text.lines ((Utf8.decode? complete).getD [])).filterMap MemlogEvent.ofLine?),
      { offset := tail.offset + complete.length })

end MemlogTail
end DebugClient
