import DebugClient.Memlog.Tail
import DebugClient.Proofs.Text.Lines

/-!
Following the memory log. However the target cuts what it appends, and whenever the log is polled, the
events delivered are those of the complete lines read so far, each of them once and in order.
-/

namespace DebugClient
open Text

/-- What happens to a log that is followed. -/
inductive LogStep where
  /-- The target appends bytes, wherever it may have cut them. -/
  | append (bytes : List UInt8)
  | poll

/-- A log with what has been read of it. -/
structure FollowedLog where
  /-- Nothing as long as there is no log. -/
  file : Option (List UInt8)
  tail : MemlogTail := {}
  /-- The events of all polls that succeeded. -/
  delivered : List MemlogEvent := []

namespace FollowedLog

def bytes (log : FollowedLog) : List UInt8 := log.file.getD []

def follow (log : FollowedLog) : LogStep → FollowedLog
  | .append bytes => { log with file := some (log.bytes ++ bytes) }
  | .poll =>
    match log.tail.poll log.file with
    | (.ok events, tail) => { log with tail, delivered := log.delivered ++ events }
    | (.error _, tail) => { log with tail }

def followAll (log : FollowedLog) (steps : List LogStep) : FollowedLog := steps.foldl follow log

/-- The place just past a line feed, or the beginning. -/
def IsLineStart (log : FollowedLog) (offset : Nat) : Prop :=
  offset ≤ log.bytes.length ∧ EndsWith 10 (log.bytes.take offset)

/-- The events on the lines of a text that are well formed. -/
def eventsOf (t : Text) : List MemlogEvent := (lines t).filterMap MemlogEvent.ofLine?

/-- The events delivered are those of the complete lines in front of the offset. -/
structure Faithful (log : FollowedLog) : Prop where
  offset : log.IsLineStart log.tail.offset
  delivered : ∃ read, log.bytes.take log.tail.offset = Utf8.encode read ∧
    log.delivered = eventsOf read

/-- A poll that succeeds delivers what the complete lines behind the offset hold and moves past the
    last line feed there is. One that fails has met bytes that are no text yet, and moves nowhere. -/
structure PollsLines (log : FollowedLog) : Prop where
  ok : ∀ events tail, log.tail.poll log.file = (.ok events, tail) →
    log.IsLineStart tail.offset ∧ 10 ∉ log.bytes.drop tail.offset ∧
    ∃ complete unfinished, log.bytes.drop log.tail.offset = Utf8.encode (complete ++ unfinished) ∧
      tail.offset = log.tail.offset + (Utf8.encode complete).length ∧ events = eventsOf complete
  error : ∀ fault tail, log.tail.poll log.file = (.error fault, tail) →
    tail = log.tail ∧ ∀ unread, log.bytes.drop log.tail.offset ≠ Utf8.encode unread

variable {log : FollowedLog}

theorem eventsOf_append {s : Text} (hends : EndsWith '\n' s) (t : Text) :
    eventsOf (s ++ t) = eventsOf s ++ eventsOf t := by
  rw [eventsOf, lines_append hends, List.filterMap_append, eventsOf, eventsOf]

theorem completeLines_append {front back : List UInt8} (hends : EndsWith 10 front)
    (hback : 10 ∉ back) : MemlogTail.completeLines (front ++ back) = front := by
  have hskip : ∀ b ∈ back.reverse, decide (b ≠ 10) = true := by
    intro b hb
    rw [decide_eq_true_iff]
    rintro rfl
    exact hback (List.mem_reverse.1 hb)
  rw [MemlogTail.completeLines, List.reverse_append, List.dropWhile_append_of_pos hskip]
  rcases hends.eq_nil_or with rfl | ⟨s, rfl⟩
  · rfl
  · simp

/-- A poll reads the complete lines if what has arrived is text, and nothing otherwise. -/
theorem poll_cases (file : Option (List UInt8)) (tail : MemlogTail) :
    (∃ complete unfinished, (file.getD []).drop tail.offset = Utf8.encode (complete ++ unfinished) ∧
      EndsWith '\n' complete ∧ '\n' ∉ unfinished ∧
      tail.poll file = (.ok (eventsOf complete),
        { offset := tail.offset + (Utf8.encode complete).length })) ∨
    (∀ unread, (file.getD []).drop tail.offset ≠ Utf8.encode unread) ∧
      tail.poll file = (.error .malformed, tail) := by
  rw [MemlogTail.poll]
  dsimp only
  cases harrived : Utf8.decode? ((file.getD []).drop tail.offset) with
  | none =>
    refine .inr ⟨fun unread heq => ?_, rfl⟩
    cases harrived.symm.trans (Utf8.decode?_eq_some_iff.2 heq)
  | some arrived =>
    obtain ⟨complete, unfinished, rfl, hends, hunfinished⟩ := exists_endsWith '\n' arrived
    have hbytes := Utf8.decode?_eq_some_iff.1 harrived
    have hcomplete : MemlogTail.completeLines ((file.getD []).drop tail.offset) =
        Utf8.encode complete := by
      rw [hbytes, Utf8.encode_append]
      exact completeLines_append (Utf8.endsWith_encode_iff.2 hends)
        (mt Utf8.newline_mem_encode.1 hunfinished)
    have hdecode : Utf8.decode? (Utf8.encode complete) = some complete :=
      Utf8.decode?_eq_some_iff.2 rfl
    refine .inl ⟨complete, unfinished, hbytes, hends, hunfinished, ?_⟩
    dsimp only
    rw [hcomplete, hdecode]
    rfl

theorem take_length_add {bytes front back : List UInt8} {offset : Nat}
    (hrest : bytes.drop offset = front ++ back) :
    bytes.take (offset + front.length) = bytes.take offset ++ front ∧
      bytes.drop (offset + front.length) = back := by
  rw [List.take_add, ← List.drop_drop, hrest, List.take_left, List.drop_left]
  exact ⟨rfl, rfl⟩

theorem pollsLines_of_isLineStart (hoffset : log.IsLineStart log.tail.offset) : log.PollsLines := by
  rcases poll_cases log.file log.tail with ⟨complete, unfinished, hunread, hends, hunfinished, heq⟩ |
    ⟨hunread, heq⟩
  · refine ⟨?_, ?_⟩
    · intro events tail hpoll
      obtain ⟨rfl, rfl⟩ : eventsOf complete = events ∧
          { offset := log.tail.offset + (Utf8.encode complete).length } = tail := by
        simpa [heq] using hpoll
      obtain ⟨htake, hdrop⟩ := take_length_add (hunread.trans (Utf8.encode_append ..))
      refine ⟨⟨?_, ?_⟩, ?_, complete, unfinished, hunread, rfl, rfl⟩
      · have hlength := congrArg List.length hunread
        rw [List.length_drop, Utf8.encode_append, List.length_append] at hlength
        have hle : log.tail.offset ≤ (log.file.getD []).length := hoffset.1
        dsimp only [FollowedLog.bytes]
        omega
      · change EndsWith 10 ((log.file.getD []).take _)
        rw [htake]
        exact hoffset.2.append (Utf8.endsWith_encode_iff.2 hends)
      · change 10 ∉ (log.file.getD []).drop _
        rw [hdrop]
        exact mt Utf8.newline_mem_encode.1 hunfinished
    · intro fault tail hpoll
      rw [heq] at hpoll
      cases hpoll
  · refine ⟨?_, ?_⟩
    · intro events tail hpoll
      rw [heq] at hpoll
      cases hpoll
    · intro fault tail hpoll
      rw [heq] at hpoll
      cases hpoll
      exact ⟨rfl, hunread⟩

theorem Faithful.append (hfaithful : log.Faithful) (appended : List UInt8) :
    (log.follow (.append appended)).Faithful := by
  obtain ⟨⟨hle, hends⟩, hdelivered⟩ := hfaithful
  have htake : (log.bytes ++ appended).take log.tail.offset = log.bytes.take log.tail.offset :=
    List.take_append_of_le_length hle
  refine ⟨⟨?_, ?_⟩, ?_⟩
  · change log.tail.offset ≤ (log.bytes ++ appended).length
    rw [List.length_append]
    omega
  · change EndsWith 10 ((log.bytes ++ appended).take log.tail.offset)
    rw [htake]
    exact hends
  · change ∃ read, (log.bytes ++ appended).take log.tail.offset = _ ∧ _
    rw [htake]
    exact hdelivered

/-- The complete lines read now follow those read before, and so do their events. -/
theorem Faithful.poll (hfaithful : log.Faithful) : (log.follow .poll).Faithful := by
  have hpolls := pollsLines_of_isLineStart hfaithful.offset
  obtain ⟨read, hread, hdelivered⟩ := hfaithful.delivered
  rw [follow]
  cases hpoll : log.tail.poll log.file with
  | mk answer tail =>
    cases answer with
    | ok events =>
      obtain ⟨hoffset, -, complete, unfinished, hunread, htail, rfl⟩ := hpolls.ok events tail hpoll
      obtain ⟨htake, -⟩ := take_length_add (hunread.trans (Utf8.encode_append ..))
      refine ⟨hoffset, read ++ complete, ?_, ?_⟩
      · rw [Utf8.encode_append, ← hread, ← htake, ← htail]
        rfl
      · have hends := hfaithful.offset.2
        rw [hread, Utf8.endsWith_encode_iff] at hends
        rw [eventsOf_append hends, ← hdelivered]
    | error fault =>
      obtain ⟨rfl, -⟩ := hpolls.error fault tail hpoll
      exact hfaithful

theorem faithful_followAll (file : Option (List UInt8)) (steps : List LogStep) :
    (followAll { file } steps).Faithful := by
  induction steps using List.reverseRecOn with
  | nil => exact ⟨⟨Nat.zero_le _, nofun⟩, [], rfl, rfl⟩
  | append_singleton steps step ih =>
    rw [followAll, List.foldl_append]
    cases step with
    | append appended => exact ih.append appended
    | poll => exact ih.poll

/-- However a log comes about and whenever it is polled: what has been delivered are the events of the
    complete lines in front of the offset, and the next poll goes on from there, up to the last line
    feed or not at all. -/
theorem faithful_and_pollsLines (file : Option (List UInt8)) (steps : List LogStep) :
    (followAll { file } steps).Faithful ∧ (followAll { file } steps).PollsLines :=
  have hfaithful := faithful_followAll file steps
  ⟨hfaithful, pollsLines_of_isLineStart hfaithful.offset⟩

end FollowedLog
end DebugClient
