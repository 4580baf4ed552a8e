import DebugClient.Proofs.Memlog.Tail
import DebugClient.Proofs.Text.Joining

/-!
Which events of the memory log are delivered. Each line is an event or malformed by itself, whatever its
bytes are. But what has arrived since the last poll is read as one text: as long as all of it is text,
malformed lines are passed over, and where it is not, no line of it is delivered. A complete line that is
not text stays in the way for good.
-/

namespace DebugClient
open Text

/-- The event on a line of bytes; none on one that is malformed, also if it is not even text. -/
def MemlogEvent.ofBytes? (line : List UInt8) : Option MemlogEvent :=
  (Utf8.decode? line).bind MemlogEvent.ofLine?

namespace FollowedLog

/-- The lines that have been ended. -/
def endedLines (bytes : List UInt8) : List (List UInt8) := (pieces (· == 10) bytes).dropLast

/-- The events on the lines that have been ended, each line read by itself. -/
def eventsIn (bytes : List UInt8) : List MemlogEvent :=
  (endedLines bytes).filterMap MemlogEvent.ofBytes?

/-- What the next poll looks at. -/
def unread (log : FollowedLog) : List UInt8 := log.bytes.drop log.tail.offset

/-- A log that is polled delivers the events on all complete lines of the file exactly if what it has not
    read yet is text or holds no events. If it is not text, the poll changes nothing, and if this is
    because of a complete line, nothing that follows changes what has been delivered. -/
structure Delivers (log : FollowedLog) : Prop where
  all_iff : (log.follow .poll).delivered = eventsIn log.bytes ↔
    (∃ t, log.unread = Utf8.encode t) ∨ eventsIn log.unread = []
  refused : (∀ t, log.unread ≠ Utf8.encode t) → log.follow .poll = log
  stuck : ∀ line ∈ endedLines log.unread, Utf8.decode? line = none →
    ∀ later, (log.followAll later).delivered = log.delivered

variable {log : FollowedLog}

/-! ### Lines of bytes -/

theorem endedLines_append_cons (front back : List UInt8) :
    endedLines (front ++ 10 :: back) = pieces (· == 10) front ++ endedLines back := by
  rw [endedLines, pieces_append_cons (by rfl), List.dropLast_append_of_ne_nil (pieces_ne_nil back),
    endedLines]

theorem endedLines_of_notMem {bytes : List UInt8} (hbytes : 10 ∉ bytes) : endedLines bytes = [] := by
  rw [endedLines, pieces_of_notMem hbytes]
  rfl

/-- Behind whole lines the lines are those of what follows. -/
theorem endedLines_append {front : List UInt8} (hends : EndsWith 10 front) (back : List UInt8) :
    endedLines (front ++ back) = endedLines front ++ endedLines back := by
  rcases hends.eq_nil_or with rfl | ⟨front, rfl⟩
  · rfl
  · have hempty : endedLines [] = [] := endedLines_of_notMem List.not_mem_nil
    rw [List.append_assoc, List.singleton_append, endedLines_append_cons, endedLines_append_cons, hempty,
      List.append_nil]

/-- A line that has been ended stays one, whatever is appended. -/
theorem endedLines_subset_append (bytes appended : List UInt8) :
    endedLines bytes ⊆ endedLines (bytes ++ appended) := by
  obtain ⟨front, back, rfl, hends, hback⟩ := exists_endsWith 10 bytes
  rw [List.append_assoc, endedLines_append hends, endedLines_append hends, endedLines_of_notMem hback,
    List.append_nil]
  exact List.subset_append_left _ _

theorem eventsIn_append {front : List UInt8} (hends : EndsWith 10 front) (back : List UInt8) :
    eventsIn (front ++ back) = eventsIn front ++ eventsIn back := by
  rw [eventsIn, endedLines_append hends, List.filterMap_append, eventsIn, eventsIn]

theorem eventsIn_of_notMem {bytes : List UInt8} (hbytes : 10 ∉ bytes) : eventsIn bytes = [] := by
  rw [eventsIn, endedLines_of_notMem hbytes, List.filterMap_nil]

/-! ### Lines of text -/

/-- An encoded text is cut where the text is. -/
theorem pieces_encode (t : Text) :
    pieces (· == 10) (Utf8.encode t) = (pieces (· == '\n') t).map Utf8.encode := by
  induction t with
  | nil => rfl
  | cons c t ih =>
    have hne : pieces (· == '\n') t ≠ [] := pieces_ne_nil t
    obtain ⟨first, others, hpieces⟩ := List.exists_cons_of_ne_nil hne
    rw [hpieces, List.map_cons] at ih
    have hencode : Utf8.encode (c :: t) = String.utf8EncodeChar c ++ Utf8.encode t := List.flatMap_cons
    by_cases hc : c = '\n'
    · subst hc
      have hnewline : String.utf8EncodeChar '\n' = [10] := by rfl
      rw [hencode, hnewline, List.singleton_append, pieces, if_pos (by rfl), ih, pieces,
        if_pos (by rfl), hpieces]
      rfl
    · have hnone : ∀ b ∈ String.utf8EncodeChar c, ¬ (b == 10) = true := by
        intro b hb
        rw [beq_iff_eq]
        rintro rfl
        exact hc (Utf8.newline_mem_utf8EncodeChar.1 hb)
      rw [hencode, pieces_append_of_forall_not hnone ih, pieces, if_neg (by simpa using hc), hpieces]
      rfl

theorem ofBytes?_encode (line : Text) :
    MemlogEvent.ofBytes? (Utf8.encode line) = MemlogEvent.ofLine? line := by
  rw [MemlogEvent.ofBytes?, Utf8.decode?_eq_some_iff.2 rfl, Option.bind_some]

theorem ofLine?_chomp (line : Text) :
    MemlogEvent.ofLine? (chomp '\r' line) = MemlogEvent.ofLine? line := by
  rw [MemlogEvent.ofLine?, trim_chomp, MemlogEvent.ofLine?]

/-- In whole lines of text the events are the same for bytes and for characters. -/
theorem eventsIn_encode {t : Text} (hends : EndsWith '\n' t) :
    eventsIn (Utf8.encode t) = eventsOf t := by
  rcases hends.eq_nil_or with rfl | ⟨t, rfl⟩
  · rfl
  · have hencode : Utf8.encode (t ++ ['\n']) = Utf8.encode t ++ [10] := Utf8.encode_append ..
    have hempty : endedLines [] = [] := endedLines_of_notMem List.not_mem_nil
    have hbytes : MemlogEvent.ofBytes? ∘ Utf8.encode = MemlogEvent.ofLine? := funext ofBytes?_encode
    have hlines : MemlogEvent.ofLine? ∘ chomp '\r' = MemlogEvent.ofLine? := funext ofLine?_chomp
    calc eventsIn (Utf8.encode (t ++ ['\n']))
        = (pieces (· == 10) (Utf8.encode t)).filterMap MemlogEvent.ofBytes? := by
          rw [hencode, eventsIn, endedLines_append_cons, hempty, List.append_nil]
      _ = (pieces (· == '\n') t).filterMap MemlogEvent.ofLine? := by
          rw [pieces_encode, List.filterMap_map, hbytes]
      _ = eventsOf (t ++ ['\n']) := by
          rw [eventsOf, lines_append_cons, List.filterMap_append, List.filterMap_map, hlines]
          exact (List.append_nil _).symm

/-- Where all of it is text, every line is. -/
theorem isSome_decode?_of_mem_endedLines {t : Text} {line : List UInt8}
    (hline : line ∈ endedLines (Utf8.encode t)) : (Utf8.decode? line).isSome := by
  rw [endedLines, pieces_encode] at hline
  obtain ⟨piece, -, rfl⟩ := List.mem_map.1 (List.mem_of_mem_dropLast hline)
  rw [Utf8.decode?_eq_some_iff.2 rfl]
  rfl

/-! ### Polls -/

/-- What has been delivered are the events in front of what has not been read. -/
theorem Faithful.eventsIn_eq (hfaithful : log.Faithful) :
    eventsIn log.bytes = log.delivered ++ eventsIn log.unread := by
  obtain ⟨read, hread, hdelivered⟩ := hfaithful.delivered
  have hends := hfaithful.offset.2
  have hbytes : log.bytes = Utf8.encode read ++ log.unread := by
    rw [← hread, unread, List.take_append_drop]
  rw [hread] at hends
  rw [hbytes, eventsIn_append hends, eventsIn_encode (Utf8.endsWith_encode_iff.1 hends), hdelivered]

/-- A poll that succeeds delivers all events there are. -/
theorem Faithful.delivered_of_text (hfaithful : log.Faithful) {t : Text}
    (htext : log.unread = Utf8.encode t) : (log.follow .poll).delivered = eventsIn log.bytes := by
  rcases poll_cases log.file log.tail with ⟨complete, unfinished, hunread, hends, hunfinished, heq⟩ |
    ⟨hunread, -⟩
  · have hevents : eventsIn log.unread = eventsOf complete := by
      change eventsIn ((log.file.getD []).drop log.tail.offset) = _
      rw [hunread, Utf8.encode_append, eventsIn_append (Utf8.endsWith_encode_iff.2 hends),
        eventsIn_encode hends, eventsIn_of_notMem (mt Utf8.newline_mem_encode.1 hunfinished),
        List.append_nil]
    rw [hfaithful.eventsIn_eq, hevents, follow, heq]
  · exact absurd htext (hunread t)

theorem follow_poll_of_not_text (hunread : ∀ t, log.unread ≠ Utf8.encode t) :
    log.follow .poll = log := by
  rcases poll_cases log.file log.tail with ⟨complete, unfinished, htext, -⟩ | ⟨-, heq⟩
  · exact absurd htext (hunread _)
  · rw [follow, heq]

/-- A complete line that is not text stays in what has not been read. -/
theorem Faithful.stuck_follow (hfaithful : log.Faithful) {line : List UInt8}
    (hline : line ∈ endedLines log.unread) (hmalformed : Utf8.decode? line = none) (step : LogStep) :
    line ∈ endedLines (log.follow step).unread ∧ (log.follow step).delivered = log.delivered := by
  cases step with
  | append appended =>
    have hunread : (log.follow (.append appended)).unread = log.unread ++ appended :=
      List.drop_append_of_le_length hfaithful.offset.1
    rw [hunread]
    exact ⟨endedLines_subset_append _ _ hline, rfl⟩
  | poll =>
    rw [follow_poll_of_not_text]
    · exact ⟨hline, rfl⟩
    · intro t htext
      rw [htext] at hline
      have hsome := isSome_decode?_of_mem_endedLines hline
      rw [hmalformed] at hsome
      cases hsome

theorem Faithful.follow (hfaithful : log.Faithful) (step : LogStep) : (log.follow step).Faithful := by
  cases step with
  | append appended => exact hfaithful.append appended
  | poll => exact hfaithful.poll

theorem Faithful.stuck_followAll (hfaithful : log.Faithful) {line : List UInt8}
    (hline : line ∈ endedLines log.unread) (hmalformed : Utf8.decode? line = none)
    (later : List LogStep) : (log.followAll later).delivered = log.delivered := by
  induction later generalizing log with
  | nil => rfl
  | cons step later ih =>
    obtain ⟨hstays, hsame⟩ := hfaithful.stuck_follow hline hmalformed step
    exact (ih (hfaithful.follow step) hstays).trans hsame

/-- However a log comes about and whenever it is polled, what is delivered next depends on whether all
    that has not been read is text. -/
theorem delivers_followAll (file : Option (List UInt8)) (steps : List LogStep) :
    (followAll { file } steps).Delivers := by
  have hfaithful := faithful_followAll file steps
  refine ⟨?_, follow_poll_of_not_text, fun line hline hmalformed =>
    hfaithful.stuck_followAll hline hmalformed⟩
  by_cases htext : ∃ t, (followAll { file } steps).unread = Utf8.encode t
  · obtain ⟨t, ht⟩ := htext
    exact ⟨fun _ => .inl ⟨t, ht⟩, fun _ => hfaithful.delivered_of_text ht⟩
  · rw [follow_poll_of_not_text (not_exists.1 htext), hfaithful.eventsIn_eq, List.self_eq_append_right]
    exact ⟨.inr, fun hcases => hcases.resolve_left htext⟩

/-- The event behind a line with a byte that occurs in no text is not delivered. -/
theorem not_delivered_behind_malformed :
    let event := Utf8.encode "\x7b\"kind\":\"local\",\"site\":1\x7d\n".toList
    let log := followAll { file := none } [.append [0xff, 10], .append event, .poll]
    log.delivered = [] ∧ eventsIn log.bytes = [.localVariable 1 []] := by
  decide +kernel

end FollowedLog
end DebugClient
