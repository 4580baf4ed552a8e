import DebugClient.Console.Channel
import DebugClient.Proofs.Console.Prompt

/-!
The reception of one reply. While a command is in flight, its reply arrives in chunks, behind what is
still awaited of the last prompt. A chunk that stops short of the end of the stem adds to the carry
buffer; the chunk that reaches the end of the stem completes the command with the body of the reply,
and leaves what is missing of the gap to be awaited.
-/

namespace DebugClient

namespace CarryBuffer
open Text

@[simp] theorem text_takeUnstreamed (stop : Nat) (carry : CarryBuffer) :
    (carry.takeUnstreamed stop).2.text = carry.text := by
  rw [takeUnstreamed]
  split
  · rfl
  · split
    · next out held hsplit =>
      have hheld := (eq_append_of_splitAtByte? hsplit).1
      simp only [text]
      rw [hheld, List.append_assoc]
    · rfl

theorem streamed_takeUnstreamed (stop : Nat) (carry : CarryBuffer) :
    (carry.takeUnstreamed stop).2.streamed =
      carry.streamed ++ (carry.takeUnstreamed stop).1.getD [] := by
  rw [takeUnstreamed]
  split
  · simp
  · split <;> simp

/-- Nothing is handed out beyond the place asked for. -/
theorem byteLength_streamed_takeUnstreamed_le (stop : Nat) (carry : CarryBuffer) :
    byteLength (carry.takeUnstreamed stop).2.streamed ≤ max (byteLength carry.streamed) stop := by
  rw [takeUnstreamed]
  split
  · exact Nat.le_max_left _ _
  · next hbeyond =>
    split
    · next out held hsplit =>
      have hout := (eq_append_of_splitAtByte? hsplit).2
      simp only [byteLength_append, hout]
      omega
    · exact Nat.le_max_left _ _

/-- Handing out up to the end of `body` completes it. -/
theorem streamed_append_takeUnstreamed {carry : CarryBuffer} {body rest : Text}
    (htext : carry.text = body ++ rest) (hstreamed : carry.streamed <+: body) :
    carry.streamed ++ (carry.takeUnstreamed (byteLength body)).1.getD [] = body := by
  obtain ⟨unseen, hbody⟩ := hstreamed
  have hheld : carry.held = unseen ++ rest := by
    rw [text, ← hbody, List.append_assoc] at htext
    exact List.append_cancel_left htext
  have hstop : min (byteLength body) (byteLength carry.text) = byteLength body := by
    rw [htext, byteLength_append]
    omega
  have hlength : byteLength body - byteLength carry.streamed = byteLength unseen := by
    rw [← hbody, byteLength_append]
    omega
  rw [takeUnstreamed, hstop]
  split
  · next hle =>
    have hunseen : unseen = [] := by
      by_contra hne
      have := byteLength_pos_of_ne_nil hne
      omega
    simpa [hunseen] using hbody
  · rw [hlength, hheld, splitAtByte?_append]
    exact hbody

end CarryBuffer

namespace Channel
open Text

/-! ### What is awaited of the last prompt -/

theorem sharedLength_append_left (s t : Text) : sharedLength s (s ++ t) = s.length := by
  induction s with
  | nil => cases t <;> rfl
  | cons c s ih => simp [sharedLength, ih]

theorem sharedLength_append_right (s t : Text) : sharedLength (s ++ t) s = s.length := by
  induction s with
  | nil => cases t <;> rfl
  | cons c s ih => simp [sharedLength, ih]

/-- A chunk that agrees with what is awaited, as far as both go, loses exactly that. -/
theorem skipAwaited_of_append_eq {channel : Channel} {chunk rest ahead : Text}
    (happend : chunk ++ rest = channel.awaited ++ ahead) :
    channel.skipAwaited chunk = (chunk.drop channel.awaited.length,
      { channel with awaited := channel.awaited.drop chunk.length }) := by
  rcases List.append_eq_append_iff.1 happend with ⟨more, hawaited, hrest⟩ | ⟨beyond, hchunk, hahead⟩
  · have hshared : sharedLength channel.awaited chunk = chunk.length := by
      rw [hawaited, sharedLength_append_right]
    have hlength : chunk.length ≤ channel.awaited.length := by simp [hawaited]
    simp [skipAwaited, hshared, List.drop_eq_nil_of_le hlength]
  · have hshared : sharedLength channel.awaited chunk = channel.awaited.length := by
      rw [hchunk, sharedLength_append_left]
    have hlength : channel.awaited.length ≤ chunk.length := by simp [hchunk]
    simp [skipAwaited, hshared, List.drop_eq_nil_of_le hlength]

theorem eq_of_skipAwaited_eq {channel rest : Channel} {chunk skipped : Text}
    (hskip : channel.skipAwaited chunk = (skipped, rest)) :
    rest = { channel with awaited := rest.awaited } := by
  rw [skipAwaited, Prod.mk.injEq] at hskip
  rw [← hskip.2]

/-! ### Feeding a chunk -/

section
variable {channel : Channel} {flight : InFlight} {chunk : Text}

theorem feed_of_inFlight_eq_none {skipped : Text} {rest : Channel}
    (hslot : channel.inFlight = none) (hskip : channel.skipAwaited chunk = (skipped, rest)) :
    channel.feed chunk = (.unsolicited skipped, rest) := by
  have hslot' : rest.inFlight = none := by rw [eq_of_skipAwaited_eq hskip, hslot]
  rw [feed, hskip]
  simp only [hslot']

/-- Output behind which no prompt is recognised stays with the command in flight, and is handed out up
    to the tail that may still become a prompt. -/
theorem feed_of_promptMatch?_eq_none {skipped : Text} {rest : Channel}
    (hslot : channel.inFlight = some flight) (hskip : channel.skipAwaited chunk = (skipped, rest))
    (hnone : channel.detector.promptMatch? (channel.carry.text ++ skipped) = none) :
    ∃ out carry, channel.feed chunk = (.pending out, { rest with carry }) ∧
      carry.text = channel.carry.text ++ skipped ∧
      carry.streamed = channel.carry.streamed ++ out.getD [] ∧
      byteLength carry.streamed ≤ max (byteLength channel.carry.streamed)
        (byteLength carry.text - channel.detector.pendingTail carry.text) ∧
      (streams flight.command = false → out = none) := by
  have hrest := eq_of_skipAwaited_eq hskip
  have hslot' : rest.inFlight = some flight := by rw [hrest, hslot]
  have hcarry' : rest.carry = channel.carry := by rw [hrest]
  have hdetector' : rest.detector = channel.detector := by rw [hrest]
  rw [feed, hskip]
  simp only [hslot', hcarry', hdetector', CarryBuffer.text_push, hnone]
  cases hstreams : streams flight.command with
  | false =>
    refine ⟨none, channel.carry.push skipped, rfl, CarryBuffer.text_push _ _, ?_, ?_, fun _ => rfl⟩
    · simp [CarryBuffer.push]
    · exact Nat.le_max_left _ _
  | true =>
    refine ⟨_, _, rfl, ?_, CarryBuffer.streamed_takeUnstreamed _ _, ?_, by simp⟩
    · rw [CarryBuffer.text_takeUnstreamed, CarryBuffer.text_push]
    · rw [CarryBuffer.text_takeUnstreamed, CarryBuffer.text_push]
      exact CarryBuffer.byteLength_streamed_takeUnstreamed_le _ _

/-- Output that ends in a prompt completes the command in flight. -/
theorem feed_of_promptMatch?_eq_some {skipped : Text} {rest : Channel} {found : PromptMatch}
    (hslot : channel.inFlight = some flight) (hskip : channel.skipAwaited chunk = (skipped, rest))
    (hfound : channel.detector.promptMatch? (channel.carry.text ++ skipped) = some found) :
    channel.feed chunk =
      (.complete
        { response :=
            { command := flight.command
              text := takeBytes found.start (channel.carry.text ++ skipped)
              display := flight.command.display }
          tail := if streams flight.command then
            ((channel.carry.push skipped).takeUnstreamed found.start).1 else none
          ticket := flight.ticket },
        { rest with carry := {}, awaited := found.awaited, inFlight := none }) := by
  have hrest := eq_of_skipAwaited_eq hskip
  have hslot' : rest.inFlight = some flight := by rw [hrest, hslot]
  have hcarry' : rest.carry = channel.carry := by rw [hrest]
  have hdetector' : rest.detector = channel.detector := by rw [hrest]
  rw [feed, hskip]
  simp only [hslot', hcarry', hdetector', CarryBuffer.text_push, hfound]
  cases streams flight.command with
  | false => simp [CarryBuffer.finish]
  | true => simp [CarryBuffer.finish]

/-- A chunk is unsolicited, leaves the command in flight pending, or completes it. -/
theorem feed_cases (chunk : Text) (channel : Channel) :
    (∃ text awaited, channel.inFlight = none ∧
      channel.feed chunk = (.unsolicited text, { channel with awaited })) ∨
    (∃ flight out carry awaited, channel.inFlight = some flight ∧
      channel.feed chunk = (.pending out, { channel with carry, awaited })) ∨
    (∃ flight text tail awaited, channel.inFlight = some flight ∧
      channel.feed chunk =
        (.complete { response := ⟨flight.command, text, flight.command.display⟩
                     tail
                     ticket := flight.ticket },
          { channel with carry := {}, awaited, inFlight := none })) := by
  obtain ⟨skipped, rest, hskip⟩ : ∃ skipped rest, channel.skipAwaited chunk = (skipped, rest) :=
    ⟨_, _, rfl⟩
  have hrest := eq_of_skipAwaited_eq hskip
  cases hslot : channel.inFlight with
  | none =>
    refine .inl ⟨skipped, rest.awaited, rfl, ?_⟩
    rw [feed_of_inFlight_eq_none hslot hskip, ← hslot]
    exact congrArg _ hrest
  | some flight =>
    right
    cases hmatch : channel.detector.promptMatch? (channel.carry.text ++ skipped) with
    | none =>
      obtain ⟨out, carry, hfeed, -⟩ := feed_of_promptMatch?_eq_none hslot hskip hmatch
      refine .inl ⟨flight, out, carry, rest.awaited, rfl, ?_⟩
      rw [hfeed, hrest, ← hslot]
    | some found =>
      have hfeed := feed_of_promptMatch?_eq_some hslot hskip hmatch
      rw [hrest] at hfeed
      exact .inr ⟨flight, _, _, found.awaited, rfl, hfeed⟩

end

/-! ### Feeding a chunk of a well framed reply -/

/-- The command in flight receives the well framed reply `body`, of which `ahead` is still to come up
    to the end of the stem. -/
structure Receives (channel : Channel) (flight : InFlight) (stem gap body ahead : Text) : Prop where
  primary : channel.detector.Primary stem gap
  frames : channel.detector.Frames stem body
  inFlight : channel.inFlight = some flight
  text : channel.carry.text ++ ahead = body ++ stem
  ahead_ne_nil : ahead ≠ []

variable {channel : Channel} {flight : InFlight} {stem gap body ahead chunk rest : Text}

/-- A chunk that stops short of the end of the stem leaves the command in flight. What it hands out
    for display continues the body from where it was. -/
theorem Receives.feed_short (hreceives : channel.Receives flight stem gap body ahead)
    (happend : chunk ++ rest = channel.awaited ++ ahead) (hrest : rest ≠ []) :
    ∃ out carry ahead', channel.feed chunk = (.pending out,
        { channel with carry, awaited := channel.awaited.drop chunk.length }) ∧
      Receives { channel with carry, awaited := channel.awaited.drop chunk.length }
        flight stem gap body ahead' ∧
      rest = channel.awaited.drop chunk.length ++ ahead' ∧
      carry.streamed = channel.carry.streamed ++ out.getD [] ∧
      (streams flight.command = false → out = none) ∧
      (channel.carry.streamed <+: body → carry.streamed <+: body) := by
  obtain ⟨hprimary, hframes, hslot, htext, hahead⟩ := hreceives
  obtain ⟨ahead', rfl, hrest'⟩ := exists_common_tail happend
  have hahead' : ahead' ≠ [] := by
    rintro rfl
    rw [List.append_nil] at hahead hrest'
    have hlength : channel.awaited.length < chunk.length := by
      by_contra hle
      exact hahead (List.drop_eq_nil_of_le (Nat.le_of_not_lt hle))
    exact hrest (hrest'.trans (List.drop_eq_nil_of_le (Nat.le_of_lt hlength)))
  have hskip := skipAwaited_of_append_eq happend
  rw [← List.append_assoc] at htext
  have hlead : channel.carry.text ++ chunk.drop channel.awaited.length <+: body ++ stem :=
    ⟨ahead', htext⟩
  have hshort : channel.carry.text ++ chunk.drop channel.awaited.length ≠ body ++ stem := by
    intro heq
    rw [heq] at htext
    exact hahead' (by simpa using htext)
  obtain ⟨out, carry, hfeed, hcarry, hstreamed, hbound, hhidden⟩ :=
    feed_of_promptMatch?_eq_none hslot hskip (hframes.early _ hlead hshort)
  refine ⟨out, carry, ahead', hfeed, ⟨hprimary, hframes, hslot, ?_, hahead'⟩, hrest', hstreamed,
    hhidden, ?_⟩
  · rw [hcarry, htext]
  · intro hseen
    have hpart : carry.streamed <+: body ++ stem :=
      (List.prefix_append _ _).trans (hcarry ▸ hlead)
    apply prefix_of_byteLength_le hpart (List.prefix_append _ _)
    have hheld := PromptDetector.byteLength_sub_pendingTail_le hprimary hlead hshort
    obtain ⟨unseen, rfl⟩ := hseen
    have hbody := byteLength_append channel.carry.streamed unseen
    rw [hcarry] at hbound
    omega

/-- The chunk that reaches the end of the stem completes the command with the whole body, and what
    has been handed out for display is then the body too. -/
theorem Receives.feed_whole (hreceives : channel.Receives flight stem gap body ahead)
    {arrived missing : Text} (hgap : gap = arrived ++ missing) :
    ∃ tail, channel.feed (channel.awaited ++ ahead ++ arrived) =
        (.complete { response := ⟨flight.command, body, flight.command.display⟩
                     tail
                     ticket := flight.ticket },
          { channel with carry := {}, awaited := missing, inFlight := none }) ∧
      (streams flight.command = false → tail = none) ∧
      (streams flight.command = true → channel.carry.streamed <+: body →
        channel.carry.streamed ++ tail.getD [] = body) := by
  obtain ⟨hprimary, hframes, hslot, htext, hahead⟩ := hreceives
  have hskip : channel.skipAwaited (channel.awaited ++ ahead ++ arrived) =
      (ahead ++ arrived, { channel with awaited := [] }) := by
    have happend : channel.awaited ++ ahead ++ arrived ++ [] =
        channel.awaited ++ (ahead ++ arrived) := by simp
    rw [skipAwaited_of_append_eq happend]
    simp
  have hbuffer : channel.carry.text ++ (ahead ++ arrived) = body ++ stem ++ arrived := by
    rw [← List.append_assoc, htext]
  have hfound := hframes.promptMatch?_append_gap hprimary.installed hgap
  rw [← hbuffer] at hfound
  have hbody : takeBytes (byteLength body) (channel.carry.text ++ (ahead ++ arrived)) = body := by
    rw [hbuffer, List.append_assoc, takeBytes_append]
  refine ⟨if streams flight.command then
    ((channel.carry.push (ahead ++ arrived)).takeUnstreamed (byteLength body)).1 else none,
    ?_, ?_, ?_⟩
  · rw [feed_of_promptMatch?_eq_some hslot hskip hfound, hbody]
  · intro hhidden
    rw [hhidden]
    rfl
  · intro hstreams hseen
    have htotal : (channel.carry.push (ahead ++ arrived)).text = body ++ (stem ++ arrived) := by
      rw [CarryBuffer.text_push, hbuffer, List.append_assoc]
    rw [if_pos hstreams]
    exact CarryBuffer.streamed_append_takeUnstreamed htotal hseen

end Channel
end DebugClient
