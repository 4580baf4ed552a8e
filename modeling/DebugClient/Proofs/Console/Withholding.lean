import DebugClient.Proofs.Console.Reception
import DebugClient.Proofs.Console.Recognition

/-!
What is held back of the output. While the reply to a command arrives, it is handed out up to the longest
tail that may still grow into a prompt. Whatever comes behind a buffer that does not end in a prompt, a
prompt begins in that tail or behind it, and there is something that makes one begin with the tail. So
nothing that has been handed out can turn out to belong to a prompt, and no less could be held back.
-/

namespace DebugClient

namespace PromptDetector
open Text

/-- Every sentinel other than blank ends in spaces and tabs, or in no white space at all. -/
def EndInGaps (sentinels : List Text) : Prop :=
  ∀ sentinel ∈ sentinels, ¬ IsGap sentinel →
    ∀ c ∈ sentinel.drop (trimEnd sentinel).length, isGap c

instance (sentinels : List Text) : Decidable (EndInGaps sentinels) :=
  decidable_of_iff (sentinels.all fun sentinel =>
      IsGap sentinel || (sentinel.drop (trimEnd sentinel).length).all isGap)
    (by simp [EndInGaps, or_iff_not_imp_left])

/-- The text is the beginning of a sentinel, short of all of it. -/
def Begins (detector : PromptDetector) (part : Text) : Prop :=
  ∃ sentinel ∈ detector.sentinels, part <+: sentinel ∧ part ≠ sentinel

/-- The tail held back of the buffer is all that may become part of a prompt, and it may. -/
structure HoldsBack (detector : PromptDetector) (buffer : Text) : Prop where
  /-- The tail begins where a character does. -/
  boundary : ∃ front tail, buffer = front ++ tail ∧ byteLength tail = detector.pendingTail buffer ∧
    byteLength front = byteLength buffer - detector.pendingTail buffer
  /-- No prompt begins in front of the tail, whatever is still to come. -/
  bound : ∀ more found, detector.promptMatch? (buffer ++ more) = some found →
    byteLength buffer - detector.pendingTail buffer ≤ found.start
  /-- Something may come that makes the tail the beginning of the prompt. -/
  needed : 0 < detector.pendingTail buffer → ∃ more found,
    detector.promptMatch? (buffer ++ more) = some found ∧
      found.start = byteLength buffer - detector.pendingTail buffer
  /-- The place where the tail begins only moves on. -/
  grows : ∀ more, byteLength buffer - detector.pendingTail buffer ≤
    byteLength (buffer ++ more) - detector.pendingTail (buffer ++ more)

variable {detector : PromptDetector} {sentinels : List Text}
  {sentinel buffer front part gap more : Text} {found : PromptMatch}

/-! ### The longest tail that begins a sentinel -/

theorem Begins.of_append (hbegins : detector.Begins (part ++ more)) : detector.Begins part := by
  obtain ⟨sentinel, hmem, hlead, hne⟩ := hbegins
  refine ⟨sentinel, hmem, (List.prefix_append part more).trans hlead, ?_⟩
  rintro rfl
  exact hne ((List.prefix_append _ more).eq_of_length_le hlead.length_le).symm

theorem byteLength_le_pendingTail (hbegins : detector.Begins part) (front : Text) :
    byteLength part ≤ detector.pendingTail (front ++ part) := by
  obtain ⟨sentinel, hmem, hlead, hne⟩ := hbegins
  have htake : sentinel.take part.length = part := (List.prefix_iff_eq_take.1 hlead).symm
  have hlength : part.length < sentinel.length :=
    lt_of_le_of_ne hlead.length_le fun heq => hne (hlead.eq_of_length heq)
  have hends : sentinel.take part.length <:+ front ++ part := by
    rw [htake]
    exact List.suffix_append front part
  have hpending := byteLength_le_pendingBytes hlength hends
  rw [htake] at hpending
  exact hpending.trans (pendingBytes_le_pendingTail hmem _)

theorem exists_pendingBytes (hpositive : 0 < pendingBytes buffer sentinel) :
    ∃ front part, buffer = front ++ part ∧ byteLength part = pendingBytes buffer sentinel ∧
      part <+: sentinel ∧ part ≠ sentinel := by
  unfold pendingBytes at hpositive ⊢
  dsimp only at hpositive ⊢
  split at hpositive
  · next beginning hfind =>
    have hbefore : (before? beginning buffer).isSome := by simpa using List.find?_some hfind
    obtain ⟨front, hbuffer⟩ := Option.isSome_iff_exists.1 hbefore
    obtain ⟨k, hk, rfl⟩ := List.mem_map.1 (List.mem_of_find?_eq_some hfind)
    have hshort : k < sentinel.length := by simpa using hk
    refine ⟨front, _, before?_eq_some_iff.1 hbuffer, rfl, List.take_prefix _ _, ?_⟩
    intro hwhole
    have := congrArg List.length hwhole
    rw [List.length_take] at this
    omega
  · omega

theorem exists_pendingTail (detector : PromptDetector) (buffer : Text) :
    ∃ front part, buffer = front ++ part ∧ byteLength part = detector.pendingTail buffer ∧
      byteLength front = byteLength buffer - detector.pendingTail buffer ∧
      (part ≠ [] → detector.Begins part) := by
  by_cases hpositive : 0 < detector.pendingTail buffer
  · obtain ⟨sentinel, hmem, hlongest⟩ : ∃ sentinel ∈ detector.sentinels,
        pendingBytes buffer sentinel = detector.pendingTail buffer := by
      rw [pendingTail, List.foldl_max] at hpositive ⊢
      cases hmax : (detector.sentinels.map (pendingBytes buffer)).max? with
      | none =>
        rw [hmax] at hpositive
        exact absurd hpositive (by decide)
      | some bytes =>
        rw [Option.getD_some, Nat.zero_max]
        exact List.mem_map.1 (List.max?_mem hmax)
    rw [← hlongest] at hpositive ⊢
    obtain ⟨front, part, hbuffer, hlength, hlead, hne⟩ := exists_pendingBytes hpositive
    refine ⟨front, part, hbuffer, hlength, ?_, fun _ => ⟨sentinel, hmem, hlead, hne⟩⟩
    rw [← hlength, hbuffer, byteLength_append, Nat.add_sub_cancel]
  · have hnothing : detector.pendingTail buffer = 0 := Nat.eq_zero_of_not_pos hpositive
    rw [hnothing]
    exact ⟨buffer, [], (List.append_nil buffer).symm, rfl, rfl, fun hne => absurd rfl hne⟩

/-- The place where the tail begins only moves on. -/
theorem grows_pendingTail (detector : PromptDetector) (buffer more : Text) :
    byteLength buffer - detector.pendingTail buffer ≤
      byteLength (buffer ++ more) - detector.pendingTail (buffer ++ more) := by
  obtain ⟨front, part, happend, -, hfront, hbegins⟩ := exists_pendingTail detector (buffer ++ more)
  rw [← hfront]
  rcases List.append_eq_append_iff.1 happend with ⟨beyond, hbeyond, -⟩ | ⟨seen, hbuffer, hpart⟩
  · rw [hbeyond, byteLength_append]
    omega
  · -- What the buffer has of the later tail is the beginning of a sentinel already.
    by_cases hseen : seen = []
    · rw [hbuffer, hseen, List.append_nil]
      exact Nat.sub_le _ _
    · have hne : part ≠ [] := by simp [hpart, hseen]
      have hle := byteLength_le_pendingTail (hpart ▸ hbegins hne).of_append front
      rw [hbuffer, byteLength_append]
      omega

/-! ### Prompts still to come -/

/-- What stands of a prompt at the end of a buffer that does not end in one stops short of the last
    character in front of its trailing white space. -/
theorem exists_stem_rest (hmem : sentinel ∈ sentinels) (hfirm : ¬ IsGap sentinel)
    (hnone : (ofSentinels sentinels).promptMatch? (front ++ part) = none)
    (hgap : ∀ c ∈ gap, isGap c) (happend : part ++ more = trimEnd sentinel ++ gap) :
    ∃ rest, rest ≠ [] ∧ trimEnd sentinel = part ++ rest := by
  have hshort : ∀ arrived, (∀ c ∈ arrived, isGap c) → part ≠ trimEnd sentinel ++ arrived := by
    rintro arrived harrived rfl
    obtain ⟨found, hfound, -⟩ :=
      exists_promptMatch? hmem hfirm ⟨arrived, harrived, (List.append_assoc front _ _).symm⟩
    rw [hnone] at hfound
    cases hfound
  rcases List.append_eq_append_iff.1 happend with ⟨rest, hstem, -⟩ | ⟨arrived, hpart, hrest⟩
  · refine ⟨rest, ?_, hstem⟩
    rintro rfl
    exact hshort [] (by simp) (by simpa using hstem.symm)
  · exact absurd hpart (hshort arrived fun c hc => hgap c (by simp [hrest, hc]))

theorem prefix_of_trimEnd (sentinel : Text) : trimEnd sentinel <+: sentinel := by
  obtain ⟨gap, -, heq⟩ := exists_eq_trimEnd sentinel
  exact ⟨gap, heq.symm⟩

theorem begins_of_stem (hmem : sentinel ∈ sentinels) (hfirm : ¬ IsGap sentinel)
    {rest : Text} (hrest : rest ≠ []) (hstem : trimEnd sentinel = part ++ rest) :
    (ofSentinels sentinels).Begins part := by
  have hlead : part <+: trimEnd sentinel := hstem ▸ List.prefix_append part rest
  refine ⟨sentinel, mem_ofSentinels_iff.2 ⟨hmem, hfirm⟩, hlead.trans (prefix_of_trimEnd _), ?_⟩
  rintro rfl
  have hlength := (prefix_of_trimEnd part).length_le
  rw [hstem, List.length_append] at hlength
  exact hrest (List.eq_nil_of_length_eq_zero (by omega))

/-- No prompt begins in front of the tail held back. -/
theorem le_start_of_promptMatch? (hnone : (ofSentinels sentinels).promptMatch? buffer = none)
    (hfound : (ofSentinels sentinels).promptMatch? (buffer ++ more) = some found) :
    byteLength buffer - (ofSentinels sentinels).pendingTail buffer ≤ found.start := by
  obtain ⟨front, hstart, ⟨sentinel, hmem, hfirm, gap, hgap, happend⟩, -⟩ := exists_endsIn hfound
  rw [← hstart]
  rw [List.append_assoc] at happend
  rcases List.append_eq_append_iff.1 happend with ⟨beyond, hfront, -⟩ | ⟨part, rfl, hpart⟩
  · rw [hfront, byteLength_append]
    omega
  · obtain ⟨rest, hrest, hstem⟩ := exists_stem_rest hmem hfirm hnone hgap hpart.symm
    have hle := byteLength_le_pendingTail (begins_of_stem hmem hfirm hrest hstem) front
    rw [byteLength_append]
    omega

/-- The rest of the sentinel that the tail begins makes the tail the beginning of the prompt. -/
theorem exists_promptMatch?_of_pendingTail (hgaps : EndInGaps sentinels)
    (hnone : (ofSentinels sentinels).promptMatch? buffer = none)
    (hpositive : 0 < (ofSentinels sentinels).pendingTail buffer) :
    ∃ more found, (ofSentinels sentinels).promptMatch? (buffer ++ more) = some found ∧
      found.start = byteLength buffer - (ofSentinels sentinels).pendingTail buffer := by
  obtain ⟨front, part, rfl, hlength, hfront, hbegins⟩ :=
    exists_pendingTail (ofSentinels sentinels) buffer
  have hpart : part ≠ [] := by
    rintro rfl
    rw [← hlength] at hpositive
    exact absurd hpositive (by decide)
  obtain ⟨sentinel, hlisted, ⟨later, hlater⟩, -⟩ := hbegins hpart
  obtain ⟨hmem, hfirm⟩ := mem_ofSentinels_iff.1 hlisted
  obtain ⟨trailing, -, heq⟩ := exists_eq_trimEnd sentinel
  have htrailing : ∀ c ∈ trailing, isGap c := by
    have hdrop := congrArg (List.drop (trimEnd sentinel).length) heq
    rw [List.drop_left] at hdrop
    exact hdrop ▸ hgaps sentinel hmem hfirm
  obtain ⟨rest, -, hstem⟩ := exists_stem_rest hmem hfirm hnone htrailing (hlater.trans heq)
  have hends : EndsIn sentinel front (front ++ trimEnd sentinel) :=
    ⟨[], by simp, (List.append_nil _).symm⟩
  obtain ⟨found, hfound, hle⟩ := exists_promptMatch? hmem hfirm hends
  rw [hstem, ← List.append_assoc] at hfound
  have hge := le_start_of_promptMatch? hnone hfound
  exact ⟨rest, found, hfound, Nat.le_antisymm (hle.trans_eq hfront) hge⟩

theorem holdsBack_ofSentinels (hgaps : EndInGaps sentinels)
    (hnone : (ofSentinels sentinels).promptMatch? buffer = none) :
    (ofSentinels sentinels).HoldsBack buffer where
  boundary := by
    obtain ⟨front, part, happend, hlength, hfront, -⟩ :=
      exists_pendingTail (ofSentinels sentinels) buffer
    exact ⟨front, part, happend, hlength, hfront⟩
  bound _ _ hfound := le_start_of_promptMatch? hnone hfound
  needed := exists_promptMatch?_of_pendingTail hgaps hnone
  grows := grows_pendingTail _ buffer

theorem promptMatch?_nil (sentinels : List Text) :
    (ofSentinels sentinels).promptMatch? [] = none := by
  rw [Option.eq_none_iff_forall_ne_some]
  intro found hfound
  obtain ⟨front, -, ⟨sentinel, -, hfirm, gap, -, hnil⟩, -⟩ := exists_endsIn hfound
  have hstem : trimEnd sentinel = [] := by
    rw [List.append_assoc] at hnil
    exact (List.append_eq_nil_iff.1 (List.append_eq_nil_iff.1 hnil.symm).2).1
  exact trimEnd_ne_nil hfirm hstem

end PromptDetector

namespace CarryBuffer
open Text

theorem streamed_prefix_append (carry : CarryBuffer) (more : Text) :
    carry.streamed <+: carry.text ++ more :=
  (List.prefix_append _ carry.held).trans (List.prefix_append _ more)

/-- Handing out up to a place that has not been passed leaves just what is behind it. -/
theorem takeUnstreamed_of_append {carry : CarryBuffer} {front part : Text}
    (htext : carry.text = front ++ part) (hlead : carry.streamed <+: front) :
    (carry.takeUnstreamed (byteLength front)).2 = { streamed := front, held := part } ∧
      front = carry.streamed ++ (carry.takeUnstreamed (byteLength front)).1.getD [] := by
  have hout := streamed_append_takeUnstreamed htext hlead
  have hstreamed := streamed_takeUnstreamed (byteLength front) carry
  have hwhole := text_takeUnstreamed (byteLength front) carry
  rw [hout] at hstreamed
  rw [htext, text, hstreamed] at hwhole
  have hheld := List.append_cancel_left hwhole
  refine ⟨?_, hout.symm⟩
  generalize (carry.takeUnstreamed (byteLength front)).2 = next at hstreamed hheld
  rw [← hstreamed, ← hheld]

end CarryBuffer

/-- What a chunk hands out of the reply to the command in flight. -/
def Feed.out : Feed → Text
  | .unsolicited _ => []
  | .pending out => out.getD []
  | .complete completion => completion.tail.getD []

namespace Channel
open Text PromptDetector

/-- Take in chunks of output one after another. -/
def feedAll : List Text → Channel → List Feed × Channel
  | [], channel => ([], channel)
  | chunk :: chunks, channel =>
    let (fed, next) := channel.feed chunk
    let (feeds, last) := next.feedAll chunks
    (fed :: feeds, last)

/-- The command in flight has its output handed out as it arrives, all of it up to the tail that may
    still become a prompt. -/
structure Streaming (channel : Channel) (sentinels : List Text) (flight : InFlight) : Prop where
  detector : channel.detector = ofSentinels sentinels
  inFlight : channel.inFlight = some flight
  streams : streams flight.command = true
  unended : (ofSentinels sentinels).promptMatch? channel.carry.text = none
  held : byteLength channel.carry.held = (ofSentinels sentinels).pendingTail channel.carry.text

variable {channel last : Channel} {sentinels : List Text} {flight : InFlight} {chunk : Text}
  {chunks : List Text} {feeds : List Feed}

theorem inFlight_feedAll (hslot : channel.inFlight = none) (chunks : List Text) :
    (channel.feedAll chunks).2.inFlight = none := by
  induction chunks generalizing channel with
  | nil => exact hslot
  | cons chunk chunks ih =>
    have hfeed : channel.feed chunk = (.unsolicited (channel.skipAwaited chunk).1,
        (channel.skipAwaited chunk).2) := feed_of_inFlight_eq_none hslot rfl
    rw [feedAll, hfeed]
    exact ih hslot

theorem streaming_of_carry_eq_nil (hdetector : channel.detector = ofSentinels sentinels)
    (hslot : channel.inFlight = some flight) (hstreams : streams flight.command = true)
    (hcarry : channel.carry = {}) : channel.Streaming sentinels flight := by
  refine ⟨hdetector, hslot, hstreams, ?_, ?_⟩
  · rw [hcarry]
    exact promptMatch?_nil sentinels
  · obtain ⟨front, part, hnil, hlength, -⟩ := exists_pendingTail (ofSentinels sentinels) []
    rw [(List.append_eq_nil_iff.1 hnil.symm).2] at hlength
    rw [hcarry]
    exact hlength

theorem Streaming.byteLength_streamed (hstreaming : channel.Streaming sentinels flight) :
    byteLength channel.carry.streamed =
      byteLength channel.carry.text - (ofSentinels sentinels).pendingTail channel.carry.text := by
  rw [← hstreaming.held, CarryBuffer.text, byteLength_append, Nat.add_sub_cancel]

/-- Output behind which no prompt is recognised is handed out up to the tail held back. -/
theorem feed_of_streams {skipped : Text} {rest : Channel} (hslot : channel.inFlight = some flight)
    (hstreams : streams flight.command = true) (hskip : channel.skipAwaited chunk = (skipped, rest))
    (hnone : channel.detector.promptMatch? (channel.carry.text ++ skipped) = none) :
    ∃ out carry, channel.feed chunk = (.pending out, { rest with carry }) ∧
      (channel.carry.push skipped).takeUnstreamed (byteLength (channel.carry.text ++ skipped) -
        channel.detector.pendingTail (channel.carry.text ++ skipped)) = (out, carry) := by
  have hrest := eq_of_skipAwaited_eq hskip
  have hslot' : rest.inFlight = some flight := by rw [hrest, hslot]
  have hcarry' : rest.carry = channel.carry := by rw [hrest]
  have hdetector' : rest.detector = channel.detector := by rw [hrest]
  obtain ⟨out, carry, htake⟩ : ∃ out carry, (channel.carry.push skipped).takeUnstreamed
      (byteLength (channel.carry.text ++ skipped) -
        channel.detector.pendingTail (channel.carry.text ++ skipped)) = (out, carry) := ⟨_, _, rfl⟩
  refine ⟨out, carry, ?_, htake⟩
  rw [feed, hskip]
  simp only [hslot', hcarry', hdetector', CarryBuffer.text_push, hnone, hstreams, htake, if_true]

/-- As the tail begins no earlier than before, all in front of it has been handed out behind the
    chunk. -/
theorem Streaming.feed_pending (hstreaming : channel.Streaming sentinels flight) {skipped : Text}
    {rest : Channel} (hskip : channel.skipAwaited chunk = (skipped, rest))
    (hnone : (ofSentinels sentinels).promptMatch? (channel.carry.text ++ skipped) = none) :
    ∃ out next, channel.feed chunk = (.pending out, next) ∧ next.Streaming sentinels flight ∧
      next.carry.streamed = channel.carry.streamed ++ out.getD [] := by
  have hrest := eq_of_skipAwaited_eq hskip
  have hdetector := hstreaming.detector
  obtain ⟨out, carry, hfeed, htake⟩ :=
    feed_of_streams hstreaming.inFlight hstreaming.streams hskip (by rw [hdetector, hnone])
  obtain ⟨front, part, happend, hlength, hfront, -⟩ :=
    exists_pendingTail (ofSentinels sentinels) (channel.carry.text ++ skipped)
  have hlead : channel.carry.streamed <+: front := by
    have hle := grows_pendingTail (ofSentinels sentinels) channel.carry.text skipped
    rw [← hstreaming.byteLength_streamed, ← hfront] at hle
    exact prefix_of_byteLength_le (channel.carry.streamed_prefix_append skipped)
      (happend ▸ List.prefix_append front part) hle
  rw [hdetector, ← hfront] at htake
  have hpushed : (channel.carry.push skipped).text = front ++ part := by
    rw [CarryBuffer.text_push, happend]
  obtain ⟨hcarry, hout⟩ := CarryBuffer.takeUnstreamed_of_append hpushed hlead
  rw [htake] at hcarry hout
  dsimp only at hcarry hout
  subst hcarry
  refine ⟨out, _, hfeed, ⟨?_, ?_, hstreaming.streams, ?_, ?_⟩, hout⟩
  · rw [hrest]
    exact hdetector
  · rw [hrest]
    exact hstreaming.inFlight
  · rwa [happend] at hnone
  · rwa [happend] at hlength

/-- As the prompt begins no earlier than the tail, what has been handed out is still part of the
    reply. -/
theorem Streaming.feed_complete (hstreaming : channel.Streaming sentinels flight) {skipped : Text}
    {rest : Channel} {found : PromptMatch} (hskip : channel.skipAwaited chunk = (skipped, rest))
    (hfound : (ofSentinels sentinels).promptMatch? (channel.carry.text ++ skipped) = some found) :
    ∃ completion next, channel.feed chunk = (.complete completion, next) ∧ next.inFlight = none ∧
      completion.response.text = channel.carry.streamed ++ completion.tail.getD [] := by
  have hfeed := feed_of_promptMatch?_eq_some hstreaming.inFlight hskip (hstreaming.detector ▸ hfound)
  obtain ⟨front, hstart, ⟨sentinel, -, -, gap, -, happend⟩, -⟩ := exists_endsIn hfound
  rw [List.append_assoc] at happend
  have hlead : channel.carry.streamed <+: front := by
    have hle := le_start_of_promptMatch? hstreaming.unended hfound
    rw [← hstreaming.byteLength_streamed, ← hstart] at hle
    exact prefix_of_byteLength_le (channel.carry.streamed_prefix_append skipped)
      (happend ▸ List.prefix_append front _) hle
  have hpushed : (channel.carry.push skipped).text = front ++ (trimEnd sentinel ++ gap) := by
    rw [CarryBuffer.text_push, happend]
  refine ⟨_, _, hfeed, rfl, ?_⟩
  rw [if_pos hstreaming.streams, ← hstart]
  dsimp only
  rw [happend, takeBytes_append]
  exact (CarryBuffer.takeUnstreamed_of_append hpushed hlead).2

theorem Streaming.feed (hstreaming : channel.Streaming sentinels flight) (chunk : Text) :
    (∃ out next, channel.feed chunk = (.pending out, next) ∧ next.Streaming sentinels flight ∧
      next.carry.streamed = channel.carry.streamed ++ out.getD []) ∨
    ∃ completion next, channel.feed chunk = (.complete completion, next) ∧ next.inFlight = none ∧
      completion.response.text = channel.carry.streamed ++ completion.tail.getD [] := by
  obtain ⟨skipped, rest, hskip⟩ : ∃ skipped rest, channel.skipAwaited chunk = (skipped, rest) :=
    ⟨_, _, rfl⟩
  cases hmatch : (ofSentinels sentinels).promptMatch? (channel.carry.text ++ skipped) with
  | none => exact .inl (hstreaming.feed_pending hskip hmatch)
  | some found => exact .inr (hstreaming.feed_complete hskip hmatch)

theorem Streaming.feedAll (hstreaming : channel.Streaming sentinels flight)
    (hfeeds : channel.feedAll chunks = (feeds, last)) (hlast : last.inFlight = some flight) :
    last.Streaming sentinels flight ∧
      last.carry.streamed = channel.carry.streamed ++ feeds.flatMap Feed.out := by
  induction chunks generalizing channel feeds with
  | nil =>
    cases hfeeds
    exact ⟨hstreaming, by simp⟩
  | cons chunk chunks ih =>
    rcases hstreaming.feed chunk with ⟨out, next, hfeed, hnext, hout⟩ |
      ⟨completion, next, hfeed, hslot, -⟩
    · rw [Channel.feedAll, hfeed] at hfeeds
      cases hfeeds
      obtain ⟨hfinal, hrest⟩ := ih hnext rfl
      refine ⟨hfinal, ?_⟩
      rw [hrest, hout, List.flatMap_cons, List.append_assoc]
      rfl
    · rw [Channel.feedAll, hfeed] at hfeeds
      cases hfeeds
      rw [inFlight_feedAll hslot chunks] at hlast
      cases hlast

/-- Something may come that shows all of the tail held back to belong to the prompt. -/
theorem Streaming.exists_complete (hstreaming : channel.Streaming sentinels flight)
    (hgaps : EndInGaps sentinels) (hheld : channel.carry.held ≠ []) :
    ∃ chunk completion next, channel.feed chunk = (.complete completion, next) ∧
      completion.response.text = channel.carry.streamed := by
  have hpositive := byteLength_pos_of_ne_nil hheld
  rw [hstreaming.held] at hpositive
  obtain ⟨more, found, hfound, hstart⟩ :=
    exists_promptMatch?_of_pendingTail hgaps hstreaming.unended hpositive
  rw [← hstreaming.byteLength_streamed] at hstart
  have hskip : channel.skipAwaited (channel.awaited ++ more) =
      (more, { channel with awaited := [] }) := by
    rw [skipAwaited_of_append_eq (List.append_nil _)]
    simp
  refine ⟨_, _, _, feed_of_promptMatch?_eq_some hstreaming.inFlight hskip
    (hstreaming.detector ▸ hfound), ?_⟩
  dsimp only
  rw [hstart, CarryBuffer.text, List.append_assoc, takeBytes_append]

/-- Of a buffer that does not end in a prompt just the tail is held back that may become part of one. So
    while the output of a command is handed out, in whatever chunks it arrives, what has been handed out
    is part of the reply, and what has not may be none of it. -/
theorem holdsBack_and_streams (hgaps : EndInGaps sentinels) :
    (∀ buffer, (ofSentinels sentinels).promptMatch? buffer = none →
      (ofSentinels sentinels).HoldsBack buffer) ∧
    ∀ (channel : Channel) flight, channel.detector = ofSentinels sentinels →
      channel.inFlight = some flight → streams flight.command = true → channel.carry = {} →
      ∀ chunks feeds last, channel.feedAll chunks = (feeds, last) → last.inFlight = some flight →
        last.carry.streamed = feeds.flatMap Feed.out ∧
        byteLength last.carry.held = (ofSentinels sentinels).pendingTail last.carry.text ∧
        (∀ chunk completion next, last.feed chunk = (.complete completion, next) →
          completion.response.text = feeds.flatMap Feed.out ++ completion.tail.getD []) ∧
        (last.carry.held ≠ [] → ∃ chunk completion next,
          last.feed chunk = (.complete completion, next) ∧
            completion.response.text = feeds.flatMap Feed.out) := by
  constructor
  · intro buffer hnone
    exact holdsBack_ofSentinels hgaps hnone
  · intro channel flight hdetector hslot hstreams hcarry chunks feeds last hfeeds hlast
    have hstart := streaming_of_carry_eq_nil hdetector hslot hstreams hcarry
    obtain ⟨hstreaming, hout⟩ := hstart.feedAll hfeeds hlast
    rw [hcarry, List.nil_append] at hout
    refine ⟨hout, hstreaming.held, ?_, ?_⟩
    · intro chunk completion next hcomplete
      rcases hstreaming.feed chunk with ⟨out, other, hfeed, -⟩ | ⟨done, other, hfeed, -, htext⟩
      · rw [hcomplete] at hfeed
        cases hfeed
      · rw [hcomplete] at hfeed
        cases hfeed
        rw [← hout]
        exact htext
    · intro hheld
      rw [← hout]
      exact hstreaming.exists_complete hgaps hheld

/-- The tail behind the second chunk begins the second sentinel, and its last character the third one.
    When the next chunk rules the second sentinel out, what is in front of that character is handed
    out. -/
theorem holdsBack_and_streams_overlapping :
    let sentinels := ["(gdb) ".toList, "(g→g".toList, "→→g\t".toList]
    let channel := { attached (ofSentinels sentinels) with
      inFlight := some { command := .ofText "next".toList true } }
    ∃ feeds last, channel.feedAll ["a(g".toList, "→".toList, "→".toList] = (feeds, last) ∧
      feeds.map Feed.out = ["a".toList, [], "(g".toList] ∧ last.carry.held = "→→".toList ∧
      (ofSentinels sentinels).HoldsBack "a(g→".toList ∧
      ∃ chunk completion next, last.feed chunk = (.complete completion, next) ∧
        completion.response.text = "a(g".toList := by
  intro sentinels channel
  have hgaps : EndInGaps sentinels := by decide
  obtain ⟨hbuffers, hstreams⟩ := holdsBack_and_streams hgaps
  have hfeeds : channel.feedAll ["a(g".toList, "→".toList, "→".toList] =
      ([.pending (some "a".toList), .pending none, .pending (some "(g".toList)],
        { channel with carry := { streamed := "a(g".toList, held := "→→".toList } }) := by
    decide +kernel
  obtain ⟨-, -, -, hneeded⟩ := hstreams channel _ rfl rfl (by decide) rfl _ _ _ hfeeds rfl
  exact ⟨_, _, hfeeds, rfl, rfl, hbuffers _ (by decide +kernel), hneeded (by simp)⟩

end Channel
end DebugClient
