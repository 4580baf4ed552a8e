import DebugClient.Proofs.Console.Framing
import DebugClient.Proofs.Console.Skipping

/-!
What is shown of a reply. Whatever way the reply is cut into chunks, its body is shown once or not at
all, and nothing of the prompts around it is ever shown.
-/

namespace DebugClient

namespace Dialogue
open Channel PromptDetector StepState Text

/-- Take in chunks of output one after another; gives the texts to be shown for each of them. -/
def onOutputs : List Text → Dialogue → List (List Text) × Dialogue
  | [], dialogue => ([], dialogue)
  | chunk :: chunks, dialogue =>
    let (shown, next) := dialogue.onOutput chunk
    let (others, last) := next.onOutputs chunks
    (shown :: others, last)

/-- Whether the body of a reply to the command is for display. A `step` into unknown code is not, and a
    hidden command is only if it ends a skip on another line than the one where the skip began. -/
def displays (command : Command) (body : Text) (dialogue : Dialogue) : Bool :=
  match dialogue.steps with
  | .idle =>
    command.display &&
      (command.kind ≠ .step || (Stop.callSites body).all dialogue.catalogue.contains)
  | .awaitingSkipDecision line => Stop.stoppedLine body ≠ line

variable {dialogue : Dialogue} {flight : InFlight} {command : Command}
  {stem gap body ahead chunk rest : Text} {chunks bodies : List Text}

theorem onOutputs_append (front back : List Text) (dialogue : Dialogue) :
    dialogue.onOutputs (front ++ back) =
      ((dialogue.onOutputs front).1 ++ ((dialogue.onOutputs front).2.onOutputs back).1,
        ((dialogue.onOutputs front).2.onOutputs back).2) := by
  induction front generalizing dialogue with
  | nil => rfl
  | cons chunk front ih =>
    simp only [List.cons_append, onOutputs]
    rw [ih]

/-! ### Behind the reply -/

/-- Of the reply before, only `missing` is still to come: it is the end of a gap, and it is awaited
    unless the debugger has been given up. -/
structure Trails (dialogue : Dialogue) (missing : Text) : Prop where
  isGap_of_mem : ∀ c ∈ missing, isGap c
  promptMatch?_nil : dialogue.channel.detector.promptMatch? [] = none
  carry : dialogue.channel.carry = {}
  awaited : dialogue.channel.awaited = missing ∨
    dialogue.channel.awaited = [] ∧ dialogue.channel.inFlight = none

theorem onOutput_of_blank {skipped : Text} {channel : Channel}
    (hfeed : dialogue.channel.feed chunk = (.unsolicited skipped, channel))
    (hblank : ∀ c ∈ skipped, isBlank c) :
    dialogue.onOutput chunk = ([], { dialogue with channel }) := by
  rw [onOutput, hfeed]
  dsimp only
  rw [if_pos (by rw [trim_eq_nil_of_blank hblank]; rfl)]

/-- What is awaited is dropped when it comes: it is not shown, and nothing else changes, provided that
    nothing has been taken in for the command in flight. -/
theorem onOutput_of_awaited (hquiet : dialogue.channel.inFlight ≠ none →
      dialogue.channel.carry = {} ∧ dialogue.channel.detector.promptMatch? [] = none)
    (hawaited : dialogue.channel.awaited = chunk ++ rest) :
    (dialogue.onOutput chunk).1.flatten = [] ∧ (dialogue.onOutput chunk).2 =
      { dialogue with channel := { dialogue.channel with awaited := rest } } := by
  have happend : chunk ++ rest = dialogue.channel.awaited ++ [] := by rw [hawaited, List.append_nil]
  have hskip := skipAwaited_of_append_eq happend
  have hskipped : chunk.drop dialogue.channel.awaited.length = [] := by simp [hawaited]
  have hleft : dialogue.channel.awaited.drop chunk.length = rest := by simp [hawaited]
  rw [hskipped, hleft] at hskip
  cases hslot : dialogue.channel.inFlight with
  | none =>
    rw [onOutput_of_blank (feed_of_inFlight_eq_none hslot hskip) (by simp)]
    exact ⟨rfl, rfl⟩
  | some flight =>
    obtain ⟨hcarry, hnil⟩ := hquiet (by simp [hslot])
    have hnone :
        dialogue.channel.detector.promptMatch? (dialogue.channel.carry.text ++ []) = none := by
      rw [hcarry]
      exact hnil
    obtain ⟨out, carry, hfeed, htext, hstreamed, -⟩ :=
      feed_of_promptMatch?_eq_none hslot hskip hnone
    rw [hcarry, List.append_nil] at htext
    obtain ⟨hnothing, hheld⟩ := List.append_eq_nil_iff.1 htext
    have hout : out.toList.flatten = [] := by
      rw [hcarry, hnothing] at hstreamed
      cases out with
      | none => rfl
      | some text => simpa using hstreamed.symm
    have hempty : carry = dialogue.channel.carry := by
      obtain ⟨streamed, held⟩ := carry
      cases hnothing
      cases hheld
      exact hcarry.symm
    rw [Dialogue.onOutput, hfeed, hempty]
    exact ⟨hout, rfl⟩

theorem onOutputs_of_awaited (hquiet : dialogue.channel.inFlight ≠ none →
      dialogue.channel.carry = {} ∧ dialogue.channel.detector.promptMatch? [] = none)
    (hawaited : dialogue.channel.awaited = chunks.flatten ++ rest) :
    (dialogue.onOutputs chunks).1.flatten.flatten = [] ∧ (dialogue.onOutputs chunks).2 =
      { dialogue with channel := { dialogue.channel with awaited := rest } } := by
  induction chunks generalizing dialogue with
  | nil =>
    have hrest : dialogue.channel.awaited = rest := hawaited
    rw [← hrest]
    exact ⟨rfl, rfl⟩
  | cons chunk chunks ih =>
    rw [List.flatten_cons, List.append_assoc] at hawaited
    obtain ⟨hshown, hnow⟩ := onOutput_of_awaited hquiet hawaited
    let next : Dialogue :=
      { dialogue with channel := { dialogue.channel with awaited := chunks.flatten ++ rest } }
    have hquiet' : next.channel.inFlight ≠ none →
        next.channel.carry = {} ∧ next.channel.detector.promptMatch? [] = none := hquiet
    obtain ⟨hothers, hlast⟩ := ih hquiet' rfl
    simp only [onOutputs, hnow, List.flatten_cons, List.flatten_append, hshown, List.nil_append]
    exact ⟨hothers, hlast⟩

/-- A chunk of the missing end of a gap is not shown. -/
theorem Trails.onOutput (htrails : dialogue.Trails (chunk ++ rest)) :
    (dialogue.onOutput chunk).1.flatten = [] ∧ (dialogue.onOutput chunk).2.Trails rest ∧
      (dialogue.onOutput chunk).2.channel.answers = dialogue.channel.answers := by
  obtain ⟨hgap, hnil, hcarry, hawaited | ⟨hawaited, hslot⟩⟩ := htrails
  · have hrest : ∀ c ∈ rest, isGap c := fun c hc => hgap c (List.mem_append_right _ hc)
    obtain ⟨hshown, hlast⟩ := onOutput_of_awaited (fun _ => ⟨hcarry, hnil⟩) hawaited
    rw [hlast]
    exact ⟨hshown, ⟨hrest, hnil, hcarry, .inl rfl⟩, rfl⟩
  · have happend : chunk ++ [] = dialogue.channel.awaited ++ chunk := by rw [hawaited]; simp
    have hskip := skipAwaited_of_append_eq happend
    rw [hawaited, List.length_nil, List.drop_zero, List.drop_nil] at hskip
    have hblank : ∀ c ∈ chunk, isBlank c := fun c hc =>
      isBlank_of_isGap (hgap c (List.mem_append_left _ hc))
    rw [onOutput_of_blank (feed_of_inFlight_eq_none hslot hskip) hblank]
    exact ⟨rfl, ⟨fun c hc => hgap c (List.mem_append_right _ hc), hnil, hcarry, .inr ⟨rfl, hslot⟩⟩,
      rfl⟩

theorem Trails.onOutputs (htrails : dialogue.Trails chunks.flatten) :
    (dialogue.onOutputs chunks).1.flatten.flatten = [] ∧
      (dialogue.onOutputs chunks).2.channel.answers = dialogue.channel.answers := by
  induction chunks generalizing dialogue with
  | nil => exact ⟨rfl, rfl⟩
  | cons chunk chunks ih =>
    obtain ⟨hshown, hnext, hanswers⟩ := htrails.onOutput
    obtain ⟨hothers, hlast⟩ := ih hnext
    simp only [Dialogue.onOutputs, List.flatten_cons, List.flatten_append, hshown, hothers]
    exact ⟨rfl, hlast.trans hanswers⟩

/-- When the slot has been offered to the queue, the gap of the last prompt trails. -/
theorem trails_dispatchNext {missing : Text} (hslot : dialogue.channel.inFlight = none)
    (hcarry : dialogue.channel.carry = {}) (hawaited : dialogue.channel.awaited = missing)
    (hgap : ∀ c ∈ missing, isGap c) (hnil : dialogue.channel.detector.promptMatch? [] = none) :
    dialogue.dispatchNext.Trails missing ∧
      dialogue.dispatchNext.channel.answers = dialogue.channel.answers := by
  rcases dispatchNext_cases hslot with ⟨-, heq⟩ | ⟨oldest, queue, -, -, heq⟩ |
    ⟨oldest, queue, -, -, heq⟩
  · rw [heq]
    exact ⟨⟨hgap, hnil, hcarry, .inl hawaited⟩, rfl⟩
  · rw [heq]
    exact ⟨⟨hgap, hnil, rfl, .inl hawaited⟩, rfl⟩
  · rw [heq]
    exact ⟨⟨hgap, hnil, rfl, .inr ⟨rfl, hslot⟩⟩, rfl⟩

/-! ### The reply -/

/-- The response that completes the command in flight. -/
def completion (flight : InFlight) (body : Text) (tail : Option Text) : Completion :=
  { response := ⟨flight.command, body, flight.command.display⟩, tail, ticket := flight.ticket }

/-- The texts shown by the chunk that completes a command. -/
def lastShown (flight : InFlight) (body : Text) (tail : Option Text) (dialogue : Dialogue) :
    List Text :=
  let response := (completion flight body tail).response
  tail.toList ++ if showsWhole (dialogue.verdict response).1 response then [body] else []

/-- One of the chunks of a reply, `chunk`, completes the command. -/
structure CompletesAt (dialogue : Dialogue) (flight : InFlight) (body : Text) (before : List Text)
    (chunk : Text) (after : List Text) (tail : Option Text) : Prop where
  feed : ((dialogue.onOutputs before).2.channel.feed chunk).1 =
    .complete (completion flight body tail)
  onOutput : (dialogue.onOutputs before).2.onOutput chunk = (dialogue.lastShown flight body tail,
    ((dialogue.vacate after.flatten).settle (completion flight body tail)).dispatchNext)
  /-- Output that is not handed out as it arrives is not shown before. -/
  held : streams flight.command = false →
    (dialogue.onOutputs before).1.flatten.flatten = [] ∧ tail = none
  /-- Output that is handed out as it arrives makes up the body. -/
  streamed : streams flight.command = true → dialogue.channel.carry.streamed <+: body →
    dialogue.channel.carry.streamed ++ (dialogue.onOutputs before).1.flatten.flatten ++ tail.getD [] =
      body

/-- The chunk that reaches the end of the stem completes the command. -/
theorem completesAt_nil (hreceives : dialogue.channel.Receives flight stem gap body ahead)
    {arrived : Text} {after : List Text} (hgap : gap = arrived ++ after.flatten) :
    ∃ tail, dialogue.CompletesAt flight body [] (dialogue.channel.awaited ++ ahead ++ arrived) after
      tail := by
  obtain ⟨tail, hfeed, hhidden, hstreamed⟩ := hreceives.feed_whole hgap
  refine ⟨tail, ⟨?_, ?_, fun hstreams => ⟨rfl, hhidden hstreams⟩, fun hstreams hseen => ?_⟩⟩
  · rw [onOutputs, hfeed]
    rfl
  · rw [onOutputs, Dialogue.onOutput, hfeed, lastShown]
    rw [← verdict_vacate after.flatten]
    exact complete_eq (completion flight body tail) (dialogue.vacate after.flatten)
  · simpa [onOutputs] using hstreamed hstreams hseen

/-- A chunk that stops short of the end of the stem comes before the one that completes the command. -/
theorem CompletesAt.cons {before after : List Text} {tail out : Option Text} {last : Text}
    {carry : CarryBuffer} {awaited : Text}
    (honOutput : dialogue.onOutput chunk =
      (out.toList, { dialogue with channel := { dialogue.channel with carry, awaited } }))
    (hcarry : carry.streamed = dialogue.channel.carry.streamed ++ out.getD [])
    (hhidden : streams flight.command = false → out = none)
    (hseen : dialogue.channel.carry.streamed <+: body → carry.streamed <+: body)
    (hcompletes : CompletesAt { dialogue with channel := { dialogue.channel with carry, awaited } }
      flight body before last after tail) :
    dialogue.CompletesAt flight body (chunk :: before) last after tail := by
  obtain ⟨hfeed, hlast, hheld, hstreamed⟩ := hcompletes
  have hshown : (dialogue.onOutputs (chunk :: before)).1.flatten.flatten = out.getD [] ++
      (onOutputs before
        { dialogue with channel := { dialogue.channel with carry, awaited } }).1.flatten.flatten := by
    simp only [onOutputs, honOutput, List.flatten_cons, List.flatten_append]
    cases out <;> simp
  have hnext : (dialogue.onOutputs (chunk :: before)).2 =
      (onOutputs before { dialogue with channel := { dialogue.channel with carry, awaited } }).2 := by
    simp only [onOutputs, honOutput]
  refine ⟨?_, ?_, fun hstreams => ?_, fun hstreams hlead => ?_⟩
  · rw [hnext, hfeed]
  · rw [hnext, hlast, lastShown, verdict_with_channel]
    rfl
  · obtain ⟨hnothing, htail⟩ := hheld hstreams
    rw [hshown, hhidden hstreams, hnothing]
    exact ⟨rfl, htail⟩
  · have hbody := hstreamed hstreams (hseen hlead)
    dsimp only at hbody
    rw [hcarry] at hbody
    rw [hshown]
    simpa only [List.append_assoc] using hbody

/-- While a reply is incomplete, only what is kept of the output and what is awaited change. -/
def Receiving (start now : Dialogue) : Prop :=
  ∃ carry awaited, now = { start with channel := { start.channel with carry, awaited } }

/-- Of output that is cut within the gaps, some chunk completes the command in flight, and what comes
    behind it begins with the end of the gap. -/
theorem exists_completesAt_of_cuts (hreceives : dialogue.channel.Receives flight stem gap body ahead)
    (hchunks : chunks.flatten = dialogue.channel.awaited ++ ahead ++ gap ++ rest)
    (hcuts : CutWithinGaps gap ((dialogue.channel.awaited ++ ahead).length ::
      stemEnds stem gap (dialogue.channel.awaited ++ ahead ++ gap).length bodies) chunks) :
    ∃ before chunk after arrived missing tail, chunks = before ++ chunk :: after ∧
      gap = arrived ++ missing ∧
      (before ++ [chunk]).flatten = dialogue.channel.awaited ++ ahead ++ arrived ∧
      before.flatten.length < (dialogue.channel.awaited ++ ahead).length ∧
      after.flatten = missing ++ rest ∧
      CutWithinGaps gap (stemEnds stem gap missing.length bodies) after ∧
      dialogue.CompletesAt flight body before chunk [missing] tail ∧
      ∀ front, front <+: before → dialogue.Receiving (dialogue.onOutputs front).2 := by
  induction chunks generalizing dialogue ahead with
  | nil => simp [hreceives.ahead_ne_nil] at hchunks
  | cons chunk chunks ih =>
    have hfirst : dialogue.channel.awaited ++ ahead ≠ [] := by simp [hreceives.ahead_ne_nil]
    rw [List.flatten_cons] at hchunks
    rcases exists_cut hchunks (hcuts.length_le hfirst) with ⟨more, hmore, hshort, hrest⟩ |
      ⟨arrived, missing, hgap, rfl, hrest⟩
    · obtain ⟨out, carry, ahead', hfeed, hreceives', hsplit, hcarry, hhidden, hseen⟩ :=
        hreceives.feed_short hshort.symm hmore
      let next : Dialogue := { dialogue with channel := { dialogue.channel with
        carry, awaited := dialogue.channel.awaited.drop chunk.length } }
      have honOutput : dialogue.onOutput chunk = (out.toList, next) := by rw [onOutput, hfeed]
      have hnext : next.channel.Receives flight stem gap body ahead' := hreceives'
      have hcuts' := hcuts.advance hfirst hshort
      rw [hsplit] at hrest hcuts'
      obtain ⟨before, last, after, arrived, missing, tail, rfl, hgap, harrived, hlength, hafter, hcut,
        hcompletes, hreceiving⟩ := ih hnext hrest hcuts'
      refine ⟨chunk :: before, last, after, arrived, missing, tail, rfl, hgap, ?_, ?_, hafter, hcut,
        hcompletes.cons honOutput hcarry hhidden hseen, ?_⟩
      · rw [List.cons_append, List.flatten_cons, harrived, hshort, hsplit]
        simp [next]
      · rw [List.flatten_cons, List.length_append, hshort, List.length_append, hsplit]
        exact Nat.add_lt_add_left hlength _
      · intro front hfront
        rcases List.prefix_cons_iff.1 hfront with rfl | ⟨front', rfl, hfront'⟩
        · exact ⟨dialogue.channel.carry, dialogue.channel.awaited, rfl⟩
        · obtain ⟨carry', awaited', hnow⟩ := hreceiving front' hfront'
          refine ⟨carry', awaited', ?_⟩
          simp only [onOutputs, honOutput, hnow, next]
    · have hgap' : gap = arrived ++ [missing].flatten := by simpa using hgap
      obtain ⟨tail, hcompletes⟩ := completesAt_nil hreceives hgap'
      refine ⟨[], _, chunks, arrived, missing, tail, rfl, hgap, by simp, ?_, hrest,
        hcuts.pass hfirst rfl hgap, hcompletes, ?_⟩
      · simpa using List.length_pos_of_ne_nil hfirst
      · intro front hfront
        rw [List.prefix_nil.1 hfront]
        exact ⟨dialogue.channel.carry, dialogue.channel.awaited, rfl⟩

/-- Whatever way a reply is cut, one of the chunks completes the command, and nothing but the end of
    the gap comes behind it. -/
theorem exists_completesAt (hreceives : dialogue.channel.Receives flight stem gap body ahead)
    (hchunks : chunks.flatten = dialogue.channel.awaited ++ ahead ++ gap) :
    ∃ before chunk after tail, chunks = before ++ chunk :: after ∧
      (∃ arrived, gap = arrived ++ after.flatten) ∧
      dialogue.CompletesAt flight body before chunk after tail := by
  have hwhole : chunks.flatten = dialogue.channel.awaited ++ ahead ++ gap ++ [] := by
    rw [hchunks, List.append_nil]
  have hcuts : CutWithinGaps gap ((dialogue.channel.awaited ++ ahead).length ::
      stemEnds stem gap (dialogue.channel.awaited ++ ahead ++ gap).length []) chunks := by
    intro stop hstop
    obtain rfl := List.mem_singleton.1 hstop
    have hlength : chunks.flatten.length =
        (dialogue.channel.awaited ++ ahead).length + gap.length := by rw [hchunks, List.length_append]
    exact ⟨chunks, List.prefix_refl chunks, by omega, by omega⟩
  obtain ⟨before, chunk, after, arrived, missing, tail, hsplit, hgap, -, -, hafter, -,
    ⟨hfeed, honOutput, hheld, hstreamed⟩, -⟩ := exists_completesAt_of_cuts hreceives hwhole hcuts
  have hmissing : [missing].flatten = after.flatten := by rw [hafter]; simp
  refine ⟨before, chunk, after, tail, hsplit, ⟨arrived, ?_⟩, hfeed, ?_, hheld, hstreamed⟩
  · rw [hgap, ← hmissing, List.flatten_singleton]
  · rw [← hmissing]
    exact honOutput

/-! ### What is shown of it -/

/-- A body that is for display is shown as it arrives or as a whole, and not both; the response is
    marked accordingly. -/
theorem showsWhole_eq (command : Command) (body : Text)
    (hcovered : dialogue.steps = .idle ∨ command.display = false) :
    let response : Response := ⟨command, body, command.display⟩
    (streams command = true → dialogue.displays command body = true ∧
      showsWhole (dialogue.verdict response).1 response = false) ∧
    (streams command = false →
      showsWhole (dialogue.verdict response).1 response = dialogue.displays command body) ∧
    decideDisplay (dialogue.verdict response).1 response =
      ⟨command, body, dialogue.displays command body⟩ := by
  intro response
  cases hsteps : dialogue.steps with
  | idle =>
    by_cases henters : command.kind = .step ∧ entersUnknown dialogue.catalogue body = true
    · obtain ⟨hkind, hunknown⟩ := henters
      have hall : (Stop.callSites body).all dialogue.catalogue.contains = false := by
        simpa [entersUnknown] using hunknown
      have hskip : dialogue.verdict response = _ := verdict_of_enters hsteps ⟨hkind, hunknown⟩
      rw [hskip]
      simp [streams, displays, showsWhole, decideDisplay, response, hsteps, hkind, hall]
    · have hnothing : dialogue.verdict response = _ := verdict_of_not_enters hsteps henters
      rw [hnothing]
      by_cases hkind : command.kind = .step
      · have hall : (Stop.callSites body).all dialogue.catalogue.contains = true := by
          simpa [hkind, entersUnknown] using henters
        simp [streams, displays, showsWhole, decideDisplay, response, hsteps, hkind, hall]
      · simp [streams, displays, showsWhole, decideDisplay, response, hsteps, hkind]
  | awaitingSkipDecision line =>
    have hhidden : command.display = false := by simpa [hsteps] using hcovered
    rw [verdict, hsteps, observe]
    by_cases hline : Stop.stoppedLine body = line
    · simp [streams, displays, showsWhole, decideDisplay, response, hsteps, hhidden, hline]
    · simp [streams, displays, showsWhole, decideDisplay, response, hsteps, hhidden, hline]

/-- Up to the end of the reply, its body is shown exactly if it is for display. -/
theorem CompletesAt.shown {before after : List Text} {tail : Option Text}
    (hcompletes : dialogue.CompletesAt flight body before chunk after tail)
    (hcarry : dialogue.channel.carry = {})
    (hcovered : dialogue.steps = .idle ∨ flight.command.display = false) :
    (dialogue.onOutputs before).1.flatten.flatten ++ (dialogue.lastShown flight body tail).flatten =
      if dialogue.displays flight.command body then body else [] := by
  obtain ⟨hstreams, hwhole, -⟩ := showsWhole_eq flight.command body hcovered
  rw [lastShown, completion]
  by_cases hcase : streams flight.command = true
  · obtain ⟨hdisplays, hnotwhole⟩ := hstreams hcase
    have hunseen : dialogue.channel.carry.streamed <+: body := by
      rw [hcarry]
      exact List.nil_prefix
    have hbody := hcompletes.streamed hcase hunseen
    rw [hcarry, List.nil_append] at hbody
    rw [hdisplays, hnotwhole, if_pos rfl, ← hbody]
    cases tail <;> simp
  · have hhidden : streams flight.command = false := by simpa using hcase
    obtain ⟨hnothing, htail⟩ := hcompletes.held hhidden
    rw [hnothing, hwhole hhidden, htail]
    cases dialogue.displays flight.command body <;> simp

/-- The reply to the command in flight is shown once or not at all, and nothing else is. -/
structure ShowsReply (dialogue : Dialogue) (flight : InFlight) (body : Text) (chunks : List Text) :
    Prop where
  shown : (dialogue.onOutputs chunks).1.flatten.flatten =
    if dialogue.displays flight.command body then body else []
  /-- What is not handed out as it arrives is shown by the chunk that completes the command. -/
  atOnce : streams flight.command = false → ∃ before chunk after completion,
    chunks = before ++ chunk :: after ∧
    ((dialogue.onOutputs before).2.channel.feed chunk).1 = .complete completion ∧
    completion.response = ⟨flight.command, body, flight.command.display⟩ ∧
    (dialogue.onOutputs before).1.flatten.flatten = [] ∧
    ((dialogue.onOutputs before).2.onOutput chunk).1 =
      if dialogue.displays flight.command body then [body] else []
  /-- Whoever waits gets the body, marked by whether it was shown. -/
  answered : (dialogue.onOutputs chunks).2.channel.answers =
    dialogue.channel.answers ++ flight.ticket.toList.map fun ticket =>
      (ticket, .completed ⟨flight.command, body, dialogue.displays flight.command body⟩)

theorem showsReply_of_inFlight (hprimary : dialogue.channel.detector.Primary stem gap)
    (hframes : dialogue.channel.detector.Frames stem body)
    (hslot : dialogue.channel.inFlight = some flight) (hcarry : dialogue.channel.carry = {})
    (hcovered : dialogue.steps = .idle ∨ flight.command.display = false)
    (hchunks : chunks.flatten = dialogue.channel.awaited ++ body ++ stem ++ gap) :
    dialogue.ShowsReply flight body chunks := by
  have hreceives : dialogue.channel.Receives flight stem gap body (body ++ stem) :=
    ⟨hprimary, hframes, hslot, by rw [hcarry]; rfl, by simp [hprimary.stem_ne_nil]⟩
  rw [List.append_assoc _ body stem] at hchunks
  obtain ⟨before, chunk, after, tail, rfl, ⟨arrived, hgap⟩, hcompletes⟩ :=
    exists_completesAt hreceives hchunks
  obtain ⟨-, hwhole, hmarked⟩ := showsWhole_eq flight.command body hcovered
  let settled := (dialogue.vacate after.flatten).settle (completion flight body tail)
  have hmissing : ∀ c ∈ after.flatten, isGap c := by
    intro c hc
    apply hprimary.isGap_of_mem
    rw [hgap]
    exact List.mem_append_right _ hc
  have hfree : settled.channel.inFlight = none := rfl
  obtain ⟨htrails, hanswers⟩ :=
    trails_dispatchNext hfree rfl rfl hmissing (hframes.promptMatch?_nil hprimary)
  obtain ⟨hbehind, hkept⟩ := htrails.onOutputs
  have hall : dialogue.onOutputs (before ++ chunk :: after) =
      ((dialogue.onOutputs before).1 ++ dialogue.lastShown flight body tail ::
        (settled.dispatchNext.onOutputs after).1, (settled.dispatchNext.onOutputs after).2) := by
    rw [onOutputs_append, onOutputs, hcompletes.onOutput]
  constructor
  · rw [hall]
    simp only [List.flatten_append, List.flatten_cons, hbehind, List.append_nil]
    exact hcompletes.shown hcarry hcovered
  · intro hhidden
    obtain ⟨hnothing, htail⟩ := hcompletes.held hhidden
    refine ⟨before, chunk, after, _, rfl, hcompletes.feed, rfl, hnothing, ?_⟩
    rw [hcompletes.onOutput, lastShown, completion, hwhole hhidden, htail]
    rfl
  · rw [hall]
    dsimp only
    rw [hkept, hanswers]
    dsimp only [settled]
    rw [settle, verdict_vacate, completion, hmarked]
    rfl

/-! ### In the course of a run -/

theorem detector_dispatchNext (hslot : dialogue.channel.inFlight = none) :
    dialogue.dispatchNext.channel.detector = dialogue.channel.detector := by
  rcases dispatchNext_cases hslot with ⟨-, heq⟩ | ⟨oldest, queue, -, -, heq⟩ |
    ⟨oldest, queue, -, -, heq⟩
  · rw [heq]
  · rw [heq]
    rfl
  · rw [heq]

/-- The sentinels stay as they were given. -/
theorem detector_perform {sent : Text} (hkept : dialogue.channel.Kept sent) (stimulus : Stimulus) :
    (dialogue.perform stimulus).channel.detector = dialogue.channel.detector := by
  cases stimulus with
  | submit command ticket =>
    rcases submit_cases command ticket dialogue with ⟨e, carry, hsubmit, -⟩ | ⟨exited, -, -, hsubmit⟩
    · rw [perform, hsubmit]
    · rw [perform, hsubmit]
      rfl
  | enqueue command =>
    rcases enqueue_cases (fun hslot => (hkept.free hslot).1) command with ⟨e, carry, henqueue, -⟩ |
      ⟨flight, -, -, henqueue⟩ | ⟨-, -, henqueue⟩
    · rw [perform, henqueue]
    · rw [perform, henqueue]
      rfl
    · rw [perform, henqueue]
      rfl
  | output chunk =>
    rw [perform]
    rcases onOutput_cases chunk dialogue with ⟨text, awaited, -, -, hsame | ⟨-, hexited⟩⟩ |
      ⟨flight, out, carry, awaited, -, -, hafter⟩ | ⟨flight, completion, awaited, -, -, -, hafter⟩
    · rw [hsame]
    · rw [hexited]
    · rw [hafter]
    · rw [hafter]
      exact detector_dispatchNext rfl
  | abort => rfl
  | close =>
    obtain ⟨answers, hterminate⟩ := exists_terminate_eq dialogue.channel
    rw [perform, onClosed, hterminate]
  | allowWriting accepting => rfl

end Dialogue

namespace Chronicle
open PromptDetector

theorem detector_ofStimuli (detector : PromptDetector) (stimuli : List Stimulus) :
    (ofStimuli detector stimuli).dialogue.channel.detector = detector := by
  induction stimuli using List.reverseRecOn with
  | nil => rfl
  | append_singleton stimuli stimulus ih =>
    obtain ⟨hkept, -⟩ := kept_ofStimuli detector stimuli
    rw [ofStimuli_append_singleton]
    exact (Dialogue.detector_perform hkept stimulus).trans ih

/-- Whenever a command has just taken the slot, and whatever way its reply is then cut, the body is
    shown exactly once or not at all, nothing of the prompts is shown, and the response tells which. A
    displayed command during a skip is not covered, as its output may be shown twice. -/
theorem showsReply_of_taker {detector : PromptDetector} {stimuli : List Stimulus} {stimulus : Stimulus}
    {event : Event} {command : Command} {stem gap body : Text} {chunks : List Text}
    (hprimary : detector.Primary stem gap) (hframes : detector.Frames stem body)
    (htaken : event ∈ (ofStimuli detector stimuli).dialogue.events stimulus)
    (htaker : event.taker? = some command)
    (hcovered : (ofStimuli detector (stimuli ++ [stimulus])).dialogue.steps = .idle ∨
      command.display = false)
    (hchunks : chunks.flatten =
      (ofStimuli detector (stimuli ++ [stimulus])).dialogue.channel.awaited ++ body ++ stem ++ gap) :
    ∃ ticket, (ofStimuli detector (stimuli ++ [stimulus])).dialogue.channel.inFlight =
        some { command, ticket } ∧
      (ofStimuli detector (stimuli ++ [stimulus])).dialogue.ShowsReply { command, ticket } body
        chunks := by
  obtain ⟨hkept, -⟩ := kept_ofStimuli detector stimuli
  obtain ⟨ticket, hslot, hcarry⟩ := Dialogue.slot_of_mem_events hkept htaken htaker
  have hdetector := detector_ofStimuli detector (stimuli ++ [stimulus])
  rw [ofStimuli_append_singleton] at hcovered hchunks hdetector ⊢
  refine ⟨ticket, hslot, Dialogue.showsReply_of_inFlight ?_ ?_ hslot hcarry hcovered hchunks⟩
  · rw [hdetector]
    exact hprimary
  · rw [hdetector]
    exact hframes

/-- The body has two beginnings of the prompt in it, and the cuts lie behind the first and within the
    second. -/
theorem showsReply_of_taker_near_prompt :
    ∃ ticket, (ofStimuli ⟨["(gdb) ".toList]⟩
        [.submit (.ofText "print x".toList true) (some 7)]).dialogue.channel.inFlight =
      some { command := .ofText "print x".toList true, ticket } ∧
    (ofStimuli ⟨["(gdb) ".toList]⟩
        [.submit (.ofText "print x".toList true) (some 7)]).dialogue.ShowsReply
      { command := .ofText "print x".toList true, ticket } "(g(gd".toList
      ["(g".toList, "(g".toList, "d(gdb)".toList, " ".toList] := by
  have hprimary : PromptDetector.Primary ⟨["(gdb) ".toList]⟩ "(gdb)".toList " ".toList :=
    ⟨⟨_, rfl⟩, by decide, by decide, by simp [PromptDetector.isGap]⟩
  have hframes : PromptDetector.Frames ⟨["(gdb) ".toList]⟩ "(gdb)".toList "(g(gd".toList := by
    decide +kernel
  have htaken : .submitted (.ofText "print x".toList true) ∈
      (ofStimuli ⟨["(gdb) ".toList]⟩ []).dialogue.events
        (.submit (.ofText "print x".toList true) (some 7)) := List.mem_singleton.2 rfl
  exact showsReply_of_taker hprimary hframes htaken rfl (.inl rfl) rfl

end Chronicle
end DebugClient
