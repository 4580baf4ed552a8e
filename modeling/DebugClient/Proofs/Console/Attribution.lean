import DebugClient.Proofs.Console.Display

/-!
Which reply a command is answered with. The debugger answers the commands it has received one after
another, but it may be late: when the commands before were given up, their replies can still be to
come when the next command is given. That command is answered with the oldest reply still to come, and
only if there is none with its own.
-/

namespace DebugClient

/-- The chunk of output, if it is one. -/
def Stimulus.chunk? : Stimulus → Option Text
  | .output chunk => some chunk
  | _ => none

/-- The chunks of output that have arrived, in order. -/
def outputs (stimuli : List Stimulus) : List Text := stimuli.filterMap Stimulus.chunk?

/-- How many commands the debugger has received. -/
def received (events : List Event) : Nat :=
  ((events.filterMap Event.taker?).filter (·.kind ≠ .startup)).length

namespace Channel

variable {channel : Channel} {flight : InFlight} {ticket : Nat}

/-- Who waits for the command in flight. -/
def waiter? (channel : Channel) : Option Nat := channel.inFlight.bind (·.ticket)

/-- What a ticket has been answered with. -/
def answersTo (ticket : Nat) (channel : Channel) : List Answer :=
  channel.answers.filterMap fun (other, answer) => if other = ticket then some answer else none

theorem answersTo_append {after : Channel} {waiter : Option Nat} {answer : Answer}
    (hanswers : after.answers =
      channel.answers ++ waiter.toList.map fun waiter => (waiter, answer)) :
    after.answersTo ticket =
      channel.answersTo ticket ++ if waiter = some ticket then [answer] else [] := by
  rw [answersTo, hanswers, List.filterMap_append, answersTo]
  cases waiter with
  | none => simp
  | some other => by_cases hother : other = ticket <;> simp [hother]

theorem answers_terminate (channel : Channel) : channel.terminate.answers =
    channel.answers ++ channel.waiter?.toList.map fun waiter => (waiter, .terminated) := by
  rw [terminate, waiter?]
  cases channel.inFlight.bind (·.ticket) <;> simp [answer]

theorem ticket_of_feed {chunk : Text} {completion : Completion} (hslot : channel.inFlight = some flight)
    (hfeed : (channel.feed chunk).1 = .complete completion) : completion.ticket = flight.ticket := by
  rcases feed_cases chunk channel with ⟨text, awaited, -, hother⟩ |
    ⟨other, out, carry, awaited, -, hother⟩ | ⟨other, text, tail, awaited, hheld, hother⟩
  · rw [hother] at hfeed
    cases hfeed
  · rw [hother] at hfeed
    cases hfeed
  · rw [hother] at hfeed
    cases hfeed
    cases hslot.symm.trans hheld
    rfl

end Channel

namespace Dialogue
open Channel

variable {dialogue : Dialogue} {stimulus : Stimulus} {ticket : Nat} {sent : Text}

/-! ### A ticket nobody waits with -/

theorem waiter?_dispatchNext (hslot : dialogue.channel.inFlight = none) :
    dialogue.dispatchNext.channel.waiter? = none ∧
      dialogue.dispatchNext.channel.answers = dialogue.channel.answers := by
  rcases dispatchNext_cases hslot with ⟨-, heq⟩ | ⟨oldest, queue, -, -, heq⟩ |
    ⟨oldest, queue, -, -, heq⟩
  · rw [heq, waiter?, hslot]
    exact ⟨rfl, rfl⟩
  · rw [heq]
    exact ⟨rfl, rfl⟩
  · rw [heq, waiter?, hslot]
    exact ⟨rfl, rfl⟩

/-- A ticket that nobody waits with gets no answer, and nobody comes to wait with it until it is given
    again. -/
theorem answersTo_perform (hkept : dialogue.channel.Kept sent)
    (hnobody : dialogue.channel.waiter? ≠ some ticket)
    (hother : ∀ command, stimulus ≠ .submit command (some ticket)) :
    (dialogue.perform stimulus).channel.waiter? ≠ some ticket ∧
      (dialogue.perform stimulus).channel.answersTo ticket = dialogue.channel.answersTo ticket := by
  cases stimulus with
  | submit command given =>
    rcases submit_cases command given dialogue with ⟨e, carry, hsubmit, -⟩ | ⟨exited, -, -, hsubmit⟩
    · rw [perform, hsubmit]
      exact ⟨hnobody, rfl⟩
    · rw [perform, hsubmit]
      refine ⟨?_, rfl⟩
      rintro rfl
      exact hother command rfl
  | enqueue command =>
    rcases enqueue_cases (fun hslot => (hkept.free hslot).1) command with ⟨e, carry, henqueue, -⟩ |
      ⟨flight, -, -, henqueue⟩ | ⟨-, -, henqueue⟩
    · rw [perform, henqueue]
      exact ⟨hnobody, rfl⟩
    · rw [perform, henqueue]
      exact ⟨hnobody, rfl⟩
    · rw [perform, henqueue]
      refine ⟨?_, rfl⟩
      intro hwaits
      cases hwaits
  | output chunk =>
    rw [perform]
    rcases onOutput_cases chunk dialogue with ⟨text, awaited, -, -, hsame | ⟨-, hexited⟩⟩ |
      ⟨flight, out, carry, awaited, -, -, hafter⟩ |
      ⟨flight, completion, awaited, hslot, -, hfeed, hafter⟩
    · rw [hsame]
      exact ⟨hnobody, rfl⟩
    · rw [hexited]
      exact ⟨hnobody, rfl⟩
    · rw [hafter]
      exact ⟨hnobody, rfl⟩
    · have hwaiter : completion.ticket ≠ some ticket := by
        rw [ticket_of_feed hslot hfeed]
        simpa [waiter?, hslot] using hnobody
      have hsettled : ((dialogue.vacate awaited).settle completion).channel.inFlight = none := rfl
      obtain ⟨hfree, hanswers⟩ := waiter?_dispatchNext hsettled
      rw [hafter, hfree]
      refine ⟨by simp, ?_⟩
      rw [answersTo_append (hanswers.trans rfl), if_neg hwaiter, List.append_nil]
      rfl
  | abort =>
    refine ⟨?_, rfl⟩
    intro hwaits
    cases hwaits
  | close =>
    rw [perform, onClosed]
    refine ⟨?_, ?_⟩
    · obtain ⟨answers, hterminate⟩ := exists_terminate_eq dialogue.channel
      rw [hterminate]
      intro hwaits
      cases hwaits
    · rw [answersTo_append (answers_terminate dialogue.channel), if_neg hnobody, List.append_nil]
  | allowWriting accepting => exact ⟨hnobody, rfl⟩

/-! ### The command in flight -/

/-- A command given in the background waits while another one is in flight, or it is refused. -/
theorem enqueue_of_inFlight {flight : InFlight} (hslot : dialogue.channel.inFlight = some flight)
    (command : Command) : ∃ result queue, dialogue.enqueue command =
      (result, { dialogue with channel := { dialogue.channel with queue } }) := by
  have hoccupied : (dialogue.channel.enqueue command).dispatchNext =
      (.ok none, dialogue.channel.enqueue command) := by
    rw [Channel.dispatchNext, show (dialogue.channel.enqueue command).inFlight = some flight from hslot]
  rw [enqueue]
  split
  · rw [hoccupied]
    exact ⟨_, dialogue.channel.queue ++ [command], rfl⟩
  · exact ⟨_, dialogue.channel.queue, rfl⟩

end Dialogue

namespace Chronicle
open Channel PromptDetector Text

variable {chronicle : Chronicle} {stimulus : Stimulus} {command : Command} {ticket count : Nat}
  {stem gap body lead seen : Text}

/-- The command has not been answered yet. Behind `lead` its reply is `body`, and of both `seen` has
    arrived. -/
structure Awaiting (command : Command) (ticket : Nat) (stem gap body lead : Text) (count : Nat)
    (seen : Text) (chronicle : Chronicle) : Prop where
  receives : ∃ ahead, chronicle.dialogue.channel.Receives { command, ticket := some ticket } stem gap
      body ahead ∧ lead ++ body ++ stem = seen ++ chronicle.dialogue.channel.awaited ++ ahead
  unanswered : chronicle.dialogue.channel.answersTo ticket = []
  received_eq : received chronicle.events = count

/-- Nobody waits with the ticket any more, and if it was answered with a response, it was with `body`. -/
structure Attributed (command : Command) (ticket : Nat) (body : Text) (chronicle : Chronicle) :
    Prop where
  waiter : chronicle.dialogue.channel.waiter? ≠ some ticket
  answers : ∀ response, .completed response ∈ chronicle.dialogue.channel.answersTo ticket →
    response.command = command ∧ response.text = body

theorem Attributed.next {sent : Text} (hattributed : chronicle.Attributed command ticket body)
    (hkept : chronicle.dialogue.channel.Kept sent)
    (hother : ∀ command, stimulus ≠ .submit command (some ticket)) :
    (chronicle.next stimulus).Attributed command ticket body := by
  obtain ⟨hwaiter, hanswers⟩ := Dialogue.answersTo_perform hkept hattributed.waiter hother
  constructor
  · exact hwaiter
  · intro response hresponse
    apply hattributed.answers
    rw [← hanswers]
    exact hresponse

theorem received_next
    (htakers : (chronicle.dialogue.events stimulus).filterMap Event.taker? = []) :
    received (chronicle.next stimulus).events = received chronicle.events := by
  unfold received next
  rw [List.filterMap_append, htakers, List.append_nil]

/-- What is written or queued meanwhile makes no difference. -/
theorem Awaiting.congr {now : Chronicle}
    (hawaiting : chronicle.Awaiting command ticket stem gap body lead count seen)
    (hchannel : ∃ outlet queue, now.dialogue.channel =
      { chronicle.dialogue.channel with outlet, queue })
    (hreceived : received now.events = received chronicle.events) :
    now.Awaiting command ticket stem gap body lead count seen := by
  obtain ⟨outlet, queue, hchannel⟩ := hchannel
  obtain ⟨⟨ahead, ⟨hprimary, hframes, hslot, htext, hahead⟩, hlead⟩, hunanswered, hcount⟩ := hawaiting
  refine ⟨⟨ahead, ?_, ?_⟩, ?_, hreceived.trans hcount⟩
  · rw [hchannel]
    exact ⟨hprimary, hframes, hslot, htext, hahead⟩
  · rw [hchannel]
    exact hlead
  · rw [hchannel]
    exact hunanswered

/-- The one answer that the command is given as it leaves the slot decides. -/
theorem Awaiting.attributed {now : Chronicle} {answer : Answer}
    (hawaiting : chronicle.Awaiting command ticket stem gap body lead count seen)
    (hfree : now.dialogue.channel.waiter? = none)
    (hanswers : now.dialogue.channel.answers =
      chronicle.dialogue.channel.answers ++ [(ticket, answer)])
    (hanswer : ∀ response, answer = .completed response →
      response.command = command ∧ response.text = body) :
    now.Attributed command ticket body := by
  have hnow : now.dialogue.channel.answersTo ticket = [answer] := by
    have happend : now.dialogue.channel.answersTo ticket =
        chronicle.dialogue.channel.answersTo ticket ++
          if some ticket = some ticket then [answer] else [] := answersTo_append hanswers
    rw [happend, hawaiting.unanswered, if_pos rfl, List.nil_append]
  constructor
  · rw [hfree]
    simp
  · intro response hresponse
    rw [hnow] at hresponse
    exact hanswer response (List.mem_singleton.1 hresponse).symm

/-- A chunk that stops short of the end of the reply leaves the command waiting; the chunk that reaches
    it has the command answered with the body. -/
theorem Awaiting.output {chunk : Text}
    (hawaiting : chronicle.Awaiting command ticket stem gap body lead count seen)
    (hfits : seen ++ chunk <+: lead ++ body ++ stem ++ gap) :
    (chronicle.next (.output chunk)).Awaiting command ticket stem gap body lead count
        (seen ++ chunk) ∨
      (chronicle.next (.output chunk)).Attributed command ticket body := by
  obtain ⟨ahead, hreceives, hlead⟩ := hawaiting.receives
  obtain ⟨rest, hrest⟩ := hfits
  have hcut : chunk ++ rest = chronicle.dialogue.channel.awaited ++ ahead ++ gap ++ [] := by
    rw [hlead] at hrest
    simpa using hrest
  have hlength : chunk.length ≤ (chronicle.dialogue.channel.awaited ++ ahead ++ gap).length := by
    have := congrArg List.length hcut
    simp only [List.length_append, List.length_nil] at this ⊢
    omega
  rcases exists_cut hcut hlength with ⟨more, hmore, hshort, -⟩ | ⟨arrived, missing, hgap, rfl, -⟩
  · left
    obtain ⟨out, carry, ahead', hfeed, hreceives', hsplit, -⟩ := hreceives.feed_short hshort.symm hmore
    have honOutput : (chronicle.dialogue.onOutput chunk).2 = { chronicle.dialogue with
        channel := { chronicle.dialogue.channel with
          carry, awaited := chronicle.dialogue.channel.awaited.drop chunk.length } } := by
      rw [Dialogue.onOutput, hfeed]
    have htakers : (chronicle.dialogue.events (.output chunk)).filterMap Event.taker? = [] := by
      rw [Dialogue.events, hfeed]
      rfl
    refine ⟨⟨ahead', ?_, ?_⟩, ?_, (received_next htakers).trans hawaiting.received_eq⟩
    · rw [next, Dialogue.perform, honOutput]
      exact hreceives'
    · rw [next, Dialogue.perform, honOutput, hlead, List.append_assoc, hshort, hsplit]
      simp
    · rw [next, Dialogue.perform, honOutput]
      exact hawaiting.unanswered
  · right
    obtain ⟨tail, hfeed, -⟩ := hreceives.feed_whole hgap
    let settled := (chronicle.dialogue.vacate missing).settle
      { response := ⟨command, body, command.display⟩, tail, ticket := some ticket }
    have honOutput : (chronicle.dialogue.onOutput
        (chronicle.dialogue.channel.awaited ++ ahead ++ arrived)).2 = settled.dispatchNext := by
      rw [Dialogue.onOutput, hfeed]
      exact congrArg Prod.snd (Dialogue.complete_eq _ (chronicle.dialogue.vacate missing))
    have hsettled : settled.channel.inFlight = none := rfl
    obtain ⟨hfree, hanswers⟩ := Dialogue.waiter?_dispatchNext hsettled
    rw [← honOutput] at hfree hanswers
    apply hawaiting.attributed hfree hanswers
    rintro response hresponse
    cases hresponse
    exact ⟨rfl, rfl⟩

/-- As long as its reply is incomplete the command goes on waiting, unless it is taken from the slot
    without a response. -/
theorem Awaiting.next
    (hawaiting : chronicle.Awaiting command ticket stem gap body lead count seen)
    (hfits : ∀ chunk, stimulus = .output chunk → seen ++ chunk <+: lead ++ body ++ stem ++ gap) :
    (chronicle.next stimulus).Awaiting command ticket stem gap body lead count
        (seen ++ stimulus.chunk?.getD []) ∨
      (chronicle.next stimulus).Attributed command ticket body := by
  have hstill (hchunk : stimulus.chunk? = none)
      (hchannel : ∃ outlet queue, (chronicle.dialogue.perform stimulus).channel =
        { chronicle.dialogue.channel with outlet, queue })
      (htakers : (chronicle.dialogue.events stimulus).filterMap Event.taker? = []) :
      (chronicle.next stimulus).Awaiting command ticket stem gap body lead count
        (seen ++ stimulus.chunk?.getD []) := by
    rw [hchunk, Option.getD_none, List.append_nil]
    exact hawaiting.congr hchannel (received_next htakers)
  have hslot : chronicle.dialogue.channel.inFlight = some { command, ticket := some ticket } := by
    obtain ⟨ahead, hreceives, -⟩ := hawaiting.receives
    exact hreceives.inFlight
  cases stimulus with
  | submit other given =>
    have hsubmit := Dialogue.submit_of_inFlight hslot other given
    left
    apply hstill rfl
    · rw [Dialogue.perform, hsubmit]
      exact ⟨_, _, rfl⟩
    · rw [Dialogue.events, hsubmit]
      rfl
  | enqueue other =>
    obtain ⟨result, queue, henqueue⟩ := Dialogue.enqueue_of_inFlight hslot other
    left
    apply hstill rfl
    · rw [Dialogue.perform, henqueue]
      exact ⟨_, queue, rfl⟩
    · rw [Dialogue.events, henqueue, hslot]
      cases result <;> rfl
  | output chunk => exact hawaiting.output (hfits chunk rfl)
  | abort =>
    right
    constructor
    · intro hwaits
      cases hwaits
    · intro response hresponse
      change .completed response ∈ chronicle.dialogue.channel.answersTo ticket at hresponse
      rw [hawaiting.unanswered] at hresponse
      cases hresponse
  | close =>
    right
    have hanswers := answers_terminate chronicle.dialogue.channel
    rw [waiter?, hslot] at hanswers
    have hfree : chronicle.dialogue.channel.terminate.waiter? = none := by
      obtain ⟨answers, hterminate⟩ := exists_terminate_eq chronicle.dialogue.channel
      rw [hterminate]
      rfl
    apply hawaiting.attributed hfree hanswers
    intro response hresponse
    cases hresponse
  | allowWriting accepting =>
    left
    exact hstill rfl ⟨_, chronicle.dialogue.channel.queue, rfl⟩ rfl

/-! ### A debugger that answers late -/

/-- The debugger answers the commands it has received one after another with these bodies, as late as it
    likes and in whatever chunks. -/
structure AnswersInTurn (detector : PromptDetector) (stem gap : Text) (bodies : Nat → Text)
    (stimuli : List Stimulus) : Prop where
  primary : detector.Primary stem gap
  frames : ∀ n, detector.Frames stem (bodies n)
  /-- Nothing arrives of the answer to a command that has not been received before. -/
  output : ∀ k < stimuli.length, (outputs (stimuli.take (k + 1))).flatten <+: transcript stem gap
    ((List.range (received (ofStimuli detector (stimuli.take k)).events)).map bodies)

variable {detector : PromptDetector} {stimuli earlier later front : List Stimulus}
  {bodies : Nat → Text} {others : List Text}

@[simp] theorem outputs_append (front back : List Stimulus) :
    outputs (front ++ back) = outputs front ++ outputs back := List.filterMap_append

/-- A ticket that has not been given has no answers, and nobody waits with it. -/
theorem unanswered_of_fresh (hfresh : ∀ command, .submit command (some ticket) ∉ stimuli) :
    (ofStimuli detector stimuli).dialogue.channel.waiter? ≠ some ticket ∧
      (ofStimuli detector stimuli).dialogue.channel.answersTo ticket = [] := by
  induction stimuli using List.reverseRecOn with
  | nil => exact ⟨by simp [ofStimuli, Dialogue.attached, attached, waiter?], rfl⟩
  | append_singleton stimuli stimulus ih =>
    obtain ⟨hwaiter, hanswers⟩ := ih fun command hmem =>
      hfresh command (List.mem_append_left _ hmem)
    have hother : ∀ command, stimulus ≠ .submit command (some ticket) := by
      rintro command rfl
      exact hfresh command (by simp)
    obtain ⟨hkept, -⟩ := kept_ofStimuli detector stimuli
    obtain ⟨hwaiter', hanswers'⟩ := Dialogue.answersTo_perform hkept hwaiter hother
    rw [ofStimuli_append_singleton]
    exact ⟨hwaiter', hanswers'.trans hanswers⟩

/-- A command that is submitted goes on to wait for the reply that comes first, or it is refused. -/
theorem awaiting_or_attributed_of_submit (hkind : command.kind ≠ .startup)
    (hfresh : ∀ other, .submit other (some ticket) ∉ earlier)
    (hprimary : detector.Primary stem gap) (hframes : detector.Frames stem body) :
    let start := ofStimuli detector earlier
    (start.next (.submit command (some ticket))).Awaiting command ticket stem gap body
        start.dialogue.channel.awaited (received start.events + 1) [] ∨
      (start.next (.submit command (some ticket))).Attributed command ticket body := by
  intro start
  obtain ⟨hwaiter, hunanswered⟩ : start.dialogue.channel.waiter? ≠ some ticket ∧
      start.dialogue.channel.answersTo ticket = [] := unanswered_of_fresh hfresh
  have hdetector := detector_ofStimuli detector earlier
  rcases Dialogue.submit_cases command (some ticket) start.dialogue with
    ⟨e, carry, hsubmit, -⟩ | ⟨exited, hslot, -, hsubmit⟩
  · right
    constructor
    · rw [next, Dialogue.perform, hsubmit]
      exact hwaiter
    · intro response hresponse
      rw [next, Dialogue.perform, hsubmit] at hresponse
      change _ ∈ start.dialogue.channel.answersTo ticket at hresponse
      rw [hunanswered] at hresponse
      cases hresponse
  · left
    refine ⟨⟨body ++ stem, ?_, ?_⟩, ?_, ?_⟩
    · rw [next, Dialogue.perform, hsubmit]
      refine ⟨?_, ?_, rfl, rfl, by simp [hprimary.stem_ne_nil]⟩
      · exact hdetector.symm ▸ hprimary
      · exact hdetector.symm ▸ hframes
    · rw [next, Dialogue.perform, hsubmit]
      simp [grant, start]
    · rw [next, Dialogue.perform, hsubmit]
      exact hunanswered
    · simp [next, received, Dialogue.events, hsubmit, Event.taker?, hkind]

/-- A chunk that would go beyond the gap would leave no cut within it. -/
theorem prefix_of_cutWithinGaps {first rest chunk : Text} {before chunks : List Text}
    (hcut : CutWithinGaps gap [first.length] chunks) (hbefore : before ++ [chunk] <+: chunks)
    (hshort : before.flatten.length < first.length)
    (hlead : (before ++ [chunk]).flatten <+: first ++ gap ++ rest) :
    (before ++ [chunk]).flatten <+: first ++ gap := by
  obtain ⟨front, hfront, hlow, hhigh⟩ := hcut first.length (List.mem_singleton_self _)
  apply List.prefix_of_prefix_length_le hlead (List.prefix_append _ _)
  rw [List.length_append]
  rcases List.prefix_or_prefix_of_prefix hfront hbefore with hwithin | hbeyond
  · rcases List.prefix_concat_iff.1 hwithin with rfl | hearly
    · exact hhigh
    · have := hearly.flatten.length_le
      omega
  · have := hbeyond.flatten.length_le
    omega

section
variable (hanswers : AnswersInTurn detector stem gap bodies
    (earlier ++ .submit command (some ticket) :: later))
include hanswers

/-- Of what has arrived since the command was submitted, nothing lies behind the gap of the reply that
    comes first, as long as the command waits. -/
theorem Awaiting.fits {chunk : Text}
    (hcome : transcript stem gap
        ((List.range (received (ofStimuli detector earlier).events + 1)).map bodies) =
      (outputs earlier).flatten ++ lead ++ transcript stem gap (body :: others))
    (hcuts : others ≠ [] → CutWithinGaps gap [(lead ++ body ++ stem).length] (outputs later))
    (hfront : front ++ [.output chunk] <+: later)
    (hawaiting : (ofStimuli detector (earlier ++ .submit command (some ticket) :: front)).Awaiting
      command ticket stem gap body lead (received (ofStimuli detector earlier).events + 1)
      (outputs front).flatten) :
    (outputs front).flatten ++ chunk <+: lead ++ body ++ stem ++ gap := by
  obtain ⟨⟨ahead, hreceives, hlead⟩, -, hreceived⟩ := hawaiting
  have houtputs : outputs (front ++ [.output chunk]) = outputs front ++ [chunk] := by
    rw [outputs_append]
    rfl
  have hseen : (outputs front).flatten ++ chunk = (outputs front ++ [chunk]).flatten := by simp
  have harrived : (outputs front ++ [chunk]).flatten <+:
      lead ++ body ++ stem ++ gap ++ transcript stem gap others := by
    obtain ⟨back, rfl⟩ := hfront
    have hsplit : earlier ++ .submit command (some ticket) :: (front ++ [.output chunk] ++ back) =
        (earlier ++ .submit command (some ticket) :: front) ++ .output chunk :: back := by simp
    have houtput := hanswers.output (earlier ++ .submit command (some ticket) :: front).length (by simp)
    rw [hsplit, List.take_left, List.take_length_add_append, hreceived, hcome] at houtput
    have hbehind : outputs (earlier ++ .submit command (some ticket) :: front ++
        List.take 1 (.output chunk :: back)) =
        outputs earlier ++ (outputs front ++ [chunk]) := by
      rw [List.append_assoc, outputs_append, ← houtputs]
      rfl
    rw [hbehind, List.flatten_append, List.append_assoc (outputs earlier).flatten,
      List.prefix_append_right_inj] at houtput
    simpa [transcript] using houtput
  rw [hseen]
  by_cases hothers : others = []
  · rw [hothers] at harrived
    simpa [transcript] using harrived
  · have hshort : (outputs front).flatten.length < (lead ++ body ++ stem).length := by
      have := List.length_pos_of_ne_nil hreceives.ahead_ne_nil
      rw [hlead, List.length_append, List.length_append]
      omega
    have hbefore : outputs front ++ [chunk] <+: outputs later := by
      rw [← houtputs]
      exact hfront.filterMap Stimulus.chunk?
    exact prefix_of_cutWithinGaps (hcuts hothers) hbefore hshort harrived

variable (hkind : command.kind ≠ .startup)
  (hfresh : ∀ other, .submit other (some ticket) ∉ earlier ++ later)
include hkind hfresh

/-- At every moment after the command was submitted it waits for the reply that comes first, or it can
    only have been answered with that one. -/
theorem awaiting_or_attributed (hframes : detector.Frames stem body)
    (hcome : transcript stem gap
        ((List.range (received (ofStimuli detector earlier).events + 1)).map bodies) =
      (outputs earlier).flatten ++ (ofStimuli detector earlier).dialogue.channel.awaited ++
        transcript stem gap (body :: others))
    (hcuts : others ≠ [] → CutWithinGaps gap
      [((ofStimuli detector earlier).dialogue.channel.awaited ++ body ++ stem).length] (outputs later))
    (hfront : front <+: later) :
    let now := ofStimuli detector (earlier ++ .submit command (some ticket) :: front)
    now.Awaiting command ticket stem gap body (ofStimuli detector earlier).dialogue.channel.awaited
        (received (ofStimuli detector earlier).events + 1) (outputs front).flatten ∨
      now.Attributed command ticket body := by
  induction front using List.reverseRecOn with
  | nil =>
    have hfresh' : ∀ other, .submit other (some ticket) ∉ earlier := fun other hmem =>
      hfresh other (List.mem_append_left _ hmem)
    rw [ofStimuli_append_singleton]
    exact awaiting_or_attributed_of_submit hkind hfresh' hanswers.primary hframes
  | append_singleton front stimulus ih =>
    have hnow : ofStimuli detector
        (earlier ++ .submit command (some ticket) :: (front ++ [stimulus])) =
        (ofStimuli detector (earlier ++ .submit command (some ticket) :: front)).next stimulus := by
      rw [← ofStimuli_append_singleton, List.append_assoc, List.cons_append]
    rw [hnow]
    have hbefore : front <+: later := (List.prefix_append _ _).trans hfront
    rcases ih hbefore with hawaiting | hattributed
    · have hfits : ∀ chunk, stimulus = .output chunk → (outputs front).flatten ++ chunk <+:
          (ofStimuli detector earlier).dialogue.channel.awaited ++ body ++ stem ++ gap := by
        rintro chunk rfl
        exact hawaiting.fits hanswers hcome hcuts hfront
      have hseen : (outputs (front ++ [stimulus])).flatten =
          (outputs front).flatten ++ stimulus.chunk?.getD [] := by
        rw [outputs_append, List.flatten_append]
        cases stimulus <;> simp [outputs, Stimulus.chunk?]
      rw [hseen]
      exact hawaiting.next hfits
    · right
      obtain ⟨hkept, -⟩ :=
        kept_ofStimuli detector (earlier ++ .submit command (some ticket) :: front)
      apply hattributed.next hkept
      rintro other rfl
      apply hfresh other
      exact List.mem_append_right _ (hfront.subset (by simp))

/-- Whoever submits a command gets, if anything, the reply that comes first from then on. If nothing but
    the awaited end of the last prompt was to come, that is the reply to the command itself; otherwise
    it is what comes up to the next prompt behind that end, whatever command it answers. -/
theorem text_of_completed {response : Response}
    (hresponse : (ticket, .completed response) ∈ (ofStimuli detector
      (earlier ++ .submit command (some ticket) :: later)).dialogue.channel.answers) :
    let start := ofStimuli detector earlier
    let own := bodies (received start.events)
    ∃ tocome, transcript stem gap ((List.range (received start.events)).map bodies) =
        (outputs earlier).flatten ++ tocome ∧
      (tocome = start.dialogue.channel.awaited →
        response.command = command ∧ response.text = own) ∧
      ∀ body others, tocome ++ transcript stem gap [own] =
          start.dialogue.channel.awaited ++ transcript stem gap (body :: others) →
        detector.Frames stem body →
        (others ≠ [] → CutWithinGaps gap
          [(start.dialogue.channel.awaited ++ body ++ stem).length] (outputs later)) →
        response.command = command ∧ response.text = body := by
  intro start own
  obtain ⟨tocome, htocome⟩ : (outputs earlier).flatten <+:
      transcript stem gap ((List.range (received start.events)).map bodies) := by
    have houtput := hanswers.output earlier.length (by simp)
    have hsubmitted : outputs (List.take 1 (.submit command (some ticket) :: later)) = [] := rfl
    rw [List.take_left, List.take_length_add_append, outputs_append, hsubmitted,
      List.append_nil] at houtput
    exact houtput
  have hfirst (body : Text) (others : List Text)
      (hparse : tocome ++ transcript stem gap [own] =
        start.dialogue.channel.awaited ++ transcript stem gap (body :: others))
      (hframes : detector.Frames stem body)
      (hcuts : others ≠ [] → CutWithinGaps gap
        [(start.dialogue.channel.awaited ++ body ++ stem).length] (outputs later)) :
      response.command = command ∧ response.text = body := by
    have hcome : transcript stem gap ((List.range (received start.events + 1)).map bodies) =
        (outputs earlier).flatten ++ start.dialogue.channel.awaited ++
          transcript stem gap (body :: others) := by
      rw [List.append_assoc, ← hparse, ← List.append_assoc, htocome, List.range_succ, List.map_append]
      exact List.flatMap_append
    have hmem : .completed response ∈ (ofStimuli detector
        (earlier ++ .submit command (some ticket) :: later)).dialogue.channel.answersTo ticket :=
      List.mem_filterMap.2 ⟨_, hresponse, if_pos rfl⟩
    rcases awaiting_or_attributed hanswers hkind hfresh hframes hcome hcuts (List.prefix_refl later) with
      hawaiting | hattributed
    · rw [hawaiting.unanswered] at hmem
      cases hmem
    · exact hattributed.answers response hmem
  refine ⟨tocome, htocome.symm, ?_, hfirst⟩
  rintro rfl
  exact hfirst own [] rfl (hanswers.frames _) fun hothers => absurd rfl hothers

end

/-! ### A late answer -/

/-- What `print x` and `print y` are answered with. -/
def printed (n : Nat) : Text := if n = 0 then "$1 = 1\n".toList else "$2 = 2\n".toList

theorem frames_printed (n : Nat) : Frames ⟨["(gdb) ".toList]⟩ "(gdb)".toList (printed n) := by
  unfold printed
  split <;> decide +kernel

/-- The first command times out and its answer comes, in two chunks, before the second is given. -/
theorem text_of_completed_between :
    let earlier : List Stimulus := [.submit (.ofText "print x".toList false) (some 1), .abort,
      .output "$1 = 1\n(gd".toList, .output "b) ".toList]
    let response : Response := ⟨.ofText "print y".toList false, "$2 = 2\n".toList, false⟩
    (ofStimuli ⟨["(gdb) ".toList]⟩ (earlier ++ .submit (.ofText "print y".toList false) (some 2) ::
        [.output "$2 = 2\n(gdb) ".toList])).dialogue.channel.answers = [(2, .completed response)] ∧
      response.text = printed 1 := by
  intro earlier response
  have hanswers : AnswersInTurn ⟨["(gdb) ".toList]⟩ "(gdb)".toList " ".toList printed
      (earlier ++ .submit (.ofText "print y".toList false) (some 2) ::
        [.output "$2 = 2\n(gdb) ".toList]) := ⟨primary_gdb, frames_printed, by decide +kernel⟩
  have hresponse : (ofStimuli ⟨["(gdb) ".toList]⟩ (earlier ++
      .submit (.ofText "print y".toList false) (some 2) ::
        [.output "$2 = 2\n(gdb) ".toList])).dialogue.channel.answers = [(2, .completed response)] := by
    decide +kernel
  refine ⟨hresponse, ?_⟩
  obtain ⟨tocome, htocome, hown, -⟩ := text_of_completed hanswers (by decide) (by simp [earlier])
    (hresponse ▸ List.mem_singleton_self _)
  have harrived : transcript "(gdb)".toList " ".toList ((List.range (received
      (ofStimuli ⟨["(gdb) ".toList]⟩ earlier).events)).map printed) =
      (outputs earlier).flatten := by decide +kernel
  rw [harrived] at htocome
  have hnothing : tocome = (ofStimuli ⟨["(gdb) ".toList]⟩ earlier).dialogue.channel.awaited := by
    rw [List.append_right_eq_self.1 htocome.symm]
    decide +kernel
  exact (hown hnothing).2

/-- If the answer to a command that timed out comes only after the next one has been given, the next one
    gets it. -/
theorem not_own_text_of_late_answer :
    ¬ ∀ detector stem gap bodies earlier later command ticket response,
      AnswersInTurn detector stem gap bodies (earlier ++ .submit command (some ticket) :: later) →
      command.kind ≠ .startup → (∀ other, .submit other (some ticket) ∉ earlier ++ later) →
      (ticket, .completed response) ∈ (ofStimuli detector
        (earlier ++ .submit command (some ticket) :: later)).dialogue.channel.answers →
      response.text = bodies (received (ofStimuli detector earlier).events) := by
  intro hclaim
  let earlier : List Stimulus := [.submit (.ofText "print x".toList false) (some 1), .abort]
  let later : List Stimulus := [.output "$1 = 1\n(gdb) ".toList]
  have hanswers : AnswersInTurn ⟨["(gdb) ".toList]⟩ "(gdb)".toList " ".toList printed
      (earlier ++ .submit (.ofText "print y".toList false) (some 2) :: later) :=
    ⟨primary_gdb, frames_printed, by decide +kernel⟩
  have htext := hclaim _ _ _ _ _ _ _ _ ⟨.ofText "print y".toList false, "$1 = 1\n".toList, false⟩
    hanswers (by decide) (by simp [earlier, later]) (by decide +kernel)
  revert htext
  decide +kernel

end Chronicle
end DebugClient
