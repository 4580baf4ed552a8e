import DebugClient.Proofs.Console.Attribution
import DebugClient.Proofs.Console.Replying
import DebugClient.Proofs.Console.StepOver

/-!
A conversation in whole replies, with a line for each command. What is on its way to the debugger is the
line of the command in flight, and the reply to it completes that command. What follows from the answer
of itself, the `finish` and the `next` of a skip, is the next command in flight and has put its line on
the way.
-/

namespace DebugClient

/-- The command writes one line. -/
structure Command.IsLine (command : Command) : Prop where
  kind : command.kind ≠ .startup
  text : '\n' ∉ command.text

theorem Command.IsLine.line_eq {command : Command} (hline : command.IsLine) :
    Channel.line command = command.text ++ ['\n'] := if_neg hline.kind

namespace Dialogue
open Channel StepState

/-- What has been written and not yet been collected. -/
def onItsWay (dialogue : Dialogue) : Text := dialogue.channel.outlet.elim [] (·.written)

/-- The dialogue when all that is on its way has been collected. -/
def collected (dialogue : Dialogue) : Dialogue :=
  { dialogue with channel := { dialogue.channel with outlet := some {} } }

/-- No part of a reply has been taken in, and nothing waits behind the command in flight. -/
structure Ready (detector : PromptDetector) (dialogue : Dialogue) : Prop where
  detector_eq : dialogue.channel.detector = detector
  outlet : dialogue.channel.outlet = some { written := dialogue.onItsWay }
  carry : dialogue.channel.carry = {}
  awaited : dialogue.channel.awaited = []
  queue : dialogue.channel.queue = []

/-- Besides, the line of the command in flight is on its way, and nothing else. Without such a command
    no skip is in progress. -/
structure Conversing (detector : PromptDetector) (dialogue : Dialogue) : Prop extends
    dialogue.Ready detector where
  isLine : ∀ flight, dialogue.channel.inFlight = some flight → flight.command.IsLine
  onItsWay_eq : dialogue.onItsWay = dialogue.channel.inFlight.elim [] fun flight => line flight.command
  steps : dialogue.channel.inFlight = none → dialogue.steps = .idle

/-- The command that an answer is followed by of itself. -/
def successor? (flight : InFlight) (body : Text) (dialogue : Dialogue) : Option Command :=
  if Stop.announcesExit body then none
  else (dialogue.verdict (completion flight body none).response).1.followUp

/-- The dialogue when the line of the command in flight has been collected, and answered with this
    body. -/
def replied (flight : InFlight) (body : Text) (dialogue : Dialogue) : Dialogue :=
  dialogue.collected.answered flight body

variable {detector : PromptDetector} {dialogue : Dialogue} {flight : InFlight} {body : Text}

section
variable {written : Text} {inFlight : Option InFlight} {answers : List (Nat × Answer)}
  (hchannel : dialogue.channel = { outlet := some { written }, detector, inFlight, answers })
include hchannel

theorem onItsWay_of_channel : dialogue.onItsWay = written := by
  rw [onItsWay, hchannel]
  rfl

theorem ready_of_channel : dialogue.Ready detector := by
  have hwritten := onItsWay_of_channel hchannel
  obtain ⟨channel, steps, catalogue, exited⟩ := dialogue
  cases hchannel
  cases hwritten
  exact ⟨rfl, rfl, rfl, rfl, rfl⟩

theorem conversing_of_channel (hlines : ∀ flight, inFlight = some flight → flight.command.IsLine)
    (hwritten : written = inFlight.elim [] fun flight => line flight.command)
    (hsteps : inFlight = none → dialogue.steps = .idle) : dialogue.Conversing detector := by
  refine ⟨ready_of_channel hchannel, ?_, ?_, ?_⟩
  · rw [hchannel]
    exact hlines
  · rw [onItsWay_of_channel hchannel, hchannel]
    exact hwritten
  · rw [hchannel]
    exact hsteps

end

theorem Conversing.onItsWay_eq_nil (hconversing : dialogue.Conversing detector)
    (hslot : dialogue.channel.inFlight = none) : dialogue.onItsWay = [] := by
  rw [hconversing.onItsWay_eq, hslot]
  rfl

theorem Conversing.onItsWay_eq_line (hconversing : dialogue.Conversing detector)
    (hslot : dialogue.channel.inFlight = some flight) :
    dialogue.onItsWay = flight.command.text ++ ['\n'] := by
  rw [hconversing.onItsWay_eq, hslot]
  exact (hconversing.isLine flight hslot).line_eq

theorem Conversing.ready_collected (hconversing : dialogue.Conversing detector) :
    dialogue.collected.Ready detector :=
  ⟨hconversing.detector_eq, rfl, hconversing.carry, hconversing.awaited, hconversing.queue⟩

/-! ### What follows from an answer -/

theorem steps_answered (flight : InFlight) (body : Text) (dialogue : Dialogue) :
    (dialogue.answered flight body).steps = if Stop.announcesExit body then .idle
      else (dialogue.verdict (completion flight body none).response).2 := by
  rw [answered, steps_dispatchNext, ← verdict_vacate []]
  rfl

/-- Behind a `step` that enters an unknown function there may be a `finish`, and behind a `finish` that
    leads back to the line a `next`; the skip is over then. -/
theorem successor?_cases (flight : InFlight) (body : Text) (dialogue : Dialogue) :
    (dialogue.successor? flight body = none ∧ (dialogue.answered flight body).steps = .idle) ∨
    (dialogue.successor? flight body = some automaticFinish ∧ flight.command.kind = .step ∧
      entersUnknown dialogue.catalogue body = true ∧ dialogue.steps = .idle ∧
      (dialogue.answered flight body).steps = .awaitingSkipDecision (Stop.stoppedLine body)) ∨
    (dialogue.successor? flight body = some automaticNext ∧
      (dialogue.answered flight body).steps = .idle ∧
      dialogue.steps = .awaitingSkipDecision (Stop.stoppedLine body)) := by
  let response := (completion flight body none).response
  rw [steps_answered, successor?]
  cases Stop.announcesExit body with
  | true => exact .inl ⟨rfl, rfl⟩
  | false =>
    simp only [Bool.false_eq_true, if_false]
    cases hsteps : dialogue.steps with
    | idle =>
      by_cases henters : response.command.kind = .step ∧
          entersUnknown dialogue.catalogue response.text = true
      · right; left
        rw [verdict_of_enters hsteps henters]
        exact ⟨rfl, henters.1, henters.2, rfl, rfl⟩
      · left
        rw [verdict_of_not_enters hsteps henters]
        exact ⟨rfl, rfl⟩
    | awaitingSkipDecision finishFrom =>
      rw [verdict, hsteps, observe]
      split
      · next hline =>
        refine .inr (.inr ⟨rfl, rfl, ?_⟩)
        rw [← hline]
        rfl
      · exact .inl ⟨rfl, rfl⟩

/-- A successor writes one line. -/
theorem isLine_of_successor? {command : Command}
    (hfollow : dialogue.successor? flight body = some command) : command.IsLine := by
  rcases successor?_cases flight body dialogue with ⟨hnone, -⟩ | ⟨hfinish, -⟩ | ⟨hnext, -⟩
  · rw [hfollow] at hnone
    cases hnone
  · rw [hfollow] at hfinish
    cases hfinish
    exact ⟨by decide, by decide⟩
  · rw [hfollow] at hnext
    cases hnext
    exact ⟨by decide, by decide⟩

/-- The answer has been given, and the successor has the slot. -/
theorem Ready.channel_answered (hready : dialogue.Ready detector) (flight : InFlight) (body : Text) :
    (dialogue.answered flight body).channel =
      { outlet := some { written := dialogue.onItsWay ++
          (dialogue.successor? flight body).elim [] Channel.line }
        detector
        inFlight := (dialogue.successor? flight body).map fun command => { command }
        answers := ((dialogue.vacate []).settle (completion flight body none)).channel.answers } := by
  let settled := (dialogue.vacate []).settle (completion flight body none)
  have houtlet : settled.channel.outlet = some { written := dialogue.onItsWay } := hready.outlet
  have hdetector : settled.channel.detector = detector := hready.detector_eq
  have hqueue : settled.channel.queue = (dialogue.successor? flight body).toList := by
    have hwaiting : settled.channel.queue =
        (dialogue.vacate []).waitingAfter (completion flight body none).response := rfl
    have hnone : (dialogue.vacate []).channel.queue = [] := hready.queue
    have htext : (completion flight body none).response.text = body := rfl
    rw [hwaiting, waitingAfter, verdict_vacate, hnone, htext, successor?]
    split
    · rfl
    · rfl
  have hsettled : settled.channel =
      { outlet := some { written := dialogue.onItsWay }, detector
        queue := (dialogue.successor? flight body).toList, answers := settled.channel.answers } := by
    rw [← houtlet, ← hdetector, ← hqueue]
    rfl
  rw [answered, dispatchNext_of_accepting rfl houtlet rfl, hqueue]
  cases hfollow : dialogue.successor? flight body with
  | none =>
    rw [hfollow] at hsettled
    rw [Option.elim_none, List.append_nil]
    exact hsettled
  | some command =>
    dsimp only [Option.toList_some]
    rw [hsettled]
    rfl

/-- If all that was on its way has been collected, the answer leads on in the conversation. -/
theorem Ready.conversing_answered (hready : dialogue.Ready detector) (hnothing : dialogue.onItsWay = [])
    (flight : InFlight) (body : Text) : (dialogue.answered flight body).Conversing detector := by
  have hchannel := hready.channel_answered flight body
  rw [hnothing, List.nil_append] at hchannel
  refine conversing_of_channel hchannel ?_ ?_ ?_
  · intro successor hsuccessor
    obtain ⟨command, hfollow, rfl⟩ := Option.map_eq_some_iff.1 hsuccessor
    exact isLine_of_successor? hfollow
  · cases dialogue.successor? flight body <;> rfl
  · intro hnone
    rcases successor?_cases flight body dialogue with ⟨-, hidle⟩ | ⟨hfinish, -⟩ | ⟨-, hidle, -⟩
    · exact hidle
    · rw [hfinish] at hnone
      cases hnone
    · exact hidle

/-- Nothing follows while no skip is in progress, unless a `step` has been answered. -/
theorem Ready.inFlight_answered (hready : dialogue.Ready detector) (hidle : dialogue.steps = .idle)
    (hkind : flight.command.kind ≠ .step) (body : Text) :
    (dialogue.answered flight body).channel.inFlight = none := by
  rw [hready.channel_answered flight body]
  rcases successor?_cases flight body dialogue with ⟨hfollow, -⟩ | ⟨-, hstep, -⟩ | ⟨-, -, hbusy⟩
  · rw [hfollow]
    rfl
  · exact absurd hstep hkind
  · rw [hidle] at hbusy
    cases hbusy

/-- Whoever waits for the command in flight is given the body of the reply, and nobody waits for what
    follows. -/
theorem answers_answered (flight : InFlight) (body : Text) (dialogue : Dialogue) :
    (dialogue.answered flight body).channel.waiter? = none ∧
      ∃ response, response.text = body ∧ (dialogue.answered flight body).channel.answers =
        dialogue.channel.answers ++ flight.ticket.toList.map (·, .completed response) := by
  have hfreed : ((dialogue.vacate []).settle (completion flight body none)).channel.inFlight = none :=
    rfl
  obtain ⟨hfree, hanswers⟩ := waiter?_dispatchNext hfreed
  rw [Dialogue.answered]
  exact ⟨hfree, _, rfl, hanswers⟩

/-! ### A line for a reply -/

theorem Conversing.replied (hconversing : dialogue.Conversing detector) (flight : InFlight)
    (body : Text) : (dialogue.replied flight body).Conversing detector :=
  hconversing.ready_collected.conversing_answered rfl flight body

/-- What becomes of the slot and of a skip: at most one command follows, of a kind of its own. -/
theorem Conversing.replied_cases (hconversing : dialogue.Conversing detector) (flight : InFlight)
    (body : Text) :
    ((dialogue.replied flight body).channel.inFlight = none ∧
      (dialogue.replied flight body).steps = .idle) ∨
    ((dialogue.replied flight body).channel.inFlight = some { command := automaticFinish } ∧
      flight.command.kind = .step ∧ entersUnknown dialogue.catalogue body = true ∧
      dialogue.steps = .idle ∧
      (dialogue.replied flight body).steps = .awaitingSkipDecision (Stop.stoppedLine body)) ∨
    ((dialogue.replied flight body).channel.inFlight = some { command := automaticNext } ∧
      (dialogue.replied flight body).steps = .idle ∧
      dialogue.steps = .awaitingSkipDecision (Stop.stoppedLine body)) := by
  have hslot := hconversing.ready_collected.channel_answered flight body
  rw [Dialogue.replied, hslot]
  rcases successor?_cases flight body dialogue.collected with ⟨hfollow, hrest⟩ | ⟨hfollow, hrest⟩ |
    ⟨hfollow, hrest⟩
  · rw [hfollow]
    exact .inl ⟨rfl, hrest⟩
  · rw [hfollow]
    exact .inr (.inl ⟨rfl, hrest⟩)
  · rw [hfollow]
    exact .inr (.inr ⟨rfl, hrest⟩)

/-- Nobody waits for an answer, and these have been given. -/
structure HasAnswers (answers : List (Nat × Answer)) (dialogue : Dialogue) : Prop where
  waiter : dialogue.channel.waiter? = none
  answers_eq : dialogue.channel.answers = answers

theorem HasAnswers.replied {answers : List (Nat × Answer)} (hholds : dialogue.HasAnswers answers)
    (hslot : dialogue.channel.inFlight = some flight) (body : Text) :
    (dialogue.replied flight body).HasAnswers answers := by
  obtain ⟨hwaiter, response, -, hanswers⟩ := answers_answered flight body dialogue.collected
  have hticket : flight.ticket = none := by
    have hfree := hholds.waiter
    rwa [waiter?, hslot] at hfree
  rw [hticket, Option.toList_none, List.map_nil, List.append_nil] at hanswers
  exact ⟨hwaiter, hanswers.trans hholds.answers_eq⟩

/-- When the command that somebody waits for is answered, that is the only answer. -/
theorem exists_hasAnswers (hnone : dialogue.channel.answers = []) (command : Command) (body : Text) :
    ∃ response, response.text = body ∧
      (dialogue.answered { command, ticket := some 0 } body).HasAnswers [(0, .completed response)] := by
  obtain ⟨hwaiter, response, htext, hanswers⟩ :=
    answers_answered { command, ticket := some 0 } body dialogue
  rw [hnone] at hanswers
  exact ⟨response, htext, hwaiter, hanswers⟩

/-! ### Commands -/

/-- A command that is given while none is in flight gets the slot. -/
theorem Ready.submit (hready : dialogue.Ready detector) (hslot : dialogue.channel.inFlight = none)
    (hanswers : dialogue.channel.answers = []) (command : Command) : ∃ started,
      dialogue.submit command (some 0) = (.ok (), started) ∧ started.steps = dialogue.steps ∧
      started.channel = { outlet := some { written := dialogue.onItsWay ++ line command }
                          detector, inFlight := some { command, ticket := some 0 } } := by
  have hwrite : dialogue.channel.canWrite command = true := by
    rw [canWrite, hready.outlet]
    simp
  rw [Dialogue.submit, issue_of_canWrite hslot hwrite]
  refine ⟨_, rfl, rfl, ?_⟩
  rw [grant, hready.outlet, hready.detector_eq, hready.queue, hready.awaited, hanswers]
  rfl

end Dialogue
end DebugClient
