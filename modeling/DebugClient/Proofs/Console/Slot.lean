import DebugClient.Console.Dialogue
import DebugClient.Proofs.Console.Reception

/-!
What each operation on the slot does. A command gets the slot when it is free and the command can be
written; a queue whose oldest command cannot be written is lost together with the debugger. For each
thing that may happen to a dialogue there is a lemma that lists what it can come to.
-/

namespace DebugClient

namespace Channel

/-- Whether the command can be written at the moment. -/
def canWrite (command : Command) (channel : Channel) : Bool :=
  match channel.outlet with
  | none => false
  | some outlet => command.kind = .startup || outlet.accepting

/-- The channel once the command has been given the slot. -/
def grant (command : Command) (ticket : Option Nat) (channel : Channel) : Channel :=
  { channel with
    outlet := channel.outlet.map fun outlet =>
      { outlet with written := outlet.written ++ line command }
    carry := {}
    inFlight := some { command, ticket } }

variable {channel next : Channel} {command : Command} {ticket : Option Nat} {queue : List Command}

theorem issue_of_canWrite (hslot : channel.inFlight = none) (hwrite : channel.canWrite command) :
    channel.issue command ticket = (.ok (), channel.grant command ticket) := by
  obtain ⟨outlet, detector, carry, inFlight, queue, awaited, answers⟩ := channel
  cases hslot
  cases outlet with
  | none => cases hwrite
  | some outlet =>
    simp only [canWrite, Bool.or_eq_true, decide_eq_true_eq] at hwrite
    have hwritable : ¬ (command.kind ≠ .startup ∧ (!outlet.accepting) = true) := by
      rintro ⟨hkind, hrefusing⟩
      rcases hwrite with hstartup | haccepting
      · exact hkind hstartup
      · rw [haccepting] at hrefusing
        cases hrefusing
    simp only [issue, if_neg hwritable, grant, Option.map_some]

/-- A command that cannot be written is refused. At most the carry buffer is emptied by that. -/
theorem issue_of_not_canWrite (ticket : Option Nat) (hslot : channel.inFlight = none)
    (hwrite : channel.canWrite command = false) :
    ∃ e carry, channel.issue command ticket = (.error e, { channel with carry }) ∧
      (carry = channel.carry ∨ carry = {}) := by
  obtain ⟨outlet, detector, carry, inFlight, queue, awaited, answers⟩ := channel
  cases hslot
  cases outlet with
  | none => exact ⟨.notRunning, carry, rfl, .inl rfl⟩
  | some outlet =>
    have hrefused : command.kind ≠ .startup ∧ (!outlet.accepting) = true := by
      simpa [canWrite] using hwrite
    exact ⟨.io, {}, by simp only [issue, if_pos hrefused], .inr rfl⟩

theorem issue_eq_ok_iff : channel.issue command ticket = (.ok (), next) ↔
    channel.inFlight = none ∧ channel.canWrite command = true ∧
      next = channel.grant command ticket := by
  constructor
  · intro hissue
    cases hslot : channel.inFlight with
    | some flight =>
      rw [issue, hslot] at hissue
      cases hissue
    | none =>
      cases hwrite : channel.canWrite command with
      | false =>
        obtain ⟨e, carry, heq, -⟩ := issue_of_not_canWrite ticket hslot hwrite
        rw [heq] at hissue
        cases hissue
      | true =>
        rw [issue_of_canWrite hslot hwrite] at hissue
        cases hissue
        exact ⟨rfl, rfl, rfl⟩
  · rintro ⟨hslot, hwrite, rfl⟩
    exact issue_of_canWrite hslot hwrite

theorem dispatchNext_of_canWrite (hslot : channel.inFlight = none)
    (hqueue : channel.queue = command :: queue) (hwrite : channel.canWrite command) :
    channel.dispatchNext = (.ok (some command), { channel with queue }.grant command none) := by
  have hissue : { channel with queue }.issue command none =
      (.ok (), { channel with queue }.grant command none) := issue_of_canWrite hslot hwrite
  simp only [dispatchNext, hslot, hqueue]
  rw [hslot] at hissue
  simp only [hissue]

theorem dispatchNext_of_not_canWrite (hslot : channel.inFlight = none)
    (hqueue : channel.queue = command :: queue) (hwrite : channel.canWrite command = false) :
    ∃ e carry, channel.dispatchNext = (.error e, { channel with queue, carry }) ∧
      (carry = channel.carry ∨ carry = {}) := by
  have hslot' : { channel with queue }.inFlight = none := hslot
  obtain ⟨e, carry, hissue, hcarry⟩ := issue_of_not_canWrite none hslot' hwrite
  refine ⟨e, carry, ?_, hcarry⟩
  simp only [dispatchNext, hslot, hqueue]
  rw [hslot] at hissue
  simp only [hissue]

theorem dispatchNext_eq_ok_some_iff : channel.dispatchNext = (.ok (some command), next) ↔
    channel.inFlight = none ∧ ∃ queue, channel.queue = command :: queue ∧
      channel.canWrite command = true ∧ next = { channel with queue }.grant command none := by
  constructor
  · intro hdispatch
    cases hslot : channel.inFlight with
    | some flight =>
      rw [dispatchNext, hslot] at hdispatch
      cases hdispatch
    | none =>
      cases hqueue : channel.queue with
      | nil =>
        rw [dispatchNext, hslot, hqueue] at hdispatch
        cases hdispatch
      | cons oldest queue =>
        cases hwrite : channel.canWrite oldest with
        | false =>
          obtain ⟨e, carry, heq, -⟩ := dispatchNext_of_not_canWrite hslot hqueue hwrite
          rw [heq] at hdispatch
          cases hdispatch
        | true =>
          rw [dispatchNext_of_canWrite hslot hqueue hwrite] at hdispatch
          cases hdispatch
          exact ⟨rfl, queue, rfl, hwrite, rfl⟩
  · rintro ⟨hslot, queue, hqueue, hwrite, rfl⟩
    exact dispatchNext_of_canWrite hslot hqueue hwrite

theorem terminate_of_inFlight_eq_none (hslot : channel.inFlight = none) :
    channel.terminate = { channel with outlet := none, carry := {}, awaited := [], queue := [] } := by
  rw [terminate, hslot]
  rfl

theorem exists_terminate_eq (channel : Channel) : ∃ answers, channel.terminate =
    { channel with
      outlet := none, carry := {}, awaited := [], queue := [], inFlight := none, answers } := by
  rw [terminate]
  cases channel.inFlight.bind (·.ticket) with
  | none => exact ⟨channel.answers, rfl⟩
  | some ticket => exact ⟨_, rfl⟩

end Channel

namespace Dialogue
open Channel

variable {dialogue : Dialogue} {completion : Completion} {command : Command}

/-! ### Commands -/

theorem submit_of_inFlight {flight : InFlight} (hslot : dialogue.channel.inFlight = some flight)
    (command : Command) (ticket : Option Nat) :
    dialogue.submit command ticket = (.error (.busy flight.command.text), dialogue) := by
  rw [submit, issue, hslot]

/-- A command given in the foreground takes the free slot, or nothing changes but what is left in the
    carry buffer of a free slot. -/
theorem submit_cases (command : Command) (ticket : Option Nat) (dialogue : Dialogue) :
    (∃ e carry, dialogue.submit command ticket =
        (.error e, { dialogue with channel := { dialogue.channel with carry } }) ∧
      (carry = dialogue.channel.carry ∨ carry = {})) ∨
    (∃ exited, dialogue.channel.inFlight = none ∧ dialogue.channel.canWrite command = true ∧
      dialogue.submit command ticket =
        (.ok (), { dialogue with channel := dialogue.channel.grant command ticket, exited })) := by
  cases hslot : dialogue.channel.inFlight with
  | some flight =>
    exact .inl ⟨.busy flight.command.text, dialogue.channel.carry,
      submit_of_inFlight hslot command ticket, .inl rfl⟩
  | none =>
    cases hwrite : dialogue.channel.canWrite command with
    | true =>
      refine .inr ⟨if command.kind = .run then false else dialogue.exited, rfl, rfl, ?_⟩
      rw [submit, issue_of_canWrite hslot hwrite]
    | false =>
      obtain ⟨e, carry, hissue, hcarry⟩ := issue_of_not_canWrite ticket hslot hwrite
      refine .inl ⟨e, carry, ?_, hcarry⟩
      rw [submit, hissue]

/-- Where nothing waits for a free slot, a command given in the background waits behind the command in
    flight, takes the free slot, or is refused. -/
theorem enqueue_cases (hqueue : dialogue.channel.inFlight = none → dialogue.channel.queue = [])
    (command : Command) :
    (∃ e carry, dialogue.enqueue command =
        (.error e, { dialogue with channel := { dialogue.channel with carry } }) ∧
      (carry = dialogue.channel.carry ∨ carry = {})) ∨
    (∃ flight, dialogue.channel.inFlight = some flight ∧ dialogue.isRunning = true ∧
      dialogue.enqueue command =
        (.ok (), { dialogue with channel := dialogue.channel.enqueue command })) ∨
    (dialogue.channel.inFlight = none ∧ dialogue.channel.canWrite command = true ∧
      dialogue.enqueue command =
        (.ok (), { dialogue with channel := dialogue.channel.grant command none })) := by
  cases hrunning : dialogue.isRunning with
  | false =>
    refine .inl ⟨.notRunning, dialogue.channel.carry, ?_, .inl rfl⟩
    simp [enqueue, hrunning]
  | true =>
    cases hslot : dialogue.channel.inFlight with
    | some flight =>
      refine .inr (.inl ⟨flight, rfl, rfl, ?_⟩)
      simp [enqueue, hrunning, Channel.dispatchNext, Channel.enqueue, hslot, Except.map]
    | none =>
      have hslot' : (dialogue.channel.enqueue command).inFlight = none := hslot
      have hwaiting : (dialogue.channel.enqueue command).queue = [command] := by
        simp [Channel.enqueue, hqueue hslot]
      have hempty (carry : CarryBuffer) :
          { dialogue.channel.enqueue command with queue := [], carry } =
            { dialogue.channel with carry } := by
        rw [Channel.enqueue, ← hqueue hslot]
      cases hwrite : dialogue.channel.canWrite command with
      | true =>
        have hdispatch := dispatchNext_of_canWrite hslot' hwaiting hwrite
        rw [show { dialogue.channel.enqueue command with queue := [] } = dialogue.channel from
          hempty dialogue.channel.carry] at hdispatch
        refine .inr (.inr ⟨rfl, rfl, ?_⟩)
        simp [enqueue, hrunning, hdispatch, Except.map]
      | false =>
        obtain ⟨e, carry, hdispatch, hcarry⟩ := dispatchNext_of_not_canWrite hslot' hwaiting hwrite
        rw [hempty carry] at hdispatch
        refine .inl ⟨e, carry, ?_, hcarry⟩
        simp [enqueue, hrunning, hdispatch, Except.map]

theorem dispatchNext_of_queue_eq_nil (hslot : dialogue.channel.inFlight = none)
    (hqueue : dialogue.channel.queue = []) : dialogue.dispatchNext = dialogue := by
  rw [dispatchNext, Channel.dispatchNext, hslot, hqueue]

theorem dispatchNext_of_queue_eq_cons {queue : List Command}
    (hslot : dialogue.channel.inFlight = none) (hqueue : dialogue.channel.queue = command :: queue)
    (hwrite : dialogue.channel.canWrite command = true) : dialogue.dispatchNext =
      { dialogue with channel := { dialogue.channel with queue }.grant command none } := by
  rw [dispatchNext, dispatchNext_of_canWrite hslot hqueue hwrite]

/-- The free slot goes to the oldest background command, unless there is none or it cannot be written:
    then the debugger is given up. -/
theorem dispatchNext_cases (hslot : dialogue.channel.inFlight = none) :
    (dialogue.channel.queue = [] ∧ dialogue.dispatchNext = dialogue) ∨
    (∃ command queue, dialogue.channel.queue = command :: queue ∧
      dialogue.channel.canWrite command = true ∧ dialogue.dispatchNext =
        { dialogue with channel := { dialogue.channel with queue }.grant command none }) ∨
    (∃ command queue, dialogue.channel.queue = command :: queue ∧
      dialogue.channel.canWrite command = false ∧ dialogue.dispatchNext =
        { dialogue with channel :=
          { dialogue.channel with outlet := none, carry := {}, awaited := [], queue := [] } }) := by
  cases hqueue : dialogue.channel.queue with
  | nil => exact .inl ⟨rfl, dispatchNext_of_queue_eq_nil hslot hqueue⟩
  | cons command queue =>
    right
    cases hwrite : dialogue.channel.canWrite command with
    | true =>
      exact .inl ⟨command, queue, rfl, hwrite, dispatchNext_of_queue_eq_cons hslot hqueue hwrite⟩
    | false =>
      refine .inr ⟨command, queue, rfl, hwrite, ?_⟩
      obtain ⟨e, carry, heq, -⟩ := dispatchNext_of_not_canWrite hslot hqueue hwrite
      have hslot' : { dialogue.channel with queue, carry }.inFlight = none := hslot
      have hterminate := terminate_of_inFlight_eq_none hslot'
      rw [dispatchNext, heq]
      dsimp only
      rw [hterminate]

/-! ### Output -/

/-- The command in flight has left the slot. -/
def vacate (awaited : Text) (dialogue : Dialogue) : Dialogue :=
  { dialogue with
    channel := { dialogue.channel with carry := {}, awaited, inFlight := none } }

/-- What the step controller makes of a response. -/
def verdict (response : Response) (dialogue : Dialogue) : StepOutcome × StepState :=
  dialogue.steps.observe response.command.kind response.text
    (dialogue.refreshCatalogue response).catalogue

theorem verdict_with_channel (channel : Channel) (response : Response) :
    { dialogue with channel }.verdict response = dialogue.verdict response := by
  simp only [verdict, refreshCatalogue]
  split <;> rfl

@[simp] theorem verdict_vacate (awaited : Text) (response : Response) :
    (dialogue.vacate awaited).verdict response = dialogue.verdict response :=
  verdict_with_channel _ _

/-- The background commands that a response leaves waiting. -/
def waitingAfter (response : Response) (dialogue : Dialogue) : List Command :=
  if Stop.announcesExit response.text then []
  else dialogue.channel.queue ++ (dialogue.verdict response).1.followUp.toList

/-- The dialogue when a response has been dealt with and answered, before the slot is given away. -/
def settle (completion : Completion) (dialogue : Dialogue) : Dialogue where
  channel := { dialogue.channel with
    queue := dialogue.waitingAfter completion.response
    answers := dialogue.channel.answers ++ completion.ticket.toList.map fun ticket =>
      (ticket, .completed
        (decideDisplay (dialogue.verdict completion.response).1 completion.response)) }
  steps := if Stop.announcesExit completion.response.text then .idle
    else (dialogue.verdict completion.response).2
  catalogue := (dialogue.refreshCatalogue completion.response).catalogue
  exited := dialogue.exited || Stop.announcesExit completion.response.text

theorem complete_eq (completion : Completion) (dialogue : Dialogue) :
    dialogue.complete completion =
      (completion.tail.toList ++
        (if showsWhole (dialogue.verdict completion.response).1 completion.response then
          [completion.response.text] else []),
        (dialogue.settle completion).dispatchNext) := by
  obtain ⟨response, tail, ticket⟩ := completion
  have hrefresh : dialogue.refreshCatalogue response =
      { dialogue with catalogue := (dialogue.refreshCatalogue response).catalogue } := by
    rw [refreshCatalogue]
    split <;> rfl
  have hverdict : dialogue.steps.observe response.command.kind response.text
      (dialogue.refreshCatalogue response).catalogue = dialogue.verdict response := rfl
  simp only [complete, settle, waitingAfter]
  rw [hrefresh]
  dsimp only
  rw [hverdict]
  obtain ⟨outcome, steps⟩ := dialogue.verdict response
  cases hexit : Stop.announcesExit response.text with
  | true => cases ticket <;> simp [respond, answer, markExited, clearQueue]
  | false =>
    cases hfollow : outcome.followUp <;> cases ticket <;>
      simp [respond, answer, Channel.enqueue]

/-- A chunk of output that nobody waits for changes nothing, or it tells that the target has ended; a
    chunk for the command in flight is kept, or it completes the command. -/
theorem onOutput_cases (chunk : Text) (dialogue : Dialogue) :
    (∃ text awaited, dialogue.channel.inFlight = none ∧
      (dialogue.channel.feed chunk).1 = .unsolicited text ∧
      ((dialogue.onOutput chunk).2 =
          { dialogue with channel := { dialogue.channel with awaited } } ∨
        Stop.announcesExit text = true ∧ (dialogue.onOutput chunk).2 =
          { dialogue with
            channel := { dialogue.channel with awaited, queue := [] }
            steps := .idle
            exited := true })) ∨
    (∃ flight out carry awaited, dialogue.channel.inFlight = some flight ∧
      (dialogue.channel.feed chunk).1 = .pending out ∧ dialogue.onOutput chunk =
        (out.toList, { dialogue with channel := { dialogue.channel with carry, awaited } })) ∨
    (∃ flight completion awaited, dialogue.channel.inFlight = some flight ∧
      completion.response.command = flight.command ∧
      (dialogue.channel.feed chunk).1 = .complete completion ∧
      (dialogue.onOutput chunk).2 = ((dialogue.vacate awaited).settle completion).dispatchNext) := by
  rcases feed_cases chunk dialogue.channel with ⟨text, awaited, hslot, hfeed⟩ |
    ⟨flight, out, carry, awaited, hslot, hfeed⟩ | ⟨flight, text, tail, awaited, hslot, hfeed⟩
  · refine .inl ⟨text, awaited, hslot, by rw [hfeed], ?_⟩
    rw [onOutput, hfeed]
    dsimp only
    split
    · exact .inl rfl
    · split
      · next hexit => exact .inr ⟨hexit, rfl⟩
      · exact .inl rfl
  · refine .inr (.inl ⟨flight, out, carry, awaited, hslot, by rw [hfeed], ?_⟩)
    rw [onOutput, hfeed]
  · refine .inr (.inr ⟨flight, _, awaited, hslot, ?_, by rw [hfeed], ?_⟩)
    · rfl
    · rw [onOutput, hfeed]
      exact congrArg Prod.snd (complete_eq _ (dialogue.vacate awaited))

end Dialogue
end DebugClient
