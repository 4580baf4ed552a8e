import DebugClient.Proofs.Console.Attribution
import DebugClient.Proofs.Console.Refusal

/-!
Whoever submits a command with a ticket is answered once, with the answer to that command. At every
later moment the command is still in flight, or it has been answered with its own response, or it was
in flight when the debugger was given up and the answer says so, or it was aborted and there is no
answer and never will be.
-/

namespace DebugClient
namespace Dialogue
open Channel

/-- The command is in flight and has not been answered. -/
structure Outstanding (command : Command) (ticket : Nat) (dialogue : Dialogue) : Prop where
  slot : dialogue.channel.inFlight = some { command, ticket := some ticket }
  unanswered : dialogue.channel.answersTo ticket = []

/-- Nobody waits with the ticket, and these are the answers it was given. -/
structure Settled (ticket : Nat) (answers : List Answer) (dialogue : Dialogue) : Prop where
  left : dialogue.channel.waiter? ≠ some ticket
  answered : dialogue.channel.answersTo ticket = answers

/-- The command was in flight, unanswered, until this happened. -/
def OutstandingUntil (command : Command) (ticket : Nat) (stimulus : Stimulus) (start : Dialogue)
    (stimuli : List Stimulus) : Prop :=
  ∃ front back, stimuli = front ++ stimulus :: back ∧ (start.performAll front).Outstanding command ticket

/-- The ticket is not given with a command among these stimuli. -/
def Unused (ticket : Nat) (stimuli : List Stimulus) : Prop :=
  ∀ command, .submit command (some ticket) ∉ stimuli

end Dialogue

/-- What may become of a command that has been submitted with a ticket. -/
inductive Fate where
  | pending
  | answered
  | terminated
  | aborted
  deriving DecidableEq, Repr

/-- This has become of the command that was in flight at the start, with the ticket, when all of the
    stimuli have happened. -/
def Fate.Holds (command : Command) (ticket : Nat) (start : Dialogue) (stimuli : List Stimulus) :
    Fate → Prop
  | .pending => (start.performAll stimuli).Outstanding command ticket
  | .answered => ∃ chunk response, start.OutstandingUntil command ticket (.output chunk) stimuli ∧
    response.command = command ∧ (start.performAll stimuli).Settled ticket [.completed response]
  | .terminated => start.OutstandingUntil command ticket .close stimuli ∧
    (start.performAll stimuli).Settled ticket [.terminated]
  | .aborted => start.OutstandingUntil command ticket .abort stimuli ∧
    ∀ more, Dialogue.Unused ticket more → (start.performAll (stimuli ++ more)).Settled ticket []

namespace Dialogue
open Channel

variable {dialogue start : Dialogue} {command : Command} {ticket : Nat} {stimulus : Stimulus}
  {stimuli : List Stimulus} {answers : List Answer} {sent : Text}

theorem performAll_append (front back : List Stimulus) (dialogue : Dialogue) :
    dialogue.performAll (front ++ back) = (dialogue.performAll front).performAll back :=
  List.foldl_append

theorem OutstandingUntil.append (huntil : start.OutstandingUntil command ticket stimulus stimuli)
    (more : List Stimulus) : start.OutstandingUntil command ticket stimulus (stimuli ++ more) := by
  obtain ⟨front, back, rfl, houtstanding⟩ := huntil
  exact ⟨front, back ++ more, by simp, houtstanding⟩

/-! ### Once the command has left the slot -/

theorem Settled.perform (hsettled : dialogue.Settled ticket answers)
    (hkept : dialogue.channel.Kept sent)
    (hother : ∀ command, stimulus ≠ .submit command (some ticket)) :
    (dialogue.perform stimulus).Settled ticket answers := by
  obtain ⟨hleft, hanswers⟩ := answersTo_perform hkept hsettled.left hother
  exact ⟨hleft, hanswers.trans hsettled.answered⟩

theorem Settled.performAll (hsettled : dialogue.Settled ticket answers) (hreached : dialogue.Reached)
    (hunused : Unused ticket stimuli) : (dialogue.performAll stimuli).Settled ticket answers := by
  induction stimuli generalizing dialogue with
  | nil => exact hsettled
  | cons stimulus stimuli ih =>
    obtain ⟨sent, hkept⟩ := hreached.exists_kept
    have hother : ∀ command, stimulus ≠ .submit command (some ticket) := by
      rintro command rfl
      exact hunused command List.mem_cons_self
    apply ih (hsettled.perform hkept hother) (hreached.perform stimulus)
    intro command hmem
    exact hunused command (List.mem_cons_of_mem _ hmem)

/-! ### While the command is in flight -/

/-- The only answer to the command is the one it leaves the slot with. -/
theorem Outstanding.settled {after : Dialogue} {answer : Answer}
    (houtstanding : dialogue.Outstanding command ticket) (hfree : after.channel.waiter? = none)
    (hanswers : after.channel.answers = dialogue.channel.answers ++ [(ticket, answer)]) :
    after.Settled ticket [answer] := by
  have happend : after.channel.answersTo ticket = dialogue.channel.answersTo ticket ++
      if some ticket = some ticket then [answer] else [] := answersTo_append hanswers
  constructor
  · rw [hfree]
    simp
  · rw [happend, houtstanding.unanswered, if_pos rfl, List.nil_append]

/-- Output leaves the command in flight where it is, or it answers whoever waits for that command and
    nobody waits any more. -/
theorem slot_onOutput (chunk : Text) (dialogue : Dialogue) :
    ((dialogue.onOutput chunk).2.channel.inFlight = dialogue.channel.inFlight ∧
      (dialogue.onOutput chunk).2.channel.answers = dialogue.channel.answers) ∨
    ∃ flight response, dialogue.channel.inFlight = some flight ∧ response.command = flight.command ∧
      (dialogue.onOutput chunk).2.channel.waiter? = none ∧
      (dialogue.onOutput chunk).2.channel.answers =
        dialogue.channel.answers ++ flight.ticket.toList.map (·, .completed response) := by
  rcases onOutput_cases chunk dialogue with ⟨text, awaited, -, -, hsame | ⟨-, hexited⟩⟩ |
    ⟨flight, out, carry, awaited, -, -, hafter⟩ |
    ⟨flight, completion, awaited, hslot, hcommand, hfeed, hafter⟩
  · left
    rw [hsame]
    exact ⟨rfl, rfl⟩
  · left
    rw [hexited]
    exact ⟨rfl, rfl⟩
  · left
    rw [hafter]
    exact ⟨rfl, rfl⟩
  · right
    let settled := (dialogue.vacate awaited).settle completion
    let answered :=
      decideDisplay ((dialogue.vacate awaited).verdict completion.response).1 completion.response
    have hanswered : settled.channel.answers =
        dialogue.channel.answers ++ flight.ticket.toList.map (·, .completed answered) := by
      rw [← ticket_of_feed hslot hfeed]
      rfl
    have hfreed : settled.channel.inFlight = none := rfl
    obtain ⟨hfree, hanswers⟩ := waiter?_dispatchNext hfreed
    rw [hafter]
    exact ⟨flight, answered, hslot, hcommand, hfree, hanswers.trans hanswered⟩

theorem Outstanding.onOutput (houtstanding : dialogue.Outstanding command ticket) (chunk : Text) :
    (dialogue.onOutput chunk).2.Outstanding command ticket ∨
      ∃ response, response.command = command ∧
        (dialogue.onOutput chunk).2.Settled ticket [.completed response] := by
  rcases slot_onOutput chunk dialogue with ⟨hslot, hanswers⟩ |
    ⟨flight, response, hslot, hcommand, hfree, hanswers⟩
  · left
    refine ⟨hslot.trans houtstanding.slot, ?_⟩
    rw [answersTo, hanswers]
    exact houtstanding.unanswered
  · right
    obtain rfl := Option.some_inj.1 (hslot.symm.trans houtstanding.slot)
    exact ⟨response, hcommand, houtstanding.settled hfree hanswers⟩

/-- Whatever happens, a command in flight stays there unanswered, or it leaves with the one answer that
    fits what happened. -/
theorem Outstanding.perform (houtstanding : dialogue.Outstanding command ticket) (stimulus : Stimulus) :
    (dialogue.perform stimulus).Outstanding command ticket ∨
      (∃ chunk response, stimulus = .output chunk ∧ response.command = command ∧
        (dialogue.perform stimulus).Settled ticket [.completed response]) ∨
      (stimulus = .close ∧ (dialogue.perform stimulus).Settled ticket [.terminated]) ∨
      (stimulus = .abort ∧ (dialogue.perform stimulus).Settled ticket []) := by
  cases stimulus with
  | submit other given =>
    left
    rw [Dialogue.perform, submit_of_inFlight houtstanding.slot]
    exact houtstanding
  | enqueue other =>
    left
    obtain ⟨result, queue, henqueue⟩ := enqueue_of_inFlight houtstanding.slot other
    rw [Dialogue.perform, henqueue]
    exact ⟨houtstanding.slot, houtstanding.unanswered⟩
  | output chunk =>
    rcases houtstanding.onOutput chunk with hstill | ⟨response, hcommand, hsettled⟩
    · exact .inl hstill
    · exact .inr (.inl ⟨chunk, response, rfl, hcommand, hsettled⟩)
  | close =>
    right; right; left
    have hwaiter : dialogue.channel.waiter? = some ticket := by
      rw [waiter?, houtstanding.slot]
      rfl
    have hanswers := answers_terminate dialogue.channel
    rw [hwaiter] at hanswers
    have hfree : dialogue.onClosed.channel.waiter? = none := by
      obtain ⟨answers, hterminate⟩ := exists_terminate_eq dialogue.channel
      rw [onClosed, hterminate]
      rfl
    exact ⟨rfl, houtstanding.settled hfree hanswers⟩
  | abort =>
    right; right; right
    refine ⟨rfl, ?_, houtstanding.unanswered⟩
    intro hwaits
    cases hwaits
  | allowWriting accepting =>
    left
    exact ⟨houtstanding.slot, houtstanding.unanswered⟩

/-- One of the fates holds at every moment. -/
theorem exists_fate (hreached : start.Reached) (houtstanding : start.Outstanding command ticket)
    (hunused : Unused ticket stimuli) : ∃ fate : Fate, fate.Holds command ticket start stimuli := by
  induction stimuli using List.reverseRecOn with
  | nil => exact ⟨.pending, houtstanding⟩
  | append_singleton stimuli stimulus ih =>
    have hbefore : Unused ticket stimuli := fun other hmem =>
      hunused other (List.mem_append_left _ hmem)
    have hother : ∀ other, stimulus ≠ .submit other (some ticket) := by
      rintro other rfl
      exact hunused other (by simp)
    have hnow : start.performAll (stimuli ++ [stimulus]) =
        (start.performAll stimuli).perform stimulus := performAll_append _ _ _
    obtain ⟨sent, hkept⟩ := (hreached.performAll stimuli).exists_kept
    obtain ⟨fate, hholds⟩ := ih hbefore
    cases fate with
    | pending =>
      have huntil : start.OutstandingUntil command ticket stimulus (stimuli ++ [stimulus]) :=
        ⟨stimuli, [], rfl, hholds⟩
      rcases Outstanding.perform hholds stimulus with hstill |
        ⟨chunk, response, rfl, hcommand, hsettled⟩ | ⟨rfl, hsettled⟩ | ⟨rfl, hsettled⟩
      · exact ⟨.pending, show (start.performAll (stimuli ++ [stimulus])).Outstanding command ticket from
          hnow ▸ hstill⟩
      · exact ⟨.answered, chunk, response, huntil, hcommand, hnow ▸ hsettled⟩
      · exact ⟨.terminated, huntil, hnow ▸ hsettled⟩
      · refine ⟨.aborted, huntil, ?_⟩
        intro more hmore
        rw [performAll_append, hnow]
        exact hsettled.performAll ((hreached.performAll stimuli).perform .abort) hmore
    | answered =>
      obtain ⟨chunk, response, huntil, hcommand, hsettled⟩ := hholds
      exact ⟨.answered, chunk, response, huntil.append _, hcommand, hnow ▸ hsettled.perform hkept hother⟩
    | terminated =>
      obtain ⟨huntil, hsettled⟩ := hholds
      exact ⟨.terminated, huntil.append _, hnow ▸ hsettled.perform hkept hother⟩
    | aborted =>
      obtain ⟨huntil, hnever⟩ := hholds
      refine ⟨.aborted, huntil.append _, ?_⟩
      intro more hmore
      rw [List.append_assoc]
      apply hnever
      intro other hmem
      rcases List.mem_append.1 hmem with hmem | hmem
      · exact hother other (List.mem_singleton.1 hmem).symm
      · exact hmore other hmem

end Dialogue

namespace Fate
open Dialogue

variable {start : Dialogue} {command : Command} {ticket : Nat} {stimuli : List Stimulus} {fate : Fate}

/-- What a ticket has been answered with by the time its command has this fate. -/
def Fits (command : Command) (answers : List Answer) : Fate → Prop
  | .pending | .aborted => answers = []
  | .answered => ∃ response, response.command = command ∧ answers = [.completed response]
  | .terminated => answers = [.terminated]

theorem Holds.fits (hholds : fate.Holds command ticket start stimuli) :
    fate.Fits command ((start.performAll stimuli).channel.answersTo ticket) := by
  cases fate with
  | pending => exact hholds.unanswered
  | answered =>
    obtain ⟨-, response, -, hcommand, hsettled⟩ := hholds
    exact ⟨response, hcommand, hsettled.answered⟩
  | terminated => exact hholds.2.answered
  | aborted =>
    have hsettled := hholds.2 [] (by simp [Unused])
    rw [List.append_nil] at hsettled
    exact hsettled.answered

theorem Holds.waiter?_eq_iff (hholds : fate.Holds command ticket start stimuli) :
    (start.performAll stimuli).channel.waiter? = some ticket ↔ fate = .pending := by
  cases fate with
  | pending => simp [Channel.waiter?, Outstanding.slot hholds]
  | answered =>
    obtain ⟨-, response, -, -, hsettled⟩ := hholds
    simp [hsettled.left]
  | terminated => simp [hholds.2.left]
  | aborted =>
    have hsettled := hholds.2 [] (by simp [Unused])
    rw [List.append_nil] at hsettled
    simp [hsettled.left]

/-- No two fates hold at once. -/
theorem Holds.unique {other : Fate} (hholds : fate.Holds command ticket start stimuli)
    (hother : other.Holds command ticket start stimuli) : other = fate := by
  have houtstanding := hholds.waiter?_eq_iff.symm.trans hother.waiter?_eq_iff
  have hfits := hholds.fits
  have hfits' := hother.fits
  generalize (start.performAll stimuli).channel.answersTo ticket = answers at hfits hfits'
  cases fate <;> cases other <;> simp_all [Fits]

end Fate

namespace Dialogue
open Channel

variable {dialogue : Dialogue} {command : Command} {ticket : Nat} {stimuli : List Stimulus}
  {sent : Text}

/-! ### Without a debugger -/

/-- Nothing is answered when the debugger is gone. -/
theorem answers_perform_of_not_isRunning (hkept : dialogue.channel.Kept sent)
    (hgone : dialogue.isRunning = false) (stimulus : Stimulus) :
    (dialogue.perform stimulus).isRunning = false ∧
      (dialogue.perform stimulus).channel.answers = dialogue.channel.answers := by
  have houtlet : dialogue.channel.outlet = none := by
    simpa [isRunning, Channel.isRunning] using hgone
  have hslot := hkept.detached houtlet
  obtain ⟨hqueue, -⟩ := hkept.free hslot
  have hwrite (command : Command) : dialogue.channel.canWrite command = false := by
    simp [canWrite, houtlet]
  cases stimulus with
  | submit command given =>
    rcases submit_cases command given dialogue with ⟨e, carry, hsubmit, -⟩ | ⟨exited, -, hwritten, -⟩
    · rw [perform, hsubmit]
      exact ⟨hgone, rfl⟩
    · cases (hwrite command).symm.trans hwritten
  | enqueue command =>
    rw [perform, enqueue, hgone]
    exact ⟨hgone, rfl⟩
  | output chunk =>
    rw [perform]
    rcases onOutput_cases chunk dialogue with ⟨text, awaited, -, -, hsame | ⟨-, hexited⟩⟩ |
      ⟨flight, out, carry, awaited, hoccupied, -⟩ | ⟨flight, completion, awaited, hoccupied, -⟩
    · rw [hsame]
      exact ⟨hgone, rfl⟩
    · rw [hexited]
      exact ⟨hgone, rfl⟩
    · cases hslot.symm.trans hoccupied
    · cases hslot.symm.trans hoccupied
  | abort => exact ⟨hgone, rfl⟩
  | close =>
    rw [perform, onClosed, terminate_of_inFlight_eq_none hslot]
    exact ⟨rfl, rfl⟩
  | allowWriting accepting =>
    rw [perform, allowWriting]
    exact ⟨by simp [isRunning, Channel.isRunning, houtlet], rfl⟩

theorem answers_performAll_of_not_isRunning (hreached : dialogue.Reached)
    (hgone : dialogue.isRunning = false) (stimuli : List Stimulus) :
    (dialogue.performAll stimuli).channel.answers = dialogue.channel.answers := by
  induction stimuli generalizing dialogue with
  | nil => rfl
  | cons stimulus stimuli ih =>
    obtain ⟨sent, hkept⟩ := hreached.exists_kept
    obtain ⟨hgone', hanswers⟩ := answers_perform_of_not_isRunning hkept hgone stimulus
    exact (ih (hreached.perform stimulus) hgone').trans hanswers

/-- An accepted command that is given with a new ticket has exactly one fate at every later moment: it
    is in flight and not answered, it left the slot with one response to that very command, it was
    terminated in the slot and one answer says so, or it was aborted there and is never answered. A
    refused command is never answered. Once the debugger has been given up nobody is answered any more,
    however often it is given up again. -/
theorem fate_of_submit (hreached : dialogue.Reached) (hleft : dialogue.channel.waiter? ≠ some ticket)
    (hnew : dialogue.channel.answersTo ticket = []) (hunused : Unused ticket stimuli) :
    let start := (dialogue.submit command (some ticket)).2
    ((dialogue.submit command (some ticket)).1 = .ok () →
      ∃! fate : Fate, fate.Holds command ticket start stimuli) ∧
    (∀ e, (dialogue.submit command (some ticket)).1 = .error e →
      (start.performAll stimuli).channel.answersTo ticket = []) ∧
    ∀ more, ((start.performAll stimuli).onClosed.performAll more).channel.answers =
      (start.performAll stimuli).onClosed.channel.answers := by
  intro start
  have hstart : start.Reached := hreached.perform (.submit command (some ticket))
  refine ⟨?_, ?_, ?_⟩
  · intro hok
    have houtstanding : start.Outstanding command ticket := by
      rcases submit_cases command (some ticket) dialogue with ⟨e, carry, hsubmit, -⟩ |
        ⟨exited, -, -, hsubmit⟩
      · rw [hsubmit] at hok
        cases hok
      · have hstart : start = _ := congrArg Prod.snd hsubmit
        rw [hstart]
        exact ⟨rfl, hnew⟩
    obtain ⟨fate, hholds⟩ := exists_fate hstart houtstanding hunused
    exact ⟨fate, hholds, fun _ hother => hholds.unique hother⟩
  · intro e hrefused
    obtain ⟨sent, hkept⟩ := hreached.exists_kept
    have hsame : start = dialogue := congrArg Prod.snd (submit_of_error hkept hrefused)
    have hsettled : dialogue.Settled ticket [] := ⟨hleft, hnew⟩
    rw [hsame]
    exact (hsettled.performAll hreached hunused).answered
  · intro more
    have hgone : (start.performAll stimuli).onClosed.isRunning = false := by
      obtain ⟨answers, hterminate⟩ := exists_terminate_eq (start.performAll stimuli).channel
      rw [onClosed, hterminate]
      rfl
    have hclosed : (start.performAll stimuli).onClosed.Reached :=
      (hstart.performAll stimuli).perform .close
    exact answers_performAll_of_not_isRunning hclosed hgone more

/-- The first command is aborted. The second is given while its reply is still to come, is in the slot
    when two others are given, and gets the one response; the debugger then dies twice. -/
theorem fate_of_submit_after_abort :
    let earlier : List Stimulus := [.submit (.ofText "print x".toList false) (some 1), .abort]
    let dialogue := (attached ⟨["(gdb) ".toList]⟩).performAll earlier
    let command : Command := .ofText "print y".toList true
    let stimuli : List Stimulus := [.enqueue (.ofText "info locals".toList false),
      .submit (.ofText "step".toList true) (some 3), .output "$1 = 1\n(gdb) ".toList, .close, .close]
    (dialogue.submit command (some 2)).1 = .ok () ∧
      Fate.answered.Holds command 2 (dialogue.submit command (some 2)).2 stimuli ∧
      ((dialogue.submit command (some 2)).2.performAll stimuli).channel.answers =
        [(2, .completed ⟨command, "$1 = 1\n".toList, true⟩)] := by
  intro earlier dialogue command stimuli
  have hreached : dialogue.Reached := (Reached.attached _).performAll earlier
  have hunused : Unused 2 stimuli := by
    intro other
    simp [stimuli]
  obtain ⟨hfate, -, -⟩ := @fate_of_submit dialogue command 2 stimuli hreached (by decide +kernel)
    (by decide +kernel) hunused
  have hok : (dialogue.submit command (some 2)).1 = .ok () := by decide +kernel
  have hanswers : ((dialogue.submit command (some 2)).2.performAll stimuli).channel.answers =
      [(2, .completed ⟨command, "$1 = 1\n".toList, true⟩)] := by decide +kernel
  obtain ⟨fate, hholds, -⟩ := hfate hok
  have hfits := hholds.fits
  rw [Channel.answersTo, hanswers] at hfits
  cases fate with
  | answered => exact ⟨hok, hholds, hanswers⟩
  | pending => simp [Fate.Fits] at hfits
  | terminated => simp [Fate.Fits] at hfits
  | aborted => simp [Fate.Fits] at hfits

end Dialogue
end DebugClient
