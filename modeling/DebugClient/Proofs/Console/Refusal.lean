import DebugClient.Proofs.Console.Bookkeeping

/-!
Refused commands leave no trace. A command may be refused because another one is in flight, because
there is no debugger, or because it cannot be written; whatever the reason, the dialogue stays exactly
as it was, and a run goes on as if the command had never been given.
-/

namespace DebugClient

/-- Something that happens in a run, with the dialogue as it is then. -/
structure Moment where
  before : Dialogue
  stimulus : Stimulus
  deriving DecidableEq, Repr

namespace Moment

/-- What a command is answered at once. Nothing else can be refused. -/
def result (moment : Moment) : Except SessionError Unit :=
  match moment.stimulus with
  | .submit command ticket => (moment.before.submit command ticket).1
  | .enqueue command => (moment.before.enqueue command).1
  | .output _ | .abort | .close | .allowWriting _ => .ok ()

def isAccepted (moment : Moment) : Bool := moment.result.isOk

/-- The texts shown. -/
def shown (moment : Moment) : List Text :=
  match moment.stimulus with
  | .output chunk => (moment.before.onOutput chunk).1
  | .submit .. | .enqueue _ | .abort | .close | .allowWriting _ => []

end Moment

namespace Dialogue
open Channel

/-- The dialogue after all of these stimuli. -/
def performAll (stimuli : List Stimulus) (dialogue : Dialogue) : Dialogue :=
  stimuli.foldl (fun dialogue stimulus => dialogue.perform stimulus) dialogue

/-- The moments of a run. -/
def moments : List Stimulus → Dialogue → List Moment
  | [], _ => []
  | stimulus :: stimuli, dialogue =>
    { before := dialogue, stimulus } :: (dialogue.perform stimulus).moments stimuli

/-- The stimuli of a run without the commands refused in it. -/
def withoutRefused (stimuli : List Stimulus) (dialogue : Dialogue) : List Stimulus :=
  ((dialogue.moments stimuli).filter Moment.isAccepted).map (·.stimulus)

/-- The dialogues that can come about, with a debugger or without. -/
inductive Reached : Dialogue → Prop
  | attached (detector : PromptDetector) : Reached (.attached detector)
  | detached (detector : PromptDetector) : Reached (.detached detector)
  | perform {dialogue : Dialogue} (hreached : Reached dialogue) (stimulus : Stimulus) :
    Reached (dialogue.perform stimulus)

variable {dialogue : Dialogue} {command : Command} {ticket : Option Nat} {e : SessionError}
  {sent : Text}

theorem Reached.exists_kept (hreached : dialogue.Reached) : ∃ sent, dialogue.channel.Kept sent := by
  induction hreached with
  | attached detector =>
    refine ⟨[], fun _ => ⟨rfl, rfl⟩, fun _ => rfl, fun outlet houtlet => ?_⟩
    cases houtlet
    rfl
  | detached detector =>
    refine ⟨[], fun _ => ⟨rfl, rfl⟩, fun _ => rfl, fun outlet houtlet => ?_⟩
    cases houtlet
  | perform _ stimulus ih =>
    obtain ⟨sent, hkept⟩ := ih
    exact ⟨_, (advances_perform hkept stimulus).2⟩

theorem Reached.performAll (hreached : dialogue.Reached) (stimuli : List Stimulus) :
    (dialogue.performAll stimuli).Reached := by
  induction stimuli generalizing dialogue with
  | nil => exact hreached
  | cons stimulus stimuli ih => exact ih (hreached.perform stimulus)

/-! ### One refusal -/

/-- The carry buffer of a free slot is empty, so emptying it changes nothing. -/
theorem with_carry_eq {carry : CarryBuffer} (hkept : dialogue.channel.Kept sent)
    (hfree : dialogue.channel.inFlight = none)
    (hcarry : carry = dialogue.channel.carry ∨ carry = {}) :
    { dialogue with channel := { dialogue.channel with carry } } = dialogue := by
  have hsame : carry = dialogue.channel.carry := by
    rcases hcarry with hsame | hempty
    · exact hsame
    · rw [hempty, (hkept.free hfree).2]
  rw [hsame]

theorem submit_of_error (hkept : dialogue.channel.Kept sent)
    (hrefused : (dialogue.submit command ticket).1 = .error e) :
    dialogue.submit command ticket = (.error e, dialogue) := by
  cases hslot : dialogue.channel.inFlight with
  | some flight =>
    rw [submit_of_inFlight hslot] at hrefused ⊢
    cases hrefused
    rfl
  | none =>
    rcases submit_cases command ticket dialogue with ⟨e', carry, hsubmit, hcarry⟩ |
      ⟨exited, -, -, hsubmit⟩
    · rw [hsubmit] at hrefused ⊢
      cases hrefused
      rw [with_carry_eq hkept hslot hcarry]
    · rw [hsubmit] at hrefused
      cases hrefused

/-- A background command that is refused has left the queue again. -/
theorem enqueue_of_error (hkept : dialogue.channel.Kept sent)
    (hrefused : (dialogue.enqueue command).1 = .error e) :
    dialogue.enqueue command = (.error e, dialogue) := by
  have hdetached (hrunning : dialogue.isRunning = false) :
      dialogue.enqueue command = (.error .notRunning, dialogue) := by
    simp [enqueue, hrunning]
  rcases enqueue_cases (fun hslot => (hkept.free hslot).1) command with
    ⟨e', carry, henqueue, hcarry⟩ | ⟨flight, -, -, henqueue⟩ | ⟨-, -, henqueue⟩
  · cases hslot : dialogue.channel.inFlight with
    | some flight =>
      -- Behind a command in flight it would wait, unless there is no debugger.
      cases hrunning : dialogue.isRunning with
      | false =>
        rw [hdetached hrunning] at hrefused ⊢
        cases hrefused
        rfl
      | true =>
        simp [enqueue, hrunning, Channel.dispatchNext, Channel.enqueue, hslot, Except.map]
          at hrefused
    | none =>
      rw [henqueue] at hrefused ⊢
      cases hrefused
      rw [with_carry_eq hkept hslot hcarry]
  · rw [henqueue] at hrefused
    cases hrefused
  · rw [henqueue] at hrefused
    cases hrefused

/-- A moment that is refused might as well not have been. -/
theorem perform_of_refused {stimulus : Stimulus} (hkept : dialogue.channel.Kept sent)
    (hrefused : Moment.isAccepted { before := dialogue, stimulus } = false) :
    dialogue.perform stimulus = dialogue ∧ Moment.shown { before := dialogue, stimulus } = [] := by
  have herror : ∃ e, Moment.result { before := dialogue, stimulus } = .error e := by
    rw [Moment.isAccepted] at hrefused
    cases hresult : Moment.result { before := dialogue, stimulus } with
    | ok _ =>
      rw [hresult] at hrefused
      cases hrefused
    | error e => exact ⟨e, rfl⟩
  obtain ⟨e, herror⟩ := herror
  cases stimulus with
  | submit command ticket =>
    rw [perform, submit_of_error hkept herror]
    exact ⟨rfl, rfl⟩
  | enqueue command =>
    rw [perform, enqueue_of_error hkept herror]
    exact ⟨rfl, rfl⟩
  | output chunk => cases herror
  | abort => cases herror
  | close => cases herror
  | allowWriting accepting => cases herror

/-! ### A whole run -/

theorem performAll_withoutRefused (hreached : dialogue.Reached) (stimuli : List Stimulus) :
    dialogue.performAll (dialogue.withoutRefused stimuli) = dialogue.performAll stimuli ∧
      dialogue.moments (dialogue.withoutRefused stimuli) =
        (dialogue.moments stimuli).filter Moment.isAccepted ∧
      (dialogue.moments (dialogue.withoutRefused stimuli)).flatMap Moment.shown =
        (dialogue.moments stimuli).flatMap Moment.shown := by
  induction stimuli generalizing dialogue with
  | nil => exact ⟨rfl, rfl, rfl⟩
  | cons stimulus stimuli ih =>
    obtain ⟨hfinal, hmoments, hshown⟩ := ih (hreached.perform stimulus)
    cases haccepted : Moment.isAccepted { before := dialogue, stimulus } with
    | true =>
      have hkeep : dialogue.withoutRefused (stimulus :: stimuli) =
          stimulus :: (dialogue.perform stimulus).withoutRefused stimuli := by
        simp [withoutRefused, moments, haccepted]
      rw [hkeep]
      refine ⟨hfinal, ?_, ?_⟩
      · simp [moments, haccepted, hmoments]
      · simp only [moments, List.flatMap_cons, hshown]
    | false =>
      obtain ⟨sent, hkept⟩ := hreached.exists_kept
      obtain ⟨hsame, hnothing⟩ := perform_of_refused hkept haccepted
      rw [hsame] at hfinal hmoments hshown
      have hdrop : dialogue.withoutRefused (stimulus :: stimuli) = dialogue.withoutRefused stimuli := by
        simp [withoutRefused, moments, haccepted, hsame]
      rw [hdrop]
      refine ⟨?_, ?_, ?_⟩
      · rw [hfinal, performAll, performAll, List.foldl_cons, hsame]
      · simp [moments, haccepted, hsame, hmoments]
      · simp only [moments, List.flatMap_cons, hnothing, hsame, hshown, List.nil_append]

/-- A command that is refused leaves the dialogue exactly as it was. A run without the commands refused
    in it goes through the same moments, shows the same and ends in the same state, with the same
    answers given. While a command is in flight all others in the foreground are refused like that. -/
theorem refused_leaves_no_trace (hreached : dialogue.Reached) :
    (∀ command ticket e, (dialogue.submit command ticket).1 = .error e →
      dialogue.submit command ticket = (.error e, dialogue)) ∧
    (∀ command e, (dialogue.enqueue command).1 = .error e →
      dialogue.enqueue command = (.error e, dialogue)) ∧
    (∀ stimuli, dialogue.performAll (dialogue.withoutRefused stimuli) = dialogue.performAll stimuli ∧
      dialogue.moments (dialogue.withoutRefused stimuli) =
        (dialogue.moments stimuli).filter Moment.isAccepted ∧
      (dialogue.moments (dialogue.withoutRefused stimuli)).flatMap Moment.shown =
        (dialogue.moments stimuli).flatMap Moment.shown) ∧
    ∀ flight, dialogue.channel.inFlight = some flight → ∀ command ticket,
      dialogue.submit command ticket = (.error (.busy flight.command.text), dialogue) := by
  obtain ⟨sent, hkept⟩ := hreached.exists_kept
  refine ⟨?_, ?_, performAll_withoutRefused hreached, ?_⟩
  · intro command ticket e hrefused
    exact submit_of_error hkept hrefused
  · intro command e hrefused
    exact enqueue_of_error hkept hrefused
  · intro flight hslot command ticket
    exact submit_of_inFlight hslot command ticket

/-- One command is refused while another is in flight, one while nothing can be written, and one when the
    debugger is gone. The command in flight is answered all the same. -/
theorem refused_leaves_no_trace_three_times :
    let start := attached ⟨["(gdb) ".toList]⟩
    let stimuli : List Stimulus := [.submit (.ofText "print x".toList true) (some 1),
      .submit (.ofText "print y".toList true) (some 2), .output "$1 = 1\n(gdb) ".toList,
      .allowWriting false, .enqueue (.ofText "info locals".toList false), .close,
      .submit (.ofText "step".toList true) (some 3)]
    let response : Response := ⟨.ofText "print x".toList true, "$1 = 1\n".toList, true⟩
    (start.moments stimuli).map Moment.isAccepted = [true, false, true, true, false, true, false] ∧
      start.performAll (start.withoutRefused stimuli) = start.performAll stimuli ∧
      (start.performAll stimuli).channel.answers = [(1, .completed response)] := by
  intro start stimuli response
  have hreached : start.Reached := .attached _
  obtain ⟨-, -, hrun, -⟩ := refused_leaves_no_trace hreached
  exact ⟨by decide +kernel, (hrun stimuli).1, by decide +kernel⟩

end Dialogue
end DebugClient
