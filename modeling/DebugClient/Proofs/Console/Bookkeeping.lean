import DebugClient.Proofs.Console.Ledger

/-!
Whatever happens to a dialogue keeps the books of one slot and its queue: the events that are noted
are allowed in that order, and the channel shows what they come to. There is a lemma for each stimulus,
and from these it follows for every run.
-/

namespace DebugClient

namespace Channel

/-- Nothing waits and no output is kept while the slot is free, nothing has the slot when the debugger
    is gone, and `sent` is what has been written to a debugger that is still there. -/
structure Kept (sent : Text) (channel : Channel) : Prop where
  free : channel.inFlight = none → channel.queue = [] ∧ channel.carry = {}
  detached : channel.outlet = none → channel.inFlight = none
  written : ∀ outlet, channel.outlet = some outlet → outlet.written = sent

/-- The books as the channel shows them. -/
def ledger (sent : Text) (channel : Channel) : Ledger where
  attached := channel.isRunning
  holder := channel.inFlight.map (·.command)
  waiting := channel.queue
  sent

/-- These events lead from the books of one channel to those of the other, which is kept too. -/
def Advances (sent : Text) (before : Channel) (events : List Event) (after : Channel) : Prop :=
  (before.ledger sent).enterAll? events = some (after.ledger (after.sentFrom sent)) ∧
    after.Kept (after.sentFrom sent)

variable {channel : Channel} {command : Command} {sent : Text}

theorem sentFrom_of_attached {outlet : Outlet} (houtlet : channel.outlet = some outlet) :
    channel.sentFrom sent = outlet.written := by
  rw [sentFrom, houtlet]
  rfl

theorem Kept.sentFrom_eq (hkept : channel.Kept sent) : channel.sentFrom sent = sent := by
  cases houtlet : channel.outlet with
  | none =>
    rw [sentFrom, houtlet]
    rfl
  | some outlet => rw [sentFrom_of_attached houtlet, hkept.written outlet houtlet]

theorem Kept.with_carry {carry : CarryBuffer} (hkept : channel.Kept sent)
    (hcarry : carry = channel.carry ∨ carry = {}) : { channel with carry }.Kept sent := by
  refine ⟨?_, hkept.detached, hkept.written⟩
  intro hfree
  obtain ⟨hqueue, hempty⟩ := hkept.free hfree
  exact ⟨hqueue, hcarry.elim (fun hsame => hsame.trans hempty) id⟩

theorem Kept.with_flight {flight : InFlight} {after : Channel} (hkept : channel.Kept sent)
    (hoccupied : after.inFlight = some flight) (houtlet : after.outlet = channel.outlet)
    (hslot : channel.inFlight = some flight) : after.Kept sent := by
  constructor
  · intro hfree
    cases hoccupied.symm.trans hfree
  · intro hdetached
    rw [houtlet] at hdetached
    cases hslot.symm.trans (hkept.detached hdetached)
  · intro outlet hattached
    rw [houtlet] at hattached
    exact hkept.written outlet hattached

theorem Kept.exists_outlet {flight : InFlight} (hkept : channel.Kept sent)
    (hslot : channel.inFlight = some flight) : ∃ outlet, channel.outlet = some outlet := by
  cases houtlet : channel.outlet with
  | some outlet => exact ⟨outlet, rfl⟩
  | none => cases hslot.symm.trans (hkept.detached houtlet)

/-- Nothing to note, and nothing noticed. -/
theorem Kept.advances_nil {after : Channel} (hkept : after.Kept sent)
    (hledger : after.ledger sent = channel.ledger sent) : Advances sent channel [] after := by
  rw [Advances, hkept.sentFrom_eq]
  exact ⟨congrArg some hledger.symm, hkept⟩

theorem enterAll?_dropped (sent : Text) (commands : List Command) (cause : DropCause)
    (attached : Bool) (holder : Option Command) :
    Ledger.enterAll? (commands.map (.dropped · cause)) ⟨attached, holder, commands, sent⟩ =
      some ⟨attached, holder, [], sent⟩ := by
  induction commands with
  | nil => rfl
  | cons command commands ih => simpa [Ledger.Allows, Ledger.after] using ih

theorem canWrite_eq_true_iff : channel.canWrite command = true ↔
    ∃ outlet, channel.outlet = some outlet ∧ (command.kind = .startup ∨ outlet.accepting = true) := by
  cases houtlet : channel.outlet <;> simp [canWrite, houtlet]

/-- The line of a command that is given the slot is added to what was sent. -/
theorem kept_grant {outlet : Outlet} (houtlet : channel.outlet = some outlet)
    (hwritten : outlet.written = sent) (command : Command) (ticket : Option Nat) :
    (channel.grant command ticket).sentFrom sent = sent ++ line command ∧
      (channel.grant command ticket).Kept (sent ++ line command) := by
  have hgranted : (channel.grant command ticket).outlet =
      some { outlet with written := sent ++ line command } := by
    simp [grant, houtlet, hwritten]
  refine ⟨sentFrom_of_attached hgranted, ?_⟩
  constructor
  · intro hfree
    cases hfree
  · intro hdetached
    rw [hgranted] at hdetached
    cases hdetached
  · intro other hother
    rw [hgranted] at hother
    cases hother
    rfl

theorem Advances.append {before between after : Channel} {earlier later : List Event}
    (hlater : Advances sent between later after)
    (hearlier : (before.ledger sent).enterAll? earlier = some (between.ledger sent)) :
    Advances sent before (earlier ++ later) after := by
  refine ⟨?_, hlater.2⟩
  rw [Ledger.enterAll?_append, hearlier]
  exact hlater.1

end Channel

namespace Dialogue
open Channel

variable {dialogue : Dialogue} {command : Command} {sent : Text}

/-- Offering the free slot to the queue keeps the books. -/
theorem advances_dispatchNext {outlet : Outlet} (hslot : dialogue.channel.inFlight = none)
    (hcarry : dialogue.channel.carry = {}) (houtlet : dialogue.channel.outlet = some outlet)
    (hwritten : outlet.written = sent) :
    Advances sent dialogue.channel
      (dispatchEvents dialogue.channel.queue dialogue.dispatchNext.channel)
      dialogue.dispatchNext.channel := by
  have hbefore : ∀ other, dialogue.channel.outlet = some other → other.written = sent := by
    intro other hother
    rw [houtlet] at hother
    cases hother
    exact hwritten
  rcases dispatchNext_cases hslot with ⟨hqueue, heq⟩ | ⟨oldest, queue, hqueue, hwrite, heq⟩ |
    ⟨oldest, queue, hqueue, hwrite, heq⟩
  · have hkept : dialogue.channel.Kept sent := ⟨fun _ => ⟨hqueue, hcarry⟩, fun _ => hslot, hbefore⟩
    have hevents : dispatchEvents dialogue.channel.queue dialogue.channel = [] := by
      simp [dispatchEvents, hslot, Channel.isRunning, houtlet]
    rw [heq, hevents]
    exact hkept.advances_nil rfl
  · have houtlet' : { dialogue.channel with queue }.outlet = some outlet := houtlet
    obtain ⟨hsent, hkept⟩ := kept_grant houtlet' hwritten oldest none
    rw [heq]
    dsimp only
    rw [Advances, hsent]
    refine ⟨?_, hkept⟩
    simp [dispatchEvents, grant, ledger, Ledger.Allows, Ledger.after, Channel.isRunning, houtlet,
      hslot, hqueue]
  · rw [heq, Advances]
    dsimp only [sentFrom, Option.map_none, Option.getD_none]
    constructor
    · have hothers := enterAll?_dropped sent queue .terminated true none
      simp [dispatchEvents, hslot, Channel.isRunning, hqueue, lossEvents, ledger, Ledger.Allows,
        Ledger.after, houtlet, Ledger.enterAll?_append, hothers]
    · refine ⟨fun _ => ⟨rfl, rfl⟩, fun _ => hslot, ?_⟩
      intro other hother
      cases hother

theorem advances_submit (hkept : dialogue.channel.Kept sent) (ticket : Option Nat) :
    Advances sent dialogue.channel (dialogue.events (.submit command ticket))
      (dialogue.submit command ticket).2.channel := by
  rcases submit_cases command ticket dialogue with ⟨e, carry, hsubmit, hcarry⟩ |
    ⟨exited, hslot, hwrite, hsubmit⟩
  · simp only [events, hsubmit]
    exact (hkept.with_carry hcarry).advances_nil rfl
  · obtain ⟨hqueue, -⟩ := hkept.free hslot
    obtain ⟨outlet, houtlet, -⟩ := canWrite_eq_true_iff.1 hwrite
    obtain ⟨hsent, hgranted⟩ := kept_grant houtlet (hkept.written outlet houtlet) command ticket
    simp only [events, hsubmit]
    rw [Advances, hsent]
    refine ⟨?_, hgranted⟩
    simp [ledger, Ledger.Allows, Ledger.after, Channel.isRunning, houtlet, hslot, hqueue, grant]

theorem advances_enqueue (hkept : dialogue.channel.Kept sent) :
    Advances sent dialogue.channel (dialogue.events (.enqueue command))
      (dialogue.enqueue command).2.channel := by
  rcases enqueue_cases (fun hslot => (hkept.free hslot).1) command with ⟨e, carry, henqueue, hcarry⟩ |
    ⟨flight, hslot, hrunning, henqueue⟩ | ⟨hslot, hwrite, henqueue⟩
  · simp only [events, henqueue]
    exact (hkept.with_carry hcarry).advances_nil rfl
  · have hkept' : (dialogue.channel.enqueue command).Kept sent := hkept.with_flight hslot rfl hslot
    simp only [events, henqueue, hslot]
    rw [Advances, hkept'.sentFrom_eq]
    refine ⟨?_, hkept'⟩
    have hallows : (dialogue.channel.ledger sent).Allows (.accepted command) := hrunning
    exact Ledger.enterAll?_cons_eq_some.2 ⟨hallows, rfl⟩
  · obtain ⟨hqueue, -⟩ := hkept.free hslot
    obtain ⟨outlet, houtlet, -⟩ := canWrite_eq_true_iff.1 hwrite
    obtain ⟨hsent, hgranted⟩ := kept_grant houtlet (hkept.written outlet houtlet) command none
    simp only [events, henqueue, hslot]
    rw [Advances, hsent]
    refine ⟨?_, hgranted⟩
    simp [ledger, dispatchEvents, Ledger.Allows, Ledger.after, Channel.isRunning, houtlet, hslot,
      hqueue, grant]

/-- All that waits is dropped when the slot is vacated. -/
theorem enterAll?_vacate (sent : Text) (departure : Departure) (cause : DropCause)
    (channel : Channel) :
    (channel.ledger sent).enterAll?
      ((channel.inFlight.toList.map fun _ => .left departure) ++
        channel.queue.map (.dropped · cause)) =
    some ⟨channel.isRunning && (channel.inFlight.isNone || departure ≠ .terminated), none, [],
      sent⟩ := by
  have hdropped := enterAll?_dropped sent channel.queue cause
  cases hslot : channel.inFlight with
  | none => simpa [ledger, hslot] using hdropped channel.isRunning none
  | some flight =>
    simpa [ledger, hslot, Ledger.Allows, Ledger.after] using
      hdropped (channel.isRunning && decide (departure ≠ .terminated)) none

theorem advances_abort (hkept : dialogue.channel.Kept sent) :
    Advances sent dialogue.channel (dialogue.events .abort) dialogue.abort.2.channel := by
  have hafter : dialogue.abort.2.channel.Kept sent :=
    ⟨fun _ => ⟨rfl, rfl⟩, fun _ => rfl, hkept.written⟩
  rw [Advances, hafter.sentFrom_eq]
  refine ⟨?_, hafter⟩
  have hvacate := enterAll?_vacate sent .aborted .aborted dialogue.channel
  rw [events, hvacate]
  simp [ledger, abort, Channel.abort, Channel.isRunning]

theorem advances_onClosed (sent : Text) (dialogue : Dialogue) :
    Advances sent dialogue.channel (dialogue.events .close) dialogue.onClosed.channel := by
  obtain ⟨answers, hterminate⟩ := exists_terminate_eq dialogue.channel
  have hafter : dialogue.onClosed.channel.Kept sent := by
    rw [onClosed, hterminate]
    refine ⟨fun _ => ⟨rfl, rfl⟩, fun _ => rfl, ?_⟩
    intro outlet houtlet
    cases houtlet
  have hsent : dialogue.onClosed.channel.sentFrom sent = sent := by
    rw [onClosed, hterminate]
    rfl
  rw [Advances, hsent]
  refine ⟨?_, hafter⟩
  have hvacate := enterAll?_vacate sent .terminated .terminated dialogue.channel
  rw [events, Ledger.enterAll?_append, hvacate, onClosed, hterminate]
  rfl

theorem advances_allowWriting (hkept : dialogue.channel.Kept sent) (accepting : Bool) :
    Advances sent dialogue.channel (dialogue.events (.allowWriting accepting))
      (dialogue.allowWriting accepting).channel := by
  have hrunning :
      (dialogue.allowWriting accepting).channel.isRunning = dialogue.channel.isRunning := by
    simp [allowWriting, Channel.isRunning]
  have hafter : (dialogue.allowWriting accepting).channel.Kept sent := by
    refine ⟨hkept.free, ?_, ?_⟩
    · intro hdetached
      apply hkept.detached
      simpa [allowWriting] using hdetached
    · intro outlet houtlet
      obtain ⟨before, hbefore, rfl⟩ := Option.map_eq_some_iff.1 houtlet
      exact hkept.written before hbefore
  apply hafter.advances_nil
  rw [ledger, hrunning]
  rfl

/-- What follows from a response keeps the books. -/
theorem enterAll?_settleEvents {outlet : Outlet} (houtlet : dialogue.channel.outlet = some outlet)
    (completion : Completion) :
    (dialogue.channel.ledger sent).enterAll? (settleEvents completion.response dialogue) =
      some ((dialogue.settle completion).channel.ledger sent) := by
  rw [settleEvents]
  cases hexit : Stop.announcesExit completion.response.text with
  | true =>
    rw [if_pos rfl]
    refine (enterAll?_dropped _ _ _ _ _).trans ?_
    simp [ledger, settle, waitingAfter, hexit, Channel.isRunning]
  | false =>
    rw [if_neg Bool.false_ne_true]
    cases hfollow : (dialogue.verdict completion.response).1.followUp with
    | none => simp [ledger, settle, waitingAfter, hexit, hfollow, Channel.isRunning]
    | some command =>
      simp [ledger, settle, waitingAfter, hexit, hfollow, Ledger.Allows, Ledger.after,
        Channel.isRunning, houtlet]

theorem advances_onOutput (hkept : dialogue.channel.Kept sent) (chunk : Text) :
    Advances sent dialogue.channel (dialogue.events (.output chunk))
      (dialogue.onOutput chunk).2.channel := by
  rcases onOutput_cases chunk dialogue with ⟨text, awaited, hslot, hfeed, hafter⟩ |
    ⟨flight, out, carry, awaited, hslot, hfeed, hafter⟩ |
    ⟨flight, completion, awaited, hslot, -, hfeed, hafter⟩
  · obtain ⟨hqueue, -⟩ := hkept.free hslot
    have hevents : dialogue.events (.output chunk) = [] := by
      simp [events, hfeed, hqueue]
    have hchannel : (dialogue.onOutput chunk).2.channel = { dialogue.channel with awaited } := by
      rcases hafter with hsame | ⟨-, hexited⟩
      · rw [hsame]
      · rw [hexited, ← hqueue]
    rw [hevents, hchannel]
    exact Kept.advances_nil ⟨hkept.free, hkept.detached, hkept.written⟩ rfl
  · have hkept' : { dialogue.channel with carry, awaited }.Kept sent :=
      hkept.with_flight hslot rfl hslot
    simp only [events, hfeed, hafter]
    exact hkept'.advances_nil rfl
  · obtain ⟨outlet, houtlet⟩ := hkept.exists_outlet hslot
    have houtlet' : (dialogue.vacate awaited).channel.outlet = some outlet := houtlet
    have hheld : (dialogue.channel.ledger sent).Allows (.left .completed) := by
      simp [Ledger.Allows, ledger, hslot]
    have hleft : (dialogue.channel.ledger sent).after (.left .completed) =
        (dialogue.vacate awaited).channel.ledger sent := by
      simp [Ledger.after, ledger, vacate, Channel.isRunning]
    have hsettled : (dialogue.channel.ledger sent).enterAll?
        (.left .completed :: settleEvents completion.response (dialogue.vacate awaited)) =
        some (((dialogue.vacate awaited).settle completion).channel.ledger sent) := by
      rw [Ledger.enterAll?_cons_eq_some, hleft]
      exact ⟨hheld, enterAll?_settleEvents houtlet' completion⟩
    have hslot' : ((dialogue.vacate awaited).settle completion).channel.inFlight = none := rfl
    have hdispatch := advances_dispatchNext hslot' rfl houtlet (hkept.written outlet houtlet)
    rw [events_of_complete hfeed hafter, hafter]
    exact hdispatch.append hsettled

/-- Every stimulus keeps the books. -/
theorem advances_perform (hkept : dialogue.channel.Kept sent) (stimulus : Stimulus) :
    Advances sent dialogue.channel (dialogue.events stimulus)
      (dialogue.perform stimulus).channel := by
  cases stimulus with
  | submit command ticket => exact advances_submit hkept ticket
  | enqueue command => exact advances_enqueue hkept
  | output chunk => exact advances_onOutput hkept chunk
  | abort => exact advances_abort hkept
  | close => exact advances_onClosed sent dialogue
  | allowWriting accepting => exact advances_allowWriting hkept accepting

end Dialogue

namespace Chronicle

/-- The books are kept all along a run. -/
theorem kept_ofStimuli (detector : PromptDetector) (stimuli : List Stimulus) :
    (ofStimuli detector stimuli).dialogue.channel.Kept (ofStimuli detector stimuli).sent ∧
      Ledger.enterAll? (ofStimuli detector stimuli).events {} = some
        ((ofStimuli detector stimuli).dialogue.channel.ledger (ofStimuli detector stimuli).sent) := by
  induction stimuli using List.reverseRecOn with
  | nil =>
    refine ⟨⟨fun _ => ⟨rfl, rfl⟩, fun _ => rfl, fun outlet houtlet => ?_⟩, rfl⟩
    cases houtlet
    rfl
  | append_singleton stimuli stimulus ih =>
    obtain ⟨hkept, hbooks⟩ := ih
    obtain ⟨hstep, hkept'⟩ := Dialogue.advances_perform hkept stimulus
    rw [ofStimuli_append_singleton]
    refine ⟨hkept', ?_⟩
    rw [next, Ledger.enterAll?_append, hbooks]
    exact hstep

end Chronicle
end DebugClient
