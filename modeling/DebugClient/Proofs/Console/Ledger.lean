import DebugClient.Proofs.Console.Chronicle

/-!
The books of one slot with a queue behind it. They say which sequences of events such a slot admits;
whatever the books allow has the commands take turns in the slot, and leave the queue in the order in
which they joined it.
-/

namespace DebugClient

/-- The books of one slot and of the queue behind it. -/
structure Ledger where
  attached : Bool := true
  holder : Option Command := none
  waiting : List Command := []
  sent : Text := []
  deriving DecidableEq, Repr

namespace Ledger
open Channel

/-- The slot goes to a command, which is written. -/
@[simp] def give (command : Command) (ledger : Ledger) : Ledger :=
  { ledger with holder := some command, sent := ledger.sent ++ line command }

/-- Whether an event may happen: the slot is taken only when it is free and only by the command whose
    turn it is, and commands leave the queue in the order they came. -/
def Allows (ledger : Ledger) : Event → Prop
  | .submitted _ => ledger.attached = true ∧ ledger.holder = none ∧ ledger.waiting = []
  | .dispatched command =>
    ledger.attached = true ∧ ledger.holder = none ∧ ledger.waiting.head? = some command
  | .left _ => ledger.holder.isSome = true
  | .accepted _ => ledger.attached = true
  | .dropped command _ => ledger.waiting.head? = some command
  | .closed => ledger.holder = none ∧ ledger.waiting = []

instance (ledger : Ledger) (event : Event) : Decidable (ledger.Allows event) :=
  match event with
  | .submitted _ | .dispatched _ => inferInstanceAs (Decidable (_ ∧ _ ∧ _))
  | .left _ | .accepted _ | .dropped _ _ => inferInstanceAs (Decidable (_ = _))
  | .closed => inferInstanceAs (Decidable (_ ∧ _))

/-- The books once the event is entered. -/
def after (ledger : Ledger) : Event → Ledger
  | .submitted command => ledger.give command
  | .dispatched command => { ledger with waiting := ledger.waiting.tail }.give command
  | .left departure =>
    { ledger with holder := none, attached := ledger.attached && departure ≠ .terminated }
  | .accepted command => { ledger with waiting := ledger.waiting ++ [command] }
  | .dropped _ _ => { ledger with waiting := ledger.waiting.tail }
  | .closed => { ledger with attached := false }

@[simp] def enter? (event : Event) (ledger : Ledger) : Option Ledger :=
  if ledger.Allows event then some (ledger.after event) else none

/-- Enter events one after another. -/
@[simp] def enterAll? : List Event → Ledger → Option Ledger
  | [], ledger => some ledger
  | event :: events, ledger => (ledger.enter? event).bind (enterAll? events)

theorem enterAll?_append (earlier later : List Event) (ledger : Ledger) :
    ledger.enterAll? (earlier ++ later) = (ledger.enterAll? earlier).bind (enterAll? later) := by
  induction earlier generalizing ledger with
  | nil => rfl
  | cons event earlier ih =>
    simp only [List.cons_append, enterAll?]
    cases ledger.enter? event with
    | none => rfl
    | some ledger => exact ih ledger

theorem enterAll?_append_eq_some {earlier later : List Event} {start finish : Ledger} :
    start.enterAll? (earlier ++ later) = some finish ↔
      ∃ between, start.enterAll? earlier = some between ∧ between.enterAll? later = some finish := by
  rw [enterAll?_append, Option.bind_eq_some_iff]

theorem enterAll?_cons_eq_some {event : Event} {events : List Event} {start finish : Ledger} :
    start.enterAll? (event :: events) = some finish ↔
      start.Allows event ∧ (start.after event).enterAll? events = some finish := by
  by_cases hallows : start.Allows event <;> simp [hallows]

theorem filterMap_cons_eq_append (f : Event → Option Command) (event : Event) (events : List Event) :
    (event :: events).filterMap f = (f event).toList ++ events.filterMap f := by
  cases h : f event <;> simp [h]

/-! ### One entry -/

section
variable {ledger : Ledger} {event : Event}

/-- Commands join the queue at its end and leave it at its front. -/
theorem waiting_after (hallows : ledger.Allows event) :
    ledger.waiting ++ event.accepted?.toList =
      event.settled?.toList ++ (ledger.after event).waiting := by
  cases event with
  | submitted | left | accepted | closed => simp [Event.accepted?, Event.settled?, after]
  | dispatched command =>
    obtain ⟨others, hwaiting⟩ := List.head?_eq_some_iff.1 hallows.2.2
    simp [Event.accepted?, Event.settled?, after, hwaiting]
  | dropped command cause =>
    obtain ⟨others, hwaiting⟩ := List.head?_eq_some_iff.1 hallows
    simp [Event.accepted?, Event.settled?, after, hwaiting]

/-- Whoever takes the slot is written, and nothing else is. -/
theorem sent_after (ledger : Ledger) (event : Event) :
    (ledger.after event).sent = ledger.sent ++ event.taker?.toList.flatMap line := by
  cases event <;> simp [Event.taker?, after]

theorem holder_of_taker? {command : Command} (hallows : ledger.Allows event)
    (htaker : event.taker? = some command) :
    ledger.attached = true ∧ ledger.holder = none ∧ (ledger.after event).holder = some command := by
  cases event with
  | submitted | dispatched => exact ⟨hallows.1, hallows.2.1, htaker⟩
  | left | accepted | dropped | closed => cases htaker

/-- The slot is vacated only by leaving it. -/
theorem held_after (event : Event) (hheld : ledger.holder.isSome) :
    (ledger.after event).holder.isSome ∨ ∃ departure, event = .left departure := by
  cases event with
  | left departure => exact .inr ⟨departure, rfl⟩
  | submitted | dispatched => exact .inl rfl
  | accepted | dropped | closed => exact .inl hheld

/-- Once the debugger is given up it stays so. -/
theorem attached_of_after (hattached : (ledger.after event).attached = true) :
    ledger.attached = true ∧ event ≠ .left .terminated := by
  cases event with
  | left departure => simpa [after] using hattached
  | closed => cases hattached
  | submitted | dispatched | accepted | dropped => exact ⟨hattached, by simp⟩

end

/-! ### All entries -/

variable {start finish : Ledger} {events : List Event}

theorem waiting_of_enterAll? (henter : start.enterAll? events = some finish) :
    start.waiting ++ events.filterMap Event.accepted? =
      events.filterMap Event.settled? ++ finish.waiting := by
  induction events generalizing start with
  | nil =>
    cases henter
    simp
  | cons event events ih =>
    obtain ⟨hallows, hlater⟩ := enterAll?_cons_eq_some.1 henter
    have hstep := waiting_after hallows
    have hrun := ih hlater
    rw [filterMap_cons_eq_append, filterMap_cons_eq_append, ← List.append_assoc, hstep,
      List.append_assoc, hrun, List.append_assoc]

theorem sent_of_enterAll? (henter : start.enterAll? events = some finish) :
    finish.sent = start.sent ++ (events.filterMap Event.taker?).flatMap line := by
  induction events generalizing start with
  | nil =>
    cases henter
    simp
  | cons event events ih =>
    obtain ⟨-, hlater⟩ := enterAll?_cons_eq_some.1 henter
    rw [ih hlater, sent_after, filterMap_cons_eq_append, List.flatMap_append, List.append_assoc]

theorem exists_left_of_vacated (henter : start.enterAll? events = some finish)
    (hheld : start.holder.isSome) (hvacant : finish.holder = none) :
    ∃ departure, Event.left departure ∈ events := by
  induction events generalizing start with
  | nil =>
    cases henter
    rw [hvacant] at hheld
    cases hheld
  | cons event events ih =>
    obtain ⟨-, hlater⟩ := enterAll?_cons_eq_some.1 henter
    rcases held_after event hheld with hstill | ⟨departure, rfl⟩
    · obtain ⟨departure, hmem⟩ := ih hlater hstill
      exact ⟨departure, List.mem_cons_of_mem _ hmem⟩
    · exact ⟨departure, List.mem_cons_self⟩

theorem not_terminated_of_attached (henter : start.enterAll? events = some finish)
    (hattached : finish.attached = true) :
    start.attached = true ∧ Event.left .terminated ∉ events := by
  induction events generalizing start with
  | nil =>
    cases henter
    exact ⟨hattached, by simp⟩
  | cons event events ih =>
    obtain ⟨-, hlater⟩ := enterAll?_cons_eq_some.1 henter
    obtain ⟨hthen, hnever⟩ := ih hlater
    obtain ⟨hbefore, hother⟩ := attached_of_after hthen
    exact ⟨hbefore, by simp [hnever, hother.symm]⟩

/-- Two commands take the slot only when the first has completed, or was aborted, in between. -/
theorem left_between {earlier between later : List Event} {first second : Event}
    (henter : start.enterAll? (earlier ++ first :: (between ++ second :: later)) = some finish)
    (hfirst : first.taker?.isSome) (hsecond : second.taker?.isSome) :
    Event.left .completed ∈ between ∨ Event.left .aborted ∈ between := by
  obtain ⟨ledger, -, henter⟩ := enterAll?_append_eq_some.1 henter
  obtain ⟨htaken, henter⟩ := enterAll?_cons_eq_some.1 henter
  obtain ⟨vacated, hbetween, henter⟩ := enterAll?_append_eq_some.1 henter
  obtain ⟨hretaken, -⟩ := enterAll?_cons_eq_some.1 henter
  obtain ⟨command, hcommand⟩ := Option.isSome_iff_exists.1 hfirst
  obtain ⟨other, hother⟩ := Option.isSome_iff_exists.1 hsecond
  obtain ⟨-, -, hheld⟩ := holder_of_taker? htaken hcommand
  obtain ⟨hattached, hvacant, -⟩ := holder_of_taker? hretaken hother
  obtain ⟨departure, hleft⟩ := exists_left_of_vacated hbetween (by rw [hheld]; rfl) hvacant
  obtain ⟨-, hnever⟩ := not_terminated_of_attached hbetween hattached
  cases departure with
  | completed => exact .inl hleft
  | aborted => exact .inr hleft
  | terminated => exact absurd hleft hnever

end Ledger
end DebugClient
