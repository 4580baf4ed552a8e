import DebugClient.Proofs.Console.Bookkeeping

/-!
One slot, and first come first served behind it. In every run commands have the slot one at a time,
nothing waits for a free slot, and background commands have their turn in the order in which they were
accepted, unless they are dropped for a cause.
-/

namespace DebugClient

namespace Dialogue
open Channel

variable {dialogue : Dialogue} {command : Command} {sent : Text}

/-- Commands are dropped by an offer of the slot only when the oldest of them could not be written. -/
theorem explained_of_mem_dispatchEvents {cause : DropCause} {outlet : Outlet}
    (hslot : dialogue.channel.inFlight = none) (houtlet : dialogue.channel.outlet = some outlet)
    (hmem : .dropped command cause ∈
      dispatchEvents dialogue.channel.queue dialogue.dispatchNext.channel) :
    ∃ oldest, .dropped oldest .unwritten ∈
        dispatchEvents dialogue.channel.queue dialogue.dispatchNext.channel ∧
      oldest.kind ≠ .startup ∧ outlet.accepting = false ∧
      (cause = .unwritten ∧ command = oldest ∨ cause = .terminated) := by
  rcases dispatchNext_cases hslot with ⟨hqueue, heq⟩ | ⟨oldest, queue, hqueue, hwrite, heq⟩ |
    ⟨oldest, queue, hqueue, hwrite, heq⟩
  · simp [heq, dispatchEvents, hslot, Channel.isRunning, houtlet] at hmem
  · simp [heq, dispatchEvents, grant] at hmem
  · have hevents : dispatchEvents dialogue.channel.queue dialogue.dispatchNext.channel =
        .dropped oldest .unwritten :: (queue.map (.dropped · .terminated) ++ [.closed]) := by
      simp [heq, dispatchEvents, hslot, Channel.isRunning, hqueue, lossEvents]
    have hrefused : oldest.kind ≠ .startup ∧ outlet.accepting = false := by
      simpa [canWrite, houtlet] using hwrite
    rw [hevents] at hmem ⊢
    refine ⟨oldest, List.mem_cons_self, hrefused.1, hrefused.2, ?_⟩
    rcases List.mem_cons.1 hmem with hfirst | hothers
    · cases hfirst
      exact .inl ⟨rfl, rfl⟩
    · have hlost : command ∈ queue ∧ cause = .terminated := by simpa [eq_comm] using hothers
      exact .inr hlost.2

theorem slot_of_mem_dispatchEvents {event : Event} {outlet : Outlet}
    (hslot : dialogue.channel.inFlight = none) (houtlet : dialogue.channel.outlet = some outlet)
    (hmem : event ∈ dispatchEvents dialogue.channel.queue dialogue.dispatchNext.channel)
    (htaker : event.taker? = some command) :
    ∃ ticket, dialogue.dispatchNext.channel.inFlight = some { command, ticket } ∧
      dialogue.dispatchNext.channel.carry = {} := by
  rcases dispatchNext_cases hslot with ⟨hqueue, heq⟩ | ⟨oldest, queue, hqueue, -, heq⟩ |
    ⟨oldest, queue, hqueue, -, heq⟩
  · simp [heq, dispatchEvents, hslot, Channel.isRunning, houtlet] at hmem
  · obtain rfl : event = .dispatched oldest := by simpa [heq, dispatchEvents, grant] using hmem
    cases htaker
    rw [heq]
    exact ⟨none, rfl, rfl⟩
  · have hlost : event = .dropped oldest .unwritten ∨
        (∃ other ∈ queue, .dropped other .terminated = event) ∨ event = .closed := by
      simpa [heq, dispatchEvents, hslot, Channel.isRunning, hqueue, lossEvents] using hmem
    rcases hlost with rfl | ⟨other, -, rfl⟩ | rfl <;> cases htaker

/-- No command is dropped without one of the four causes. -/
theorem explained_of_mem_events {stimulus : Stimulus} {cause : DropCause}
    (hkept : dialogue.channel.Kept sent) (hmem : .dropped command cause ∈ dialogue.events stimulus) :
    cause.Explained stimulus dialogue command := by
  cases stimulus with
  | submit other ticket =>
    simp only [events] at hmem
    split at hmem <;> simp at hmem
  | enqueue other =>
    rcases enqueue_cases (fun hslot => (hkept.free hslot).1) other with ⟨e, carry, henqueue, -⟩ |
      ⟨flight, hslot, -, henqueue⟩ | ⟨hslot, -, henqueue⟩
    · simp [events, henqueue] at hmem
    · simp [events, henqueue, hslot] at hmem
    · simp [events, henqueue, hslot, dispatchEvents, grant] at hmem
  | output chunk =>
    rcases onOutput_cases chunk dialogue with ⟨text, awaited, hslot, hfeed, -⟩ |
      ⟨flight, out, carry, awaited, hslot, hfeed, -⟩ |
      ⟨flight, completion, awaited, hslot, -, hfeed, hafter⟩
    · simp [events, hfeed, (hkept.free hslot).1] at hmem
    · simp [events, hfeed] at hmem
    · obtain ⟨outlet, houtlet⟩ := hkept.exists_outlet hslot
      have hevents := events_of_complete hfeed hafter
      rw [hevents, List.mem_cons, List.mem_append] at hmem
      rcases hmem with hleft | hsettle | hoffer
      · cases hleft
      · rw [settleEvents] at hsettle
        split at hsettle
        · next hexit =>
          obtain ⟨waiting, -, hdropped⟩ := List.mem_map.1 hsettle
          cases hdropped
          exact ⟨chunk, _, rfl, hexit, .inr ⟨completion, hfeed, rfl⟩⟩
        · simp at hsettle
      · have hslot' : ((dialogue.vacate awaited).settle completion).channel.inFlight = none := rfl
        obtain ⟨oldest, hlost, hkind, hrefusing, hcause⟩ :=
          explained_of_mem_dispatchEvents hslot' houtlet hoffer
        rcases hcause with ⟨rfl, rfl⟩ | rfl
        · exact ⟨hkind, outlet, houtlet, hrefusing⟩
        · refine .inr ⟨oldest, ?_⟩
          rw [hevents]
          exact List.mem_cons_of_mem _ (List.mem_append_right _ hlost)
  | abort =>
    have hcause : command ∈ dialogue.channel.queue ∧ cause = .aborted := by
      simpa [events, eq_comm] using hmem
    rw [hcause.2]
    rfl
  | close =>
    have hcause : command ∈ dialogue.channel.queue ∧ cause = .terminated := by
      simpa [events, eq_comm] using hmem
    rw [hcause.2]
    exact .inl rfl
  | allowWriting accepting => cases hmem

/-- Whoever is noted to have taken the slot has it, with no output kept yet. -/
theorem slot_of_mem_events {stimulus : Stimulus} {event : Event} (hkept : dialogue.channel.Kept sent)
    (hmem : event ∈ dialogue.events stimulus) (htaker : event.taker? = some command) :
    ∃ ticket, (dialogue.perform stimulus).channel.inFlight = some { command, ticket } ∧
      (dialogue.perform stimulus).channel.carry = {} := by
  cases stimulus with
  | submit other ticket =>
    rcases submit_cases other ticket dialogue with ⟨e, carry, hsubmit, -⟩ | ⟨exited, -, -, hsubmit⟩
    · simp [events, hsubmit] at hmem
    · obtain rfl : event = .submitted other := by simpa [events, hsubmit] using hmem
      cases htaker
      rw [perform, hsubmit]
      exact ⟨ticket, rfl, rfl⟩
  | enqueue other =>
    rcases enqueue_cases (fun hslot => (hkept.free hslot).1) other with ⟨e, carry, henqueue, -⟩ |
      ⟨flight, hslot, -, henqueue⟩ | ⟨hslot, -, henqueue⟩
    · simp [events, henqueue] at hmem
    · obtain rfl : event = .accepted other := by simpa [events, henqueue, hslot] using hmem
      cases htaker
    · have hevent : event = .accepted other ∨ event = .dispatched other := by
        simpa [events, henqueue, hslot, dispatchEvents, grant] using hmem
      rcases hevent with rfl | rfl <;> cases htaker
      rw [perform, henqueue]
      exact ⟨none, rfl, rfl⟩
  | output chunk =>
    rcases onOutput_cases chunk dialogue with ⟨text, awaited, hslot, hfeed, -⟩ |
      ⟨flight, out, carry, awaited, -, hfeed, -⟩ |
      ⟨flight, completion, awaited, hslot, -, hfeed, hafter⟩
    · simp [events, hfeed, (hkept.free hslot).1] at hmem
    · simp [events, hfeed] at hmem
    · obtain ⟨outlet, houtlet⟩ := hkept.exists_outlet hslot
      rw [events_of_complete hfeed hafter, List.mem_cons, List.mem_append] at hmem
      rw [perform, hafter]
      rcases hmem with rfl | hsettle | hoffer
      · cases htaker
      · rw [settleEvents] at hsettle
        split at hsettle <;> obtain ⟨waiting, -, rfl⟩ := List.mem_map.1 hsettle <;> cases htaker
      · exact slot_of_mem_dispatchEvents rfl houtlet hoffer htaker
  | abort =>
    rcases List.mem_append.1 hmem with hleft | hdropped
    · obtain ⟨flight, -, rfl⟩ := List.mem_map.1 hleft
      cases htaker
    · obtain ⟨waiting, -, rfl⟩ := List.mem_map.1 hdropped
      cases htaker
  | close =>
    rcases List.mem_append.1 hmem with hmem | hclosed
    · rcases List.mem_append.1 hmem with hleft | hdropped
      · obtain ⟨flight, -, rfl⟩ := List.mem_map.1 hleft
        cases htaker
      · obtain ⟨waiting, -, rfl⟩ := List.mem_map.1 hdropped
        cases htaker
    · cases List.mem_singleton.1 hclosed
      cases htaker
  | allowWriting accepting => cases hmem

end Dialogue

namespace Chronicle
open Channel

/-- One slot, and first come first served behind it. -/
structure Orderly (chronicle : Chronicle) : Prop where
  /-- Nothing waits for the free slot, and no output is kept for it. -/
  free : chronicle.dialogue.channel.inFlight = none →
    chronicle.dialogue.channel.queue = [] ∧ chronicle.dialogue.channel.carry = {}
  /-- Without a debugger nothing is in flight and nothing waits. -/
  detached : chronicle.dialogue.isRunning = false →
    chronicle.dialogue.channel.inFlight = none ∧ chronicle.dialogue.channel.queue = []
  /-- A command is not taken in the foreground while others wait. -/
  foreground : ∀ command ticket,
    (chronicle.dialogue.submit command ticket).1 = .ok () → chronicle.dialogue.channel.queue = []
  /-- As long as the debugger is there it has been given what has been sent. -/
  written : ∀ outlet, chronicle.dialogue.channel.outlet = some outlet →
    outlet.written = chronicle.sent
  /-- What has been sent are the lines of the commands that took the slot, in that order. -/
  sent : chronicle.sent =
    ((chronicle.events.filterMap Event.taker?).filter (·.kind ≠ .startup)).flatMap (·.text ++ ['\n'])
  /-- A command takes the slot only after the one before it has completed or was aborted. -/
  turns : ∀ earlier first between second later,
    chronicle.events = earlier ++ first :: (between ++ second :: later) →
    first.taker?.isSome → second.taker?.isSome →
    .left .completed ∈ between ∨ .left .aborted ∈ between
  /-- The commands accepted in the background are, in that order, those whose waiting has ended and
      those still waiting. -/
  queued : chronicle.events.filterMap Event.accepted? =
    chronicle.events.filterMap Event.settled? ++ chronicle.dialogue.channel.queue
  /-- They are dropped only for one of the four causes, whatever happens next. -/
  dropped : ∀ stimulus command cause, .dropped command cause ∈ chronicle.dialogue.events stimulus →
    cause.Explained stimulus chronicle.dialogue command
  /-- The slot and the queue are what the events make of them. -/
  books : Ledger.enterAll? chronicle.events {} =
    some (chronicle.dialogue.channel.ledger chronicle.sent)

theorem flatMap_line (commands : List Command) : commands.flatMap line =
    (commands.filter (·.kind ≠ .startup)).flatMap (·.text ++ ['\n']) := by
  induction commands with
  | nil => rfl
  | cons command commands ih =>
    rw [List.flatMap_cons, ih, List.filter_cons]
    by_cases hstartup : command.kind = .startup <;> simp [line, hstartup]

/-- Whatever is done, in whatever order, and whenever writing fails, a dialogue is orderly. -/
theorem orderly_ofStimuli (detector : PromptDetector) (stimuli : List Stimulus) :
    (ofStimuli detector stimuli).Orderly := by
  obtain ⟨hkept, hbooks⟩ := kept_ofStimuli detector stimuli
  refine ⟨hkept.free, ?_, ?_, hkept.written, ?_, ?_, ?_, ?_, hbooks⟩
  · intro hdetached
    have hslot : (ofStimuli detector stimuli).dialogue.channel.inFlight = none := by
      apply hkept.detached
      simpa [Dialogue.isRunning, Channel.isRunning] using hdetached
    exact ⟨hslot, (hkept.free hslot).1⟩
  · intro command ticket hsubmit
    rcases Dialogue.submit_cases command ticket (ofStimuli detector stimuli).dialogue with
      ⟨e, carry, hrefused, -⟩ | ⟨exited, hslot, -, -⟩
    · rw [hrefused] at hsubmit
      cases hsubmit
    · exact (hkept.free hslot).1
  · rw [← flatMap_line]
    simpa [ledger] using Ledger.sent_of_enterAll? hbooks
  · intro earlier first between second later hevents hfirst hsecond
    rw [hevents] at hbooks
    exact Ledger.left_between hbooks hfirst hsecond
  · simpa [ledger] using Ledger.waiting_of_enterAll? hbooks
  · intro stimulus command cause hmem
    exact Dialogue.explained_of_mem_events hkept hmem

end Chronicle
end DebugClient
