import DebugClient.Proofs.Console.Display

/-!
Exchanges in a row. While the debugger answers command after command, what has been shown and written,
and who has the slot, depend on nothing but how many replies are complete by then: no cut of the
output makes a difference.
-/

namespace DebugClient

/-- A command with its reply, and whether the reply is for display. -/
structure Exchange where
  command : Command
  reply : Text
  displayed : Bool
  deriving DecidableEq, Repr

/-- What is shown of the exchange. -/
def Exchange.text (exchange : Exchange) : Text := if exchange.displayed then exchange.reply else []

namespace Dialogue
open Channel PromptDetector Text

variable {dialogue : Dialogue} {stem gap body written : Text}
  {chunks bodies front back : List Text} {course : List Exchange} {exited : Bool}

/-! ### Course of exchanges -/

/-- The exchanges to come from here on, if the debugger answers with these replies: each command has the
    slot when the one before it has completed, nothing waits behind it, and all of them have been or
    can be written. -/
def Plays : List Exchange → Text → Bool → Dialogue → Prop
  | [], written, exited, dialogue =>
    dialogue.channel.inFlight = none ∧ dialogue.channel.queue = [] ∧
      dialogue.channel.outlet = some { written } ∧ dialogue.steps = .idle ∧
      dialogue.exited = exited
  | exchange :: course, written, exited, dialogue =>
    ∃ ticket, dialogue.channel.inFlight = some { command := exchange.command, ticket } ∧
      dialogue.channel.carry = {} ∧ dialogue.channel.queue = [] ∧
      dialogue.channel.outlet = some { written := written ++ line exchange.command } ∧
      (dialogue.steps = .idle ∨ exchange.command.display = false) ∧ dialogue.exited = exited ∧
      dialogue.displays exchange.command exchange.reply = exchange.displayed ∧
      ∀ missing tail, Plays course (written ++ line exchange.command)
        (exited || Stop.announcesExit exchange.reply)
        ((dialogue.vacate missing).settle
          (completion { command := exchange.command, ticket } exchange.reply tail)).dispatchNext

/-- How things stand when `complete` replies of a course are complete, with `shown` shown by then. -/
structure Stands (course : List Exchange) (written : Text) (exited : Bool) (complete : Nat)
    (shown : Text) (now : Dialogue) : Prop where
  /-- The command whose turn it is has the slot. -/
  slot : now.channel.inFlight.map (·.command) = course[complete]?.map (·.command)
  queue : now.channel.queue = []
  /-- It has been written, and no later one. -/
  outlet : now.channel.outlet = some
    { written := written ++ (course.take (complete + 1)).flatMap fun exchange => line exchange.command }
  /-- All of the replies that are complete has been shown that is for display, -/
  shown_ge : (course.take complete).flatMap Exchange.text <+: shown
  /-- and at most so much of the next. -/
  shown_le : shown <+: (course.take (complete + 1)).flatMap Exchange.text
  steps : course.length ≤ complete → now.steps = .idle
  exited : now.exited =
    (exited || (course.take complete).any fun exchange => Stop.announcesExit exchange.reply)

/-- The number of replies that are complete as far as their stems go, when so much has arrived. -/
def completeReplies (stem gap : Text) (offset : Nat) (replies : List Text) (arrived : Nat) : Nat :=
  (stemEnds stem gap offset replies).countP (· ≤ arrived)

theorem completeReplies_of_lt {offset arrived : Nat}
    (hlt : arrived < offset + (body ++ stem).length) :
    completeReplies stem gap offset (body :: bodies) arrived = 0 := by
  rw [completeReplies, stemEnds, List.countP_eq_zero]
  intro stop hstop
  have hle : offset + (body ++ stem).length ≤ stop := by
    rcases List.mem_cons.1 hstop with rfl | hlater
    · exact Nat.le_refl _
    · have := le_of_mem_stemEnds hlater
      simp only [List.length_append] at this ⊢
      omega
  simp only [decide_eq_true_eq]
  omega

theorem completeReplies_of_le {offset arrived more missing : Nat}
    (hle : offset + (body ++ stem).length ≤ arrived)
    (hmissing : offset + (body ++ stem ++ gap).length = arrived + missing) :
    completeReplies stem gap offset (body :: bodies) (arrived + more) =
      completeReplies stem gap missing bodies more + 1 := by
  have hlater : stemEnds stem gap missing bodies =
      (stemEnds stem gap (offset + (body ++ stem ++ gap).length) bodies).map (· - arrived) := by
    rw [stemEnds_sub (by omega), hmissing, Nat.add_sub_cancel_left]
  rw [completeReplies, completeReplies, stemEnds, hlater, List.countP_map, List.countP_cons_of_pos]
  · congr 1
    apply List.countP_congr
    intro stop _
    simp only [Function.comp_apply, decide_eq_true_eq]
    omega
  · simp only [decide_eq_true_eq]
    omega

/-! ### One exchange after the other -/

theorem Plays.outlet_isSome (hplays : Plays course written exited dialogue) :
    dialogue.channel.outlet.isSome := by
  cases course with
  | nil =>
    obtain ⟨-, -, houtlet, -⟩ := hplays
    rw [houtlet]
    rfl
  | cons exchange course =>
    obtain ⟨ticket, -, -, -, houtlet, -⟩ := hplays
    rw [houtlet]
    rfl

/-- Offering the slot to the queue leaves what is awaited as it was, unless the debugger is lost. -/
theorem awaited_dispatchNext (hslot : dialogue.channel.inFlight = none)
    (houtlet : dialogue.dispatchNext.channel.outlet.isSome) :
    dialogue.dispatchNext.channel.awaited = dialogue.channel.awaited := by
  rcases dispatchNext_cases hslot with ⟨-, heq⟩ | ⟨oldest, queue, -, -, heq⟩ |
    ⟨oldest, queue, -, -, heq⟩
  · rw [heq]
  · rw [heq]
    rfl
  · rw [heq] at houtlet
    cases houtlet

theorem Stands.cons {exchange : Exchange} {complete : Nat} {shown : Text} {now : Dialogue}
    (hstands : Stands course (written ++ line exchange.command)
      (exited || Stop.announcesExit exchange.reply) complete shown now) :
    Stands (exchange :: course) written exited (complete + 1) (exchange.text ++ shown) now := by
  obtain ⟨hslot, hqueue, houtlet, hge, hle, hsteps, hexited⟩ := hstands
  refine ⟨?_, hqueue, ?_, ?_, ?_, ?_, ?_⟩
  · rw [hslot, List.getElem?_cons_succ]
  · rw [houtlet, List.take_succ_cons, List.flatMap_cons, List.append_assoc]
  · rw [List.take_succ_cons, List.flatMap_cons]
    exact (List.prefix_append_right_inj _).2 hge
  · rw [List.take_succ_cons, List.flatMap_cons]
    exact (List.prefix_append_right_inj _).2 hle
  · intro hlength
    apply hsteps
    rw [List.length_cons] at hlength
    omega
  · rw [hexited, List.take_succ_cons, List.any_cons, Bool.or_assoc]

/-- The first exchange of a course, as it goes on until `chunk` completes its command and leaves
    `next`. -/
structure Concludes (dialogue : Dialogue) (exchange : Exchange) (stem gap : Text)
    (before : List Text) (chunk : Text) (next : Dialogue) : Prop where
  receiving : ∀ front, front <+: before → dialogue.Receiving (dialogue.onOutputs front).2 ∧
    (dialogue.onOutputs front).1.flatten.flatten <+: exchange.text
  onOutputs : (dialogue.onOutputs (before ++ [chunk])).2 = next
  shown : (dialogue.onOutputs (before ++ [chunk])).1.flatten.flatten = exchange.text
  early : before.flatten.length <
    dialogue.channel.awaited.length + (exchange.reply ++ stem).length
  late : dialogue.channel.awaited.length + (exchange.reply ++ stem).length ≤
    (before ++ [chunk]).flatten.length
  /-- Only the rest of the gap is still to come. -/
  rest : dialogue.channel.awaited.length + (exchange.reply ++ stem ++ gap).length =
    (before ++ [chunk]).flatten.length + next.channel.awaited.length
  detector : next.channel.detector = dialogue.channel.detector

/-- The first command of a course is completed by its reply, and the rest of the course comes next. -/
theorem Plays.exists_concludes {exchange : Exchange}
    (hprimary : dialogue.channel.detector.Primary stem gap)
    (hplays : Plays (exchange :: course) written exited dialogue)
    (hframed : dialogue.channel.detector.Frames stem exchange.reply)
    (hchunks : chunks.flatten =
      dialogue.channel.awaited ++ transcript stem gap (exchange.reply :: bodies))
    (hcuts : CutWithinGaps gap
      (stemEnds stem gap dialogue.channel.awaited.length (exchange.reply :: bodies)) chunks) :
    ∃ before chunk after next, chunks = before ++ chunk :: after ∧
      dialogue.Concludes exchange stem gap before chunk next ∧
      Plays course (written ++ line exchange.command)
        (exited || Stop.announcesExit exchange.reply) next ∧
      after.flatten = next.channel.awaited ++ transcript stem gap bodies ∧
      CutWithinGaps gap (stemEnds stem gap next.channel.awaited.length bodies) after := by
  obtain ⟨ticket, hslot, hcarry, -, -, hcovered, -, hdisplays, hnext⟩ := hplays
  have hreceives : dialogue.channel.Receives { command := exchange.command, ticket } stem gap
      exchange.reply (exchange.reply ++ stem) :=
    ⟨hprimary, hframed, hslot, by rw [hcarry]; rfl, by simp [hprimary.stem_ne_nil]⟩
  have houtput : chunks.flatten = dialogue.channel.awaited ++ (exchange.reply ++ stem) ++ gap ++
      transcript stem gap bodies := by
    rw [hchunks]
    simp [transcript]
  rw [stemEnds, ← List.length_append, ← List.length_append, ← List.append_assoc _ _ gap] at hcuts
  obtain ⟨before, chunk, after, arrived, missing, tail, rfl, hgap, hpast, hearly, hafter, hcuts',
    hcompletes, hreceiving⟩ := exists_completesAt_of_cuts hreceives houtput hcuts
  have hbody := hcompletes.shown hcarry hcovered
  rw [hdisplays] at hbody
  have hrest := hnext [missing].flatten tail
  have hawaited := awaited_dispatchNext rfl hrest.outlet_isSome
  rw [show ((dialogue.vacate [missing].flatten).settle _).channel.awaited = missing from
    List.flatten_singleton] at hawaited
  have hlength := congrArg List.length hpast
  simp only [List.length_append] at hlength hearly
  refine ⟨before, chunk, after, _, rfl, ?_, hrest, by rw [hafter, hawaited], by rwa [hawaited]⟩
  constructor
  case receiving =>
    intro front hfront
    refine ⟨hreceiving front hfront, ?_⟩
    obtain ⟨more, rfl⟩ := hfront
    rw [onOutputs_append, List.flatten_append, List.flatten_append, List.append_assoc] at hbody
    rw [Exchange.text, ← hbody]
    exact List.prefix_append _ _
  case onOutputs => rw [onOutputs_append, Dialogue.onOutputs, hcompletes.onOutput]; rfl
  case shown =>
    rw [onOutputs_append, Dialogue.onOutputs, hcompletes.onOutput, Exchange.text, ← hbody]
    simp [Dialogue.onOutputs]
  case early =>
    simp only [List.length_append]
    omega
  case late =>
    simp only [List.length_append, hlength]
    omega
  case rest =>
    simp only [List.length_append, hlength, hawaited, hgap]
    omega
  case detector => exact detector_dispatchNext rfl

/-- While the first reply is incomplete, its command has the slot and at most a part of the reply has
    been shown. -/
theorem Plays.stands_of_receiving {exchange : Exchange} {shown : Text} {now : Dialogue}
    (hplays : Plays (exchange :: course) written exited dialogue)
    (hreceiving : dialogue.Receiving now) (hshown : shown <+: exchange.text) :
    Stands (exchange :: course) written exited 0 shown now := by
  obtain ⟨ticket, hslot, -, hqueue, houtlet, -, hexited, -, -⟩ := hplays
  obtain ⟨carry, awaited, rfl⟩ := hreceiving
  constructor
  · simp [hslot]
  · exact hqueue
  · simp [houtlet]
  · exact List.nil_prefix
  · simpa using hshown
  · intro hlength
    cases hlength
  · simpa using hexited

/-- At whatever moment a course is looked at, things stand as the number of complete replies says. -/
theorem Plays.stands (hprimary : dialogue.channel.detector.Primary stem gap)
    (hplays : Plays course written exited dialogue)
    (hframes : ∀ exchange ∈ course, dialogue.channel.detector.Frames stem exchange.reply)
    (hchunks : (front ++ back).flatten =
      dialogue.channel.awaited ++ transcript stem gap (course.map (·.reply)))
    (hcuts : CutWithinGaps gap
      (stemEnds stem gap dialogue.channel.awaited.length (course.map (·.reply))) (front ++ back)) :
    Stands course written exited
      (completeReplies stem gap dialogue.channel.awaited.length (course.map (·.reply))
        front.flatten.length)
      (dialogue.onOutputs front).1.flatten.flatten (dialogue.onOutputs front).2 := by
  induction course generalizing dialogue written exited front with
  | nil =>
    obtain ⟨hslot, hqueue, houtlet, hsteps, hexited⟩ := hplays
    -- Behind the last reply the rest of its gap is dropped.
    rw [List.map_nil, transcript, List.flatMap_nil, List.append_nil, List.flatten_append] at hchunks
    obtain ⟨hshown, hnow⟩ := onOutputs_of_awaited (fun hbusy => absurd hslot hbusy) hchunks.symm
    rw [hshown, hnow]
    exact ⟨by simp [hslot], hqueue, by simp [houtlet], by simp, by simp, fun _ => hsteps,
      by simp [hexited]⟩
  | cons exchange course ih =>
    obtain ⟨hframed, hothers⟩ := List.forall_mem_cons.1 hframes
    rw [List.map_cons] at hchunks hcuts ⊢
    obtain ⟨before, chunk, after, next, hsplit, hconcludes, hrest, hafter, hcuts'⟩ :=
      hplays.exists_concludes hprimary hframed hchunks hcuts
    have hearly : front <+: before → Stands (exchange :: course) written exited
        (completeReplies stem gap dialogue.channel.awaited.length
          (exchange.reply :: course.map (·.reply)) front.flatten.length)
        (dialogue.onOutputs front).1.flatten.flatten (dialogue.onOutputs front).2 := by
      intro hlead
      obtain ⟨hreceiving, hshown⟩ := hconcludes.receiving front hlead
      have hlt := Nat.lt_of_le_of_lt hlead.flatten.length_le hconcludes.early
      rw [completeReplies_of_lt hlt]
      exact hplays.stands_of_receiving hreceiving hshown
    rcases List.append_eq_append_iff.1 hsplit with ⟨more, hmore, -⟩ | ⟨more, hmore, hmore'⟩
    · exact hearly ⟨more, hmore.symm⟩
    · cases more with
      | nil => exact hearly (by rw [hmore, List.append_nil])
      | cons other front' =>
        obtain ⟨rfl, rfl⟩ := List.cons_eq_cons.1 hmore'
        have hfront : front = before ++ [chunk] ++ front' := by rw [hmore]; simp
        have hcount : completeReplies stem gap dialogue.channel.awaited.length
            (exchange.reply :: course.map (·.reply)) front.flatten.length =
            completeReplies stem gap next.channel.awaited.length (course.map (·.reply))
              front'.flatten.length + 1 := by
          rw [hfront, List.flatten_append, List.length_append]
          exact completeReplies_of_le hconcludes.late hconcludes.rest
        rw [hcount, hfront, onOutputs_append, List.flatten_append, List.flatten_append,
          hconcludes.shown, hconcludes.onOutputs]
        apply Stands.cons
        rw [← hconcludes.detector] at hprimary hothers
        exact ih hprimary hrest hothers hafter hcuts'

/-! ### What follows from how things stand -/

/-- When all of the output has arrived all replies are complete. -/
theorem completeReplies_transcript (stem gap : Text) (offset : Nat) (replies : List Text) :
    completeReplies stem gap offset replies (offset + (transcript stem gap replies).length) =
      replies.length := by
  induction replies generalizing offset with
  | nil => rfl
  | cons reply replies ih =>
    have hlength : offset + (transcript stem gap (reply :: replies)).length =
        offset + (reply ++ stem ++ gap).length + (transcript stem gap replies).length := by
      simp [transcript, Nat.add_assoc]
    have hfirst : offset + (reply ++ stem).length ≤
        offset + (transcript stem gap (reply :: replies)).length := by
      rw [hlength]
      simp only [List.length_append]
      omega
    have hlater := ih (offset + (reply ++ stem ++ gap).length)
    rw [← hlength] at hlater
    unfold completeReplies at hlater ⊢
    rw [stemEnds, List.countP_cons_of_pos (by simpa using hfirst), hlater, List.length_cons]

section
variable {complete : Nat} {shown : Text} {now : Dialogue}

/-- While a reply is to come, no other command is taken in the foreground. -/
theorem Stands.submit_eq_busy (hstands : Stands course written exited complete shown now)
    {exchange : Exchange} (hturn : course[complete]? = some exchange) (other : Command)
    (ticket : Option Nat) :
    now.submit other ticket = (.error (.busy exchange.command.text), now) := by
  have hslot := hstands.slot
  rw [hturn] at hslot
  obtain ⟨flight, hflight, hcommand⟩ := Option.map_eq_some_iff.1 hslot
  rw [submit_of_inFlight hflight, hcommand]

/-- When the last reply is complete the slot is free. -/
theorem Stands.isIdle_iff (hstands : Stands course written exited complete shown now) :
    now.isIdle = true ↔ course.length ≤ complete := by
  have hslot := congrArg Option.isNone hstands.slot
  rw [Option.isNone_map, Option.isNone_map] at hslot
  simp [isIdle, Channel.isIdle, hstands.queue, hslot]

theorem Stands.submit_eq_ok (hstands : Stands course written exited complete shown now)
    (hover : course.length ≤ complete) (other : Command) (ticket : Option Nat) :
    (now.submit other ticket).1 = .ok () := by
  have hfree : now.channel.inFlight = none := by
    have hidle := hstands.isIdle_iff.2 hover
    simp only [isIdle, Channel.isIdle, Bool.and_eq_true, Option.isNone_iff_eq_none] at hidle
    exact hidle.1
  have hwrite : now.channel.canWrite other = true := by simp [canWrite, hstands.outlet]
  rw [submit, issue_of_canWrite hfree hwrite]

/-- All that is for display has been shown by then, and nothing else. -/
theorem Stands.shown_eq (hstands : Stands course written exited complete shown now)
    (hover : course.length ≤ complete) : shown = course.flatMap Exchange.text := by
  have hge := hstands.shown_ge
  have hle := hstands.shown_le
  rw [List.take_of_length_le hover] at hge
  rw [List.take_of_length_le (Nat.le_succ_of_le hover)] at hle
  exact hle.eq_of_length_le hge.length_le

/-- A course as it is seen from outside. -/
structure Conduct (course : List Exchange) (written : Text) (exited : Bool) (complete : Nat)
    (shown : Text) (now : Dialogue) : Prop where
  stands : Stands course written exited complete shown now
  /-- As long as a reply is to come, whatever is submitted is refused and changes nothing. -/
  busy : ∀ exchange, course[complete]? = some exchange → ∀ other ticket,
    now.submit other ticket = (.error (.busy exchange.command.text), now)
  finished : course.length ≤ complete →
    now.isIdle = true ∧ now.steps = .idle ∧ shown = course.flatMap Exchange.text ∧
      ∀ other ticket, (now.submit other ticket).1 = .ok ()

theorem Stands.conduct (hstands : Stands course written exited complete shown now) :
    Conduct course written exited complete shown now := by
  constructor
  · exact hstands
  · intro exchange hturn
    exact hstands.submit_eq_busy hturn
  · intro hover
    exact ⟨hstands.isIdle_iff.2 hover, hstands.steps hover, hstands.shown_eq hover,
      hstands.submit_eq_ok hover⟩

end

/-- A course at every moment of it, and at its end. -/
theorem Plays.conduct (hprimary : dialogue.channel.detector.Primary stem gap)
    (hplays : Plays course written exited dialogue)
    (hframes : ∀ exchange ∈ course, dialogue.channel.detector.Frames stem exchange.reply)
    (hchunks : chunks.flatten =
      dialogue.channel.awaited ++ transcript stem gap (course.map (·.reply)))
    (hcuts : CutWithinGaps gap
      (stemEnds stem gap dialogue.channel.awaited.length (course.map (·.reply))) chunks) :
    (∀ front back, chunks = front ++ back → Conduct course written exited
      (completeReplies stem gap dialogue.channel.awaited.length (course.map (·.reply))
        front.flatten.length)
      (dialogue.onOutputs front).1.flatten.flatten (dialogue.onOutputs front).2) ∧
    completeReplies stem gap dialogue.channel.awaited.length (course.map (·.reply))
      chunks.flatten.length = course.length := by
  constructor
  · rintro front back rfl
    exact (hplays.stands hprimary hframes hchunks hcuts).conduct
  · rw [hchunks, List.length_append, completeReplies_transcript, List.length_map]

end Dialogue
end DebugClient
