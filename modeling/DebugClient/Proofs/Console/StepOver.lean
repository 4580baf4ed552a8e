import DebugClient.Proofs.Console.Exchange

/-!
The automatic step-over as a whole. A visible `step` leads to one, two or three exchanges, depending
on the catalogue and on the replies; what is shown and written on the way, and when the dialogue is
free again, follows from these exchanges.
-/

namespace DebugClient

/-- The visible command by which the step controller goes past a call. -/
def StepState.automaticNext : Command := .ofText "next".toList true

open StepState

/-- The exchanges that a visible `step` leads to, if the debugger answers with these replies. They end
    with the first reply that tells of the target's end. -/
def stepOver (catalogue : Catalogue) (step : Command) (first second third : Text) : List Exchange :=
  if (Stop.callSites first).all catalogue.contains then [⟨step, first, true⟩]
  else ⟨step, first, false⟩ ::
    if Stop.announcesExit first then []
    else if Stop.stoppedLine second = Stop.stoppedLine first then
      ⟨automaticFinish, second, false⟩ ::
        if Stop.announcesExit second then [] else [⟨automaticNext, third, true⟩]
    else [⟨automaticFinish, second, true⟩]

/-- The exchange, shown only if `display` says so as well. -/
def Exchange.restrict (display : Bool) (exchange : Exchange) : Exchange :=
  { exchange with displayed := exchange.displayed && display }

theorem Exchange.restrict_true : Exchange.restrict true = id := by
  funext exchange
  rw [restrict, Bool.and_true]
  rfl

/-- Whether all of these exchanges are hidden, the last one too: it tells of the target's end while a
    function outside the catalogue is being left. -/
def endsUnseen (catalogue : Catalogue) (first second : Text) : Bool :=
  !(Stop.callSites first).all catalogue.contains &&
    (Stop.announcesExit first ||
      (Stop.stoppedLine second = Stop.stoppedLine first && Stop.announcesExit second))

/-- Nothing is shown of these exchanges but the last reply, and that only if they do not end unseen. -/
theorem flatMap_text_stepOver (catalogue : Catalogue) (step : Command) (first second third : Text) :
    ∃ last, (stepOver catalogue step first second third).getLast? = some last ∧
      (stepOver catalogue step first second third).flatMap Exchange.text =
        if endsUnseen catalogue first second then [] else last.reply := by
  unfold stepOver endsUnseen
  by_cases hknown : (Stop.callSites first).all catalogue.contains
  · exact ⟨_, by rw [if_pos hknown]; rfl, by simp [hknown, Exchange.text]⟩
  · rw [if_neg hknown]
    have hunknown : (Stop.callSites first).all catalogue.contains = false := by simpa using hknown
    cases hfirst : Stop.announcesExit first with
    | true => exact ⟨_, rfl, by simp [hunknown, Exchange.text]⟩
    | false =>
      rw [if_neg Bool.false_ne_true]
      by_cases hline : Stop.stoppedLine second = Stop.stoppedLine first
      · rw [if_pos hline]
        cases hsecond : Stop.announcesExit second with
        | true => exact ⟨_, rfl, by simp [hunknown, hline, Exchange.text]⟩
        | false => exact ⟨_, rfl, by simp [Exchange.text]⟩
      · rw [if_neg hline]
        exact ⟨_, rfl, by simp [hline, Exchange.text]⟩

namespace Dialogue
open Channel Text

variable {dialogue : Dialogue} {exchange : Exchange} {course : List Exchange} {ticket : Option Nat}
  {written : Text} {exited : Bool} {command : Command}

/-! ### One exchange after another -/

/-- The command has just taken the slot, and nothing waits behind it. -/
structure Opens (dialogue : Dialogue) (command : Command) (ticket : Option Nat) (written : Text) :
    Prop where
  slot : dialogue.channel.inFlight = some { command, ticket }
  carry : dialogue.channel.carry = {}
  queue : dialogue.channel.queue = []
  outlet : dialogue.channel.outlet = some { written := written ++ line command }

section
variable (hopens : dialogue.Opens exchange.command ticket written)
  (hcovered : dialogue.steps = .idle ∨ exchange.command.display = false)
  (hdisplays : dialogue.displays exchange.command exchange.reply = exchange.displayed)
include hopens hcovered hdisplays

/-- The exchange is the last one if the controller asks for nothing more, or the target has ended. -/
theorem Opens.plays_last
    (hlast : Stop.announcesExit exchange.reply = true ∨
      ∃ outcome, dialogue.verdict ⟨exchange.command, exchange.reply, exchange.command.display⟩ =
        (outcome, .idle) ∧ outcome.followUp = none) :
    Plays [exchange] written dialogue.exited dialogue := by
  refine ⟨ticket, hopens.slot, hopens.carry, hopens.queue, hopens.outlet, hcovered, rfl, hdisplays, ?_⟩
  intro missing tail
  have hvacated : (dialogue.vacate missing).channel.queue = [] := hopens.queue
  have hqueue : ((dialogue.vacate missing).settle (completion
      { command := exchange.command, ticket } exchange.reply tail)).channel.queue = [] := by
    rcases hlast with hexit | ⟨outcome, hverdict, hnone⟩
    · simp [settle, waitingAfter, completion, hexit]
    · simp [settle, waitingAfter, completion, hverdict, hnone, hvacated]
  rw [dispatchNext_of_queue_eq_nil rfl hqueue]
  refine ⟨rfl, hqueue, hopens.outlet, ?_, rfl⟩
  rcases hlast with hexit | ⟨outcome, hverdict, -⟩
  · simp [settle, completion, hexit]
  · simp [settle, completion, hverdict]

/-- Otherwise the command that the controller asks for opens the next one. -/
theorem Opens.plays_cons {outcome : StepOutcome} {steps : StepState} {follow : Command}
    (hstays : Stop.announcesExit exchange.reply = false)
    (hverdict : dialogue.verdict ⟨exchange.command, exchange.reply, exchange.command.display⟩ =
      (outcome, steps)) (hfollow : outcome.followUp = some follow)
    (hnext : ∀ next : Dialogue, next.Opens follow none (written ++ line exchange.command) →
      next.steps = steps → Plays course (written ++ line exchange.command) next.exited next) :
    Plays (exchange :: course) written dialogue.exited dialogue := by
  refine ⟨ticket, hopens.slot, hopens.carry, hopens.queue, hopens.outlet, hcovered, rfl, hdisplays, ?_⟩
  intro missing tail
  have hvacated : (dialogue.vacate missing).channel.queue = [] := hopens.queue
  let settled := (dialogue.vacate missing).settle (completion
    { command := exchange.command, ticket } exchange.reply tail)
  have hqueue : settled.channel.queue = [follow] := by
    simp [settled, settle, waitingAfter, completion, hstays, hverdict, hfollow, hvacated]
  have houtlet : settled.channel.outlet = some { written := written ++ line exchange.command } :=
    hopens.outlet
  have hwrite : settled.channel.canWrite follow = true := by
    rw [canWrite, houtlet]
    simp
  have hgranted := dispatchNext_of_queue_eq_cons rfl hqueue hwrite
  have hexited : settled.dispatchNext.exited = dialogue.exited := by
    rw [hgranted]
    simp [settled, settle, completion, hstays, vacate]
  have hsteps : settled.dispatchNext.steps = steps := by
    rw [steps_dispatchNext]
    simp [settled, settle, completion, hstays, hverdict]
  have hopens' : settled.dispatchNext.Opens follow none (written ++ line exchange.command) := by
    rw [hgranted]
    refine ⟨rfl, rfl, rfl, ?_⟩
    simp [grant, houtlet]
  rw [hstays, Bool.or_false, ← hexited]
  exact hnext _ hopens' hsteps

end

/-! ### The exchanges of a step-over -/

theorem kind_automaticNext : automaticNext.kind = .next := by decide

theorem Opens.plays_automaticNext (hopens : dialogue.Opens automaticNext none written)
    (hsteps : dialogue.steps = .idle) (reply : Text) :
    Plays [⟨automaticNext, reply, true⟩] written dialogue.exited dialogue := by
  have hnot : ¬ (automaticNext.kind = .step ∧ entersUnknown dialogue.catalogue reply = true) := by
    simp [kind_automaticNext]
  have hdisplay : automaticNext.display = true := rfl
  refine Opens.plays_last hopens (.inl hsteps) ?_ (.inr ⟨_, verdict_of_not_enters hsteps hnot, rfl⟩)
  simp [displays, hsteps, kind_automaticNext, hdisplay]

/-- The reply to the automatic `finish` decides whether a `next` has to follow. -/
theorem Opens.plays_automaticFinish {line : Option Nat}
    (hopens : dialogue.Opens automaticFinish none written)
    (hsteps : dialogue.steps = .awaitingSkipDecision line) (reply last : Text) :
    Plays (if Stop.stoppedLine reply = line then
        ⟨automaticFinish, reply, false⟩ ::
          if Stop.announcesExit reply then [] else [⟨automaticNext, last, true⟩]
      else [⟨automaticFinish, reply, true⟩]) written dialogue.exited dialogue := by
  have hcovered : dialogue.steps = .idle ∨ automaticFinish.display = false := .inr rfl
  have hdisplays : dialogue.displays automaticFinish reply = (Stop.stoppedLine reply ≠ line) := by
    simp [displays, hsteps]
  by_cases hline : Stop.stoppedLine reply = line
  · have hverdict : dialogue.verdict ⟨automaticFinish, reply, automaticFinish.display⟩ =
        ({ followUp := some automaticNext }, .idle) := by
      rw [verdict, hsteps, observe, if_pos hline]
      rfl
    have hhidden : dialogue.displays automaticFinish reply = false := by simpa [hline] using hdisplays
    rw [if_pos hline]
    cases hexit : Stop.announcesExit reply with
    | true => exact Opens.plays_last hopens hcovered hhidden (.inl hexit)
    | false =>
      refine Opens.plays_cons hopens hcovered hhidden hexit hverdict rfl ?_
      intro next hopens' hsteps'
      exact hopens'.plays_automaticNext hsteps' last
  · have hverdict : dialogue.verdict ⟨automaticFinish, reply, automaticFinish.display⟩ =
        ({ reveal := true }, .idle) := by
      rw [verdict, hsteps, observe, if_neg hline]
    have hshown : dialogue.displays automaticFinish reply = true := by simpa [hline] using hdisplays
    rw [if_neg hline]
    exact Opens.plays_last hopens hcovered hshown (.inr ⟨_, hverdict, rfl⟩)

/-- A `step` that has just been given leads to the exchanges of a step-over, and its own reply is shown
    only if it was given for display. -/
theorem Opens.plays_step (hopens : dialogue.Opens command ticket written)
    (hsteps : dialogue.steps = .idle) (hkind : command.kind = .step) (first second third : Text) :
    Plays ((stepOver dialogue.catalogue command first second third).modifyHead
      (Exchange.restrict command.display)) written dialogue.exited dialogue := by
  have hcovered : dialogue.steps = .idle ∨ command.display = false := .inl hsteps
  have hdisplays : dialogue.displays command first =
      ((Stop.callSites first).all dialogue.catalogue.contains && command.display) := by
    simp [displays, hsteps, hkind, Bool.and_comm]
  unfold stepOver
  cases hknown : (Stop.callSites first).all dialogue.catalogue.contains with
  | true =>
    have hnot : ¬ (command.kind = .step ∧ entersUnknown dialogue.catalogue first = true) := by
      simpa [entersUnknown, hkind] using hknown
    rw [hknown] at hdisplays
    exact Opens.plays_last hopens hcovered hdisplays
      (.inr ⟨_, verdict_of_not_enters hsteps hnot, rfl⟩)
  | false =>
    have henters : command.kind = .step ∧ entersUnknown dialogue.catalogue first = true := by
      simpa [entersUnknown, hkind] using hknown
    rw [hknown] at hdisplays
    rw [if_neg Bool.false_ne_true]
    cases hexit : Stop.announcesExit first with
    | true => exact Opens.plays_last hopens hcovered hdisplays (.inl hexit)
    | false =>
      refine Opens.plays_cons hopens hcovered hdisplays hexit
        (verdict_of_enters hsteps henters) rfl ?_
      intro next hopens' hsteps'
      exact hopens'.plays_automaticFinish hsteps' second third

/-- A visible `step` that has just been given leads to the exchanges of a step-over. -/
theorem Opens.plays_stepOver (hopens : dialogue.Opens command ticket written)
    (hsteps : dialogue.steps = .idle) (hkind : command.kind = .step)
    (hdisplay : command.display = true) (first second third : Text) :
    Plays (stepOver dialogue.catalogue command first second third) written dialogue.exited
      dialogue := by
  have hplays := hopens.plays_step hsteps hkind first second third
  rwa [hdisplay, Exchange.restrict_true, List.modifyHead_id] at hplays

end Dialogue

namespace Chronicle
open Channel PromptDetector

/-- No skip is in progress in a dialogue that is there and idle. -/
theorem steps_of_isIdle {detector : PromptDetector} {stimuli : List Stimulus}
    (hrunning : (ofStimuli detector stimuli).dialogue.isRunning = true)
    (hidle : (ofStimuli detector stimuli).dialogue.isIdle = true) :
    (ofStimuli detector stimuli).dialogue.steps = .idle := by
  cases hsteps : (ofStimuli detector stimuli).dialogue.steps with
  | idle => rfl
  | awaitingSkipDecision line =>
    obtain ⟨_, _, _, -, -, oldest, others, hpending⟩ := exists_pending detector stimuli hsteps
    rcases hpending.slot with ⟨-, hslot, -⟩ | ⟨-, -, houtlet, -⟩
    · simp [Dialogue.isIdle, Channel.isIdle, hslot] at hidle
    · simp [Dialogue.isRunning, Channel.isRunning, houtlet] at hrunning

/-- At the end of a run the dialogue is idle, with a debugger that can be written to, and a visible
    `step` is to be given. The debugger answers it and what follows from it with these replies, in
    chunks, and it does not answer a command before it has received it. -/
structure StepAnswered (detector : PromptDetector) (stem gap : Text) (start : Dialogue)
    (written : Text) (command : Command) (first second third : Text) (chunks : List Text) :
    Prop where
  reached : ∃ stimuli, start = (ofStimuli detector stimuli).dialogue
  idle : start.isIdle = true
  outlet : start.channel.outlet = some { written, accepting := true }
  kind : command.kind = .step
  display : command.display = true
  primary : detector.Primary stem gap
  frames : ∀ exchange ∈ stepOver start.catalogue command first second third,
    detector.Frames stem exchange.reply
  /-- The last prompt before it may not have arrived as a whole. -/
  output : chunks.flatten = start.channel.awaited ++ transcript stem gap
    ((stepOver start.catalogue command first second third).map (·.reply))
  cuts : CutWithinGaps gap (stemEnds stem gap start.channel.awaited.length
    ((stepOver start.catalogue command first second third).map (·.reply))) chunks

section
variable {detector : PromptDetector} {stem gap written first second third : Text}
  {start : Dialogue} {command : Command} {chunks : List Text}

/-- The debugger has just been attached, and its prompt is `(gdb) `. -/
theorem stepAnswered_of_attached
    (hframes : ∀ exchange ∈ stepOver {} (.ofText "step".toList true) first second third,
      Frames ⟨["(gdb) ".toList]⟩ "(gdb)".toList exchange.reply)
    (houtput : chunks.flatten = transcript "(gdb)".toList " ".toList
      ((stepOver {} (.ofText "step".toList true) first second third).map (·.reply)))
    (hcuts : CutWithinGaps " ".toList (stemEnds "(gdb)".toList " ".toList 0
      ((stepOver {} (.ofText "step".toList true) first second third).map (·.reply))) chunks) :
    StepAnswered ⟨["(gdb) ".toList]⟩ "(gdb)".toList " ".toList
      (ofStimuli ⟨["(gdb) ".toList]⟩ []).dialogue [] (.ofText "step".toList true) first second third
      chunks where
  reached := ⟨[], rfl⟩
  idle := rfl
  outlet := rfl
  kind := by decide
  display := rfl
  primary := primary_gdb
  frames := hframes
  output := houtput
  cuts := hcuts

/-- In an idle dialogue that can be written to a `step` is taken, and nothing waits behind it. -/
theorem exists_opens (hreached : ∃ stimuli, start = (ofStimuli detector stimuli).dialogue)
    (hidle : start.isIdle = true)
    (houtlet : start.channel.outlet = some { written, accepting := true })
    (hkind : command.kind = .step) (ticket : Option Nat) :
    ∃ next, start.submit command ticket = (.ok (), next) ∧ next.channel.detector = detector ∧
      next.channel.awaited = start.channel.awaited ∧ next.catalogue = start.catalogue ∧
      next.exited = start.exited ∧ next.steps = .idle ∧ next.Opens command ticket written := by
  obtain ⟨stimuli, hreached⟩ := hreached
  have hrunning : start.isRunning = true := by
    rw [Dialogue.isRunning, Channel.isRunning, houtlet]
    rfl
  have hsteps : start.steps = .idle := by
    subst hreached
    exact steps_of_isIdle hrunning hidle
  have hdetector : start.channel.detector = detector := by
    rw [hreached]
    exact detector_ofStimuli detector stimuli
  obtain ⟨hslot, hqueue⟩ : start.channel.inFlight = none ∧ start.channel.queue = [] := by
    simpa [Dialogue.isIdle, Channel.isIdle] using hidle
  have hwrite : start.channel.canWrite command = true := by
    rw [canWrite, houtlet]
    exact Bool.or_true _
  let next : Dialogue := { start with channel := start.channel.grant command ticket }
  have hsubmit : start.submit command ticket = (.ok (), next) := by
    simp [Dialogue.submit, issue_of_canWrite hslot hwrite, hkind, next]
  have hopens : next.Opens command ticket written := by
    refine ⟨rfl, rfl, hqueue, ?_⟩
    simp [next, grant, houtlet]
  exact ⟨next, hsubmit, hdetector, rfl, rfl, rfl, hsteps, hopens⟩

/-- The `step` is taken, and it is the first exchange of a step-over. -/
theorem StepAnswered.exists_plays
    (hanswered : StepAnswered detector stem gap start written command first second third chunks)
    (ticket : Option Nat) :
    ∃ next, start.submit command ticket = (.ok (), next) ∧ next.channel.detector = detector ∧
      next.channel.awaited = start.channel.awaited ∧
      Dialogue.Plays (stepOver start.catalogue command first second third) written start.exited
        next := by
  obtain ⟨hreached, hidle, houtlet, hkind, hdisplay, -, -, -, -⟩ := hanswered
  obtain ⟨next, hsubmit, hdetector, hawaited, hcatalogue, hexited, hsteps, hopens⟩ :=
    exists_opens hreached hidle houtlet hkind ticket
  have hplays := hopens.plays_stepOver hsteps hkind hdisplay first second third
  rw [hcatalogue, hexited] at hplays
  exact ⟨next, hsubmit, hdetector, hawaited, hplays⟩

/-- At every moment after the `step` it is seen from outside how far the step-over has come: the replies
    that are complete have been shown or hidden, the command whose turn it is has been written, and
    nothing else is taken before the last reply is complete. From then on everything is. -/
theorem conduct_of_stepAnswered
    (hanswered : StepAnswered detector stem gap start written command first second third chunks)
    (ticket : Option Nat) :
    let course := stepOver start.catalogue command first second third
    let complete (front : List Text) := Dialogue.completeReplies stem gap
      start.channel.awaited.length (course.map (·.reply)) front.flatten.length
    ∃ next, start.submit command ticket = (.ok (), next) ∧
      (∀ front back, chunks = front ++ back → Dialogue.Conduct course written start.exited
        (complete front) (next.onOutputs front).1.flatten.flatten (next.onOutputs front).2) ∧
      complete chunks = course.length := by
  intro course complete
  obtain ⟨next, hsubmit, hdetector, hawaited, hplays⟩ := hanswered.exists_plays ticket
  obtain ⟨-, -, -, -, -, hprimary, hframes, houtput, hcuts⟩ := hanswered
  rw [← hdetector] at hprimary hframes
  rw [← hawaited] at houtput hcuts
  obtain ⟨hconduct, hcomplete⟩ := hplays.conduct hprimary hframes houtput hcuts
  rw [hawaited] at hconduct hcomplete
  exact ⟨next, hsubmit, hconduct, hcomplete⟩

/-- A `step` into `strlen`, a `finish` back to the same line and a `next` past the call. The gap of the
    first prompt arrives on its own, and the last stem in two pieces. -/
theorem conduct_of_stepAnswered_strlen :
    let start := (ofStimuli ⟨["(gdb) ".toList]⟩ []).dialogue
    let chunks := ["strlen ()\n7\tx\n(gdb)".toList, " ".toList,
      "7\tx\n(gdb) ".toList, "8\ty\n(g".toList, "db) ".toList]
    ∃ next, start.submit (.ofText "step".toList true) none = (.ok (), next) ∧
      (next.onOutputs chunks).1.flatten.flatten = "8\ty\n".toList ∧
      (next.onOutputs chunks).2.channel.outlet =
        some { written := "step\nfinish\nnext\n".toList } ∧
      (next.onOutputs chunks).2.isIdle = true := by
  intro start chunks
  have hanswered : StepAnswered ⟨["(gdb) ".toList]⟩ "(gdb)".toList " ".toList start []
      (.ofText "step".toList true) "strlen ()\n7\tx\n".toList
      "7\tx\n".toList "8\ty\n".toList chunks := by
    apply stepAnswered_of_attached <;> decide +kernel
  obtain ⟨next, hsubmit, hconduct, hcomplete⟩ := conduct_of_stepAnswered hanswered none
  obtain ⟨hstands, -, hover⟩ := hconduct chunks [] (List.append_nil _).symm
  obtain ⟨hidle, -, hshown, -⟩ := hover (Nat.le_of_eq hcomplete.symm)
  have houtlet := hstands.outlet
  rw [hcomplete] at houtlet
  refine ⟨next, hsubmit, ?_, ?_, hidle⟩
  · rw [hshown]
    decide +kernel
  · rw [houtlet]
    decide +kernel

/-- When the dialogue is idle again the last reply has been shown, and nothing else; unless the
    exchanges end unseen, and then nothing has been shown. -/
theorem shown_of_stepAnswered
    (hanswered : StepAnswered detector stem gap start written command first second third chunks)
    (ticket : Option Nat) :
    ∃ next last, start.submit command ticket = (.ok (), next) ∧
      (stepOver start.catalogue command first second third).getLast? = some last ∧
      (next.onOutputs chunks).2.isIdle = true ∧
      ∀ front back, chunks = front ++ back → (next.onOutputs front).2.isIdle = true →
        (next.onOutputs front).1.flatten.flatten =
          if endsUnseen start.catalogue first second then [] else last.reply := by
  obtain ⟨last, hlast, htext⟩ := flatMap_text_stepOver start.catalogue command first second third
  obtain ⟨next, hsubmit, hdetector, hawaited, hplays⟩ := hanswered.exists_plays ticket
  obtain ⟨-, -, -, -, -, hprimary, hframes, houtput, hcuts⟩ := hanswered
  rw [← hdetector] at hprimary hframes
  rw [← hawaited] at houtput hcuts
  obtain ⟨hconduct, hcomplete⟩ := hplays.conduct hprimary hframes houtput hcuts
  refine ⟨next, last, hsubmit, hlast, ?_, ?_⟩
  · have hstands := (hconduct chunks [] (List.append_nil _).symm).stands
    exact hstands.isIdle_iff.2 (Nat.le_of_eq hcomplete.symm)
  · intro front back hsplit hidle
    have hstands := (hconduct front back hsplit).stands
    rw [hstands.shown_eq (hstands.isIdle_iff.1 hidle), htext]

end

/-- The target ends in `exit`, which was entered from a numbered line: the notice is shown. -/
theorem shown_of_stepAnswered_exit :
    let start := (ofStimuli ⟨["(gdb) ".toList]⟩ []).dialogue
    let notice := "[Inferior 1 (process 7) exited normally]\n".toList
    let chunks := ["exit ()\n7\tx\n(gdb) ".toList, notice ++ "(gdb) ".toList]
    ∃ next, start.submit (.ofText "step".toList true) none = (.ok (), next) ∧
      (next.onOutputs chunks).2.isIdle = true ∧
      (next.onOutputs chunks).1.flatten.flatten = notice := by
  intro start notice chunks
  have hanswered : StepAnswered ⟨["(gdb) ".toList]⟩ "(gdb)".toList " ".toList start []
      (.ofText "step".toList true) "exit ()\n7\tx\n".toList notice [] chunks := by
    apply stepAnswered_of_attached <;> decide +kernel
  obtain ⟨next, last, hsubmit, hlast, hidle, hshown⟩ := shown_of_stepAnswered hanswered none
  have hreply : (stepOver start.catalogue (.ofText "step".toList true)
      "exit ()\n7\tx\n".toList notice []).getLast?.map (·.reply) = some notice := by
    decide +kernel
  have hseen : endsUnseen start.catalogue "exit ()\n7\tx\n".toList notice = false := by
    decide +kernel
  rw [hlast] at hreply
  refine ⟨next, hsubmit, hidle, ?_⟩
  rw [hshown chunks [] (List.append_nil _).symm hidle, hseen]
  exact Option.some.inj hreply

/-- The notice of the target's end is not shown if it comes with the `step` itself, behind the name of a
    function outside the catalogue, nor if it answers the `finish` while neither reply has a numbered
    line. -/
theorem not_shown_of_exit_in_unknown :
    (¬ ∀ detector stem gap start written command first second third chunks,
      StepAnswered detector stem gap start written command first second third chunks →
      ∀ ticket last, (stepOver start.catalogue command first second third).getLast? = some last →
        ((start.submit command ticket).2.onOutputs chunks).2.isIdle = true →
        ((start.submit command ticket).2.onOutputs chunks).1.flatten.flatten = last.reply) ∧
    (¬ ∀ detector stem gap start written command first second third chunks,
      StepAnswered detector stem gap start written command first second third chunks →
      Stop.announcesExit first = false →
      ∀ ticket last, (stepOver start.catalogue command first second third).getLast? = some last →
        ((start.submit command ticket).2.onOutputs chunks).2.isIdle = true →
        ((start.submit command ticket).2.onOutputs chunks).1.flatten.flatten = last.reply) := by
  constructor
  · intro hclaim
    let notice := "exit ()\n[Inferior 1 (process 7) exited normally]\n".toList
    have hanswered : StepAnswered ⟨["(gdb) ".toList]⟩ "(gdb)".toList " ".toList
        (ofStimuli ⟨["(gdb) ".toList]⟩ []).dialogue [] (.ofText "step".toList true) notice [] []
        [notice ++ "(gdb) ".toList] := by
      apply stepAnswered_of_attached <;> decide +kernel
    have hshown := hclaim _ _ _ _ _ _ _ _ _ _ hanswered none
      ⟨.ofText "step".toList true, notice, false⟩ (by decide +kernel) (by decide +kernel)
    revert hshown
    decide +kernel
  · intro hclaim
    let notice := "[Inferior 1 (process 7) exited normally]\n".toList
    have hanswered : StepAnswered ⟨["(gdb) ".toList]⟩ "(gdb)".toList " ".toList
        (ofStimuli ⟨["(gdb) ".toList]⟩ []).dialogue [] (.ofText "step".toList true)
        "exit ()\n".toList notice []
        ["exit ()\n(gdb) ".toList, notice ++ "(gdb) ".toList] := by
      apply stepAnswered_of_attached <;> decide +kernel
    have hshown := hclaim _ _ _ _ _ _ _ _ _ _ hanswered (by decide +kernel) none
      ⟨automaticFinish, notice, false⟩ (by decide +kernel) (by decide +kernel)
    revert hshown
    decide +kernel

end Chronicle
end DebugClient
