import DebugClient.Proofs.Console.Answering
import DebugClient.Session.AutoRun

/-!
What a session keeps to, whatever the debugger does. A session gives out one ticket at a time and
collects its answer before it does anything else, so between two actions nobody waits and no answer
lies about.
-/

namespace DebugClient

/-! ### Actions -/

section
variable {ε τ α β : Type}

theorem bind_apply (action : ExceptT ε (StateM τ) α) (next : α → ExceptT ε (StateM τ) β) (state : τ) :
    (action >>= next) state = match action state with
      | (.ok value, state) => next value state
      | (.error e, state) => (.error e, state) := by
  change ExceptT.bindCont next (action state).1 (action state).2 = _
  rcases action state with ⟨_ | _, _⟩ <;> rfl

theorem modify_apply (change : τ → τ) (state : τ) :
    (modify change : ExceptT ε (StateM τ) PUnit) state = (.ok PUnit.unit, change state) := rfl

/-- Whether it succeeds or fails, the action leads from states with the property to such states. -/
def Keeps (P : τ → Prop) (action : ExceptT ε (StateM τ) α) : Prop :=
  ∀ state, P state → P (action state).2

variable {P : τ → Prop} {action : ExceptT ε (StateM τ) α}

theorem Keeps.bind {next : α → ExceptT ε (StateM τ) β} (haction : Keeps P action)
    (hnext : ∀ value, Keeps P (next value)) : Keeps P (action >>= next) := by
  intro state hstate
  have hafter := haction state hstate
  rw [bind_apply]
  revert hafter
  rcases action state with ⟨_ | value, after⟩
  · exact id
  · exact hnext value after

theorem Keeps.forM {each : α → ExceptT ε (StateM τ) β} (values : List α)
    (heach : ∀ value ∈ values, Keeps P (each value)) :
    Keeps P (forIn values PUnit.unit fun value _ => do
      let _ ← each value
      pure (.yield PUnit.unit)) := by
  induction values with
  | nil => exact fun _ => id
  | cons value values ih =>
    rw [List.forIn_cons]
    refine (heach value List.mem_cons_self).bind ?_ |>.bind ?_
    · exact fun _ _ => id
    · rintro (_ | _)
      · exact fun _ => id
      · exact ih fun other hother => heach other (List.mem_cons_of_mem _ hother)

end

/-! ### Tickets -/

namespace Dialogue
open Channel

/-- How many tickets have been given out and not been collected. -/
def tickets (dialogue : Dialogue) : Nat :=
  dialogue.channel.waiter?.toList.length + dialogue.channel.answers.length

/-- The books are kept, and so many tickets are given out. -/
structure Tidy (tickets : Nat) (dialogue : Dialogue) : Prop where
  exists_kept : ∃ sent, dialogue.channel.Kept sent
  tickets_eq : dialogue.tickets = tickets

variable {dialogue : Dialogue} {count : Nat}

theorem Tidy.onOutput (htidy : dialogue.Tidy count) (chunk : Text) :
    (dialogue.onOutput chunk).2.Tidy count := by
  obtain ⟨⟨sent, hkept⟩, hcount⟩ := htidy
  refine ⟨⟨_, (advances_perform hkept (.output chunk)).2⟩, ?_⟩
  rcases slot_onOutput chunk dialogue with ⟨hslot, hanswers⟩ |
    ⟨flight, response, hslot, -, hfree, hanswers⟩
  · rw [tickets, waiter?, hslot, hanswers]
    exact hcount
  · rw [tickets, waiter?, hslot] at hcount
    rw [tickets, hfree, hanswers]
    simpa [Nat.add_comm] using hcount

theorem Tidy.onClosed (htidy : dialogue.Tidy count) : dialogue.onClosed.Tidy count := by
  obtain ⟨⟨sent, hkept⟩, hcount⟩ := htidy
  refine ⟨⟨_, (advances_perform hkept .close).2⟩, ?_⟩
  have hfree : dialogue.onClosed.channel.waiter? = none := by
    obtain ⟨answers, hterminate⟩ := exists_terminate_eq dialogue.channel
    rw [Dialogue.onClosed, hterminate]
    rfl
  have hanswers : dialogue.onClosed.channel.answers = _ := answers_terminate dialogue.channel
  rw [tickets, hfree, hanswers]
  simpa [tickets, Nat.add_comm] using hcount

/-- What has been written can be collected at any time. -/
theorem Tidy.collect (htidy : dialogue.Tidy count) (outlet : Outlet) :
    Tidy count { dialogue with channel := { dialogue.channel with outlet := some outlet } } := by
  obtain ⟨⟨sent, hkept⟩, hcount⟩ := htidy
  refine ⟨⟨outlet.written, hkept.free, ?_, ?_⟩, hcount⟩
  · intro hnone
    cases hnone
  · rintro other hother
    cases hother
    rfl

theorem Tidy.submit (htidy : dialogue.Tidy 0) (command : Command) (ticket : Nat) :
    ((dialogue.submit command (some ticket)).1 = .ok () ∧
      (dialogue.submit command (some ticket)).2.Tidy 1) ∨
    ∃ e, dialogue.submit command (some ticket) = (.error e, dialogue) := by
  obtain ⟨⟨sent, hkept⟩, hcount⟩ := htidy
  cases hresult : (dialogue.submit command (some ticket)).1 with
  | error e => exact .inr ⟨e, submit_of_error hkept hresult⟩
  | ok _ =>
    left
    refine ⟨rfl, ⟨_, (advances_perform hkept (.submit command (some ticket))).2⟩, ?_⟩
    obtain ⟨-, hanswers⟩ := Nat.add_eq_zero_iff.1 hcount
    rcases submit_cases command (some ticket) dialogue with ⟨e, carry, hsubmit, -⟩ |
      ⟨exited, -, -, hsubmit⟩
    · rw [hsubmit] at hresult
      cases hresult
    · rw [hsubmit]
      simp [tickets, waiter?, grant, hanswers]

theorem Tidy.enqueue (htidy : dialogue.Tidy 0) (command : Command) :
    (dialogue.enqueue command).2.Tidy 0 := by
  obtain ⟨⟨sent, hkept⟩, hcount⟩ := htidy
  refine ⟨⟨_, (advances_perform hkept (.enqueue command)).2⟩, ?_⟩
  rcases enqueue_cases (fun hslot => (hkept.free hslot).1) command with ⟨e, carry, henqueue, -⟩ |
    ⟨flight, -, -, henqueue⟩ | ⟨hslot, -, henqueue⟩
  · rw [henqueue]
    exact hcount
  · rw [henqueue]
    exact hcount
  · rw [henqueue]
    rw [tickets, waiter?, hslot] at hcount
    simpa [tickets, waiter?, grant] using hcount

theorem Tidy.abort (htidy : dialogue.Tidy count) (hanswers : dialogue.channel.answers = []) :
    dialogue.abort.2.Tidy 0 := by
  obtain ⟨⟨sent, hkept⟩, -⟩ := htidy
  refine ⟨⟨_, (advances_perform hkept .abort).2⟩, ?_⟩
  simp [tickets, Dialogue.abort, Channel.abort, waiter?, hanswers]

end Dialogue

namespace Session
open Dialogue Channel

variable {σ : Type} {session : Session σ} {count : Nat}

/-! ### What the debugger does -/

theorem receive_cases (session : Session σ) (bytes : List UInt8) :
    ∃ undecoded shown, session.receive bytes = { session with undecoded, shown } ∨
      ∃ text, session.receive bytes =
        { session with undecoded, shown, dialogue := (session.dialogue.onOutput text).2 } := by
  rw [receive]
  dsimp only
  split
  · exact ⟨_, session.shown, .inl rfl⟩
  · rw [emit]
    dsimp only
    split
    · exact ⟨_, _, .inr ⟨_, rfl⟩⟩
    · exact ⟨_, session.shown, .inr ⟨_, rfl⟩⟩

theorem directories_append (directory : List Text) (name : Text) (bytes : List UInt8)
    (store : FileStore) : (store.append directory name bytes).directories = store.directories := by
  rw [FileStore.append]
  cases hwrite : store.write? directory name ((store.read? directory name).getD [] ++ bytes) with
  | none => rfl
  | some written =>
    obtain ⟨path, -, hpath⟩ := Option.bind_eq_some_iff.1 hwrite
    split at hpath
    · cases hpath
    · cases hpath
      rfl

/-- All of the output is taken in first, the memory log having been written before. -/
theorem react_eq (session : Session σ) (reaction : Reaction) : ∃ files,
    files.directories = session.files.directories ∧
    let taken := (reads reaction.output).foldl receive (session.setFiles files)
    session.react reaction =
      if reaction.closes then { taken with dialogue := taken.dialogue.onClosed } else taken := by
  rw [react]
  cases session.config.memlogPath with
  | none => exact ⟨session.files, rfl, rfl⟩
  | some name =>
    cases hmemlog : reaction.memlog.isEmpty with
    | true => exact ⟨session.files, rfl, rfl⟩
    | false => exact ⟨_, directories_append session.workingDirectory name reaction.memlog _, rfl⟩

theorem nextLine?_cases {line : Text} {next : Session σ}
    (hline : session.nextLine? = some (line, next)) :
    ∃ outlet, next = { session with dialogue := { session.dialogue with
      channel := { session.dialogue.channel with outlet := some outlet } } } := by
  obtain ⟨outlet, -, hfound⟩ := Option.bind_eq_some_iff.1 hline
  split at hfound
  · cases hfound
  · cases hfound
    exact ⟨_, rfl⟩

section
variable {P : Dialogue → Prop} (houtput : ∀ dialogue chunk, P dialogue → P (dialogue.onOutput chunk).2)
  (hclose : ∀ dialogue, P dialogue → P dialogue.onClosed)
include houtput

theorem receive_induction (pieces : List (List UInt8)) (hstart : P session.dialogue) :
    P (pieces.foldl receive session).dialogue := by
  induction pieces generalizing session with
  | nil => exact hstart
  | cons piece pieces ih =>
    apply ih
    obtain ⟨undecoded, shown, hquiet | ⟨text, hreceive⟩⟩ := receive_cases session piece
    · rw [hquiet]
      exact hstart
    · rw [hreceive]
      exact houtput _ text hstart

include hclose

/-- What holds of the dialogue before the debugger reacts, and behind any output and when the debugger
    exits, holds afterwards. -/
theorem react_induction (reaction : Reaction) (hstart : P session.dialogue) :
    P (session.react reaction).dialogue := by
  obtain ⟨files, -, hreact⟩ := react_eq session reaction
  have htaken : P ((reads reaction.output).foldl receive (session.setFiles files)).dialogue :=
    receive_induction houtput _ hstart
  rw [hreact]
  split
  · exact hclose _ htaken
  · exact htaken

theorem exchange_induction (hcollect : ∀ dialogue outlet, P dialogue → P { dialogue with
      channel := { dialogue.channel with outlet := some outlet } })
    (waits : Session σ → Bool) (lines elapsed : Nat) (hstart : P session.dialogue) :
    P (exchange waits lines elapsed session).dialogue := by
  induction lines generalizing session elapsed with
  | zero => exact hstart
  | succ lines ih =>
    rw [exchange]
    cases hline : session.nextLine? with
    | none => exact hstart
    | some found =>
      obtain ⟨line, next⟩ := found
      obtain ⟨outlet, rfl⟩ := nextLine?_cases hline
      have hreacted (peer : σ) (reaction : Reaction) : P (react reaction { session with
          peer, spent := 0, dialogue := { session.dialogue with
            channel := { session.dialogue.channel with outlet := some outlet } } }).dialogue :=
        react_induction houtput hclose reaction (hcollect _ outlet hstart)
      dsimp only
      split
      · split
        · exact ih _ (hreacted _ _)
        · exact hstart
      · split
        · exact hstart
        · exact ih _ (hreacted _ _)

end

theorem tidy_settle (waits : Session σ → Bool) (htidy : session.dialogue.Tidy count) :
    (session.settle waits).dialogue.Tidy count :=
  exchange_induction (fun _ chunk htidy => htidy.onOutput chunk) (fun _ htidy => htidy.onClosed)
    (fun _ outlet htidy => htidy.collect outlet) waits _ _ htidy

/-! ### What stays as it is -/

/-- What a session was started with: all that no action changes. Files come and go, directories do
    not. -/
def setting (session : Session σ) : Machine σ × Config × List Text × List (List Text) :=
  ({ session.machine with files := {} }, session.config, session.workingDirectory,
    session.files.directories)

theorem setting_receive (session : Session σ) (bytes : List UInt8) :
    (session.receive bytes).setting = session.setting := by
  obtain ⟨undecoded, shown, hquiet | ⟨text, hreceive⟩⟩ := receive_cases session bytes
  · rw [hquiet]
    rfl
  · rw [hreceive]
    rfl

theorem setting_foldl_receive (pieces : List (List UInt8)) (session : Session σ) :
    (pieces.foldl receive session).setting = session.setting := by
  induction pieces generalizing session with
  | nil => rfl
  | cons piece pieces ih => exact (ih _).trans (setting_receive session piece)

theorem setting_react (session : Session σ) (reaction : Reaction) :
    (session.react reaction).setting = session.setting := by
  obtain ⟨files, hdirectories, hreact⟩ := react_eq session reaction
  have hfiles : (session.setFiles files).setting = session.setting := by
    rw [setting, setting, ← hdirectories]
    rfl
  have htaken := (setting_foldl_receive (reads reaction.output) (session.setFiles files)).trans hfiles
  rw [hreact]
  split
  · exact htaken
  · exact htaken

theorem setting_exchange (waits : Session σ → Bool) (lines elapsed : Nat) (session : Session σ) :
    (exchange waits lines elapsed session).setting = session.setting := by
  induction lines generalizing session elapsed with
  | zero => rfl
  | succ lines ih =>
    rw [exchange]
    cases hline : session.nextLine? with
    | none => rfl
    | some found =>
      obtain ⟨line, next⟩ := found
      obtain ⟨outlet, rfl⟩ := nextLine?_cases hline
      dsimp only
      split
      · split
        · exact (ih _ _).trans (setting_react _ _)
        · rfl
      · split
        · rfl
        · exact (ih _ _).trans (setting_react _ _)

/-! ### One command -/

theorem issueCommand_eq (command : Command) (session : Session σ) :
    issueCommand command session = match session.dialogue.submit command (some 0) with
      | (.ok (), dialogue) => awaitAnswer ({ session with dialogue }.settle awaitsAnswer)
      | (.error e, dialogue) => (.error e, { session with dialogue }) := by
  rw [issueCommand, bind_apply, submit]
  dsimp only
  rcases session.dialogue.submit command (some 0) with ⟨_ | _, _⟩ <;> rfl

/-- An answer that has been given can be taken away. -/
theorem tidy_takeAnswer (htidy : session.dialogue.Tidy count)
    (hfree : session.dialogue.channel.waiter? = none) : session.takeAnswer.dialogue.Tidy 0 := by
  obtain ⟨⟨sent, hkept⟩, -⟩ := htidy
  have hfree' : session.takeAnswer.dialogue.channel.waiter? = none := hfree
  refine ⟨⟨sent, hkept.free, hkept.detached, hkept.written⟩, ?_⟩
  rw [tickets, hfree']
  rfl

/-- Whoever gives up does so at the limit, or is told that the debugger has been killed. -/
theorem timeOut_cases {α : Type} (session : Session σ) :
    (∃ limit, (timeOut : Action σ α) session =
      (.error (.timeout limit), { session with dialogue := session.dialogue.abort.2 })) ∨
    (timeOut : Action σ α) session = (.error .sessionTerminated, session.kill.takeAnswer) := by
  rw [timeOut]
  cases session.config.timeout? with
  | some limit => exact .inl ⟨limit, rfl⟩
  | none => exact .inr rfl

theorem tidy_timeOut {α : Type} (htidy : session.dialogue.Tidy count)
    (hanswers : session.dialogue.channel.answers = []) :
    ((timeOut : Action σ α) session).2.dialogue.Tidy 0 := by
  rcases timeOut_cases (α := α) session with ⟨limit, hgiven⟩ | hkilled
  · rw [hgiven]
    exact htidy.abort hanswers
  · rw [hkilled]
    refine tidy_takeAnswer htidy.onClosed ?_
    obtain ⟨answers, hterminate⟩ := exists_terminate_eq session.dialogue.channel
    rw [kill, Dialogue.onClosed, hterminate]
    rfl

/-- Only the dialogue is changed by giving up. -/
theorem timeOut_eq {α : Type} (session : Session σ) : ((timeOut : Action σ α) session).2 =
    { session with dialogue := ((timeOut : Action σ α) session).2.dialogue } := by
  rcases timeOut_cases (α := α) session with ⟨limit, hgiven⟩ | hkilled
  · rw [hgiven]
  · rw [hkilled]
    rfl

theorem awaitAnswer_eq (session : Session σ) :
    (awaitAnswer session).2 = { session with dialogue := (awaitAnswer session).2.dialogue } := by
  rw [awaitAnswer]
  split
  · rfl
  · rfl
  · exact timeOut_eq session

/-- Of the one ticket that has been given out the answer is taken, or the command is given up. The
    debugger is not gone then if anybody still waits. -/
theorem awaitAnswer_cases (htidy : session.dialogue.Tidy 1) :
    ((∃ response, (awaitAnswer session).1 = .ok response) ∨
      (awaitAnswer session).1 = .error .sessionTerminated ∨
      (session.dialogue.channel.waiter?.isSome ∧
        (awaitAnswer session).2.dialogue.isRunning = session.dialogue.isRunning)) ∧
    (awaitAnswer session).2.dialogue.Tidy 0 := by
  have hcount := htidy.tickets_eq
  cases hanswers : session.dialogue.channel.answers with
  | nil =>
    rw [tickets, hanswers] at hcount
    have hwaits : session.dialogue.channel.waiter?.isSome := by
      cases hwaiter : session.dialogue.channel.waiter? with
      | none =>
        rw [hwaiter] at hcount
        cases hcount
      | some _ => rfl
    have hgiven : awaitAnswer session = timeOut session := by
      simp only [awaitAnswer, hanswers]
    rw [hgiven]
    refine ⟨?_, tidy_timeOut htidy hanswers⟩
    rcases timeOut_cases (α := Response) session with ⟨limit, hlimit⟩ | hkilled
    · rw [hlimit]
      exact .inr (.inr ⟨hwaits, rfl⟩)
    · rw [hkilled]
      exact .inr (.inl rfl)
  | cons answer others =>
    obtain ⟨ticket, answer⟩ := answer
    rw [tickets, hanswers] at hcount
    have hfree : session.dialogue.channel.waiter? = none := by
      cases hwaiter : session.dialogue.channel.waiter? with
      | none => rfl
      | some _ =>
        rw [hwaiter] at hcount
        simp at hcount
    have htaken := tidy_takeAnswer htidy hfree
    cases answer with
    | completed response =>
      have hgiven : awaitAnswer session = (.ok response, session.takeAnswer) := by
        simp only [awaitAnswer, hanswers]
      rw [hgiven]
      exact ⟨.inl ⟨response, rfl⟩, htaken⟩
    | terminated =>
      have hgiven : awaitAnswer session = (.error .sessionTerminated, session.takeAnswer) := by
        simp only [awaitAnswer, hanswers]
      rw [hgiven]
      exact ⟨.inr (.inl rfl), htaken⟩

/-- A command leaves the session as it found it when it is refused; otherwise the debugger answers and
    the answer is collected. -/
theorem issueCommand_cases (command : Command) (htidy : session.dialogue.Tidy 0) :
    (∃ e, issueCommand command session = (.error e, session)) ∨
    ∃ started, (session.dialogue.submit command (some 0)) = (.ok (), started) ∧ started.Tidy 1 ∧
      issueCommand command session =
        awaitAnswer ({ session with dialogue := started }.settle awaitsAnswer) := by
  rw [issueCommand_eq]
  rcases htidy.submit command 0 with ⟨hok, hstarted⟩ | ⟨e, hrefused⟩
  · right
    have hsubmit : session.dialogue.submit command (some 0) =
        (.ok (), (session.dialogue.submit command (some 0)).2) := Prod.ext hok rfl
    refine ⟨_, hsubmit, hstarted, ?_⟩
    rw [hsubmit]
  · left
    rw [hrefused]
    exact ⟨e, rfl⟩

theorem keeps_issueCommand (command : Command) :
    Keeps (fun session : Session σ => session.dialogue.Tidy 0) (issueCommand command) := by
  intro session htidy
  rcases issueCommand_cases command htidy with ⟨e, hrefused⟩ | ⟨started, -, hstarted, hissue⟩
  · rw [hrefused]
    exact htidy
  · have hsettled : ({ session with dialogue := started }.settle awaitsAnswer).dialogue.Tidy 1 :=
      tidy_settle _ hstarted
    rw [hissue]
    exact (awaitAnswer_cases hsettled).2

theorem setting_issueCommand (command : Command) (htidy : session.dialogue.Tidy 0) :
    (issueCommand command session).2.setting = session.setting := by
  rcases issueCommand_cases command htidy with ⟨e, hrefused⟩ | ⟨started, -, hstarted, hissue⟩
  · rw [hrefused]
  · rw [hissue, awaitAnswer_eq]
    exact setting_exchange _ _ _ _

theorem issueCommand_of_not_isRunning (command : Command) (htidy : session.dialogue.Tidy 0)
    (hgone : session.dialogue.isRunning = false) :
    issueCommand command session = (.error .notRunning, session) := by
  obtain ⟨⟨sent, hkept⟩, -⟩ := htidy
  have houtlet : session.dialogue.channel.outlet = none := by
    simpa [Dialogue.isRunning, Channel.isRunning] using hgone
  have hissue : session.dialogue.channel.issue command (some 0) =
      (.error .notRunning, session.dialogue.channel) := by
    rw [Channel.issue, hkept.detached houtlet, houtlet]
  rw [issueCommand_eq, Dialogue.submit, hissue]

/-- If the debugger exits while a command is carried out, the command has been answered by then, or the
    answer is that the session has been terminated. -/
theorem issueCommand_of_closes {command : Command} (htidy : session.dialogue.Tidy 0)
    (hrunning : session.dialogue.isRunning = true)
    (hcloses : (issueCommand command session).2.dialogue.isRunning = false) :
    (∃ response, (issueCommand command session).1 = .ok response) ∨
      (issueCommand command session).1 = .error .sessionTerminated := by
  rcases issueCommand_cases command htidy with ⟨e, hrefused⟩ | ⟨started, -, hstarted, hissue⟩
  · rw [hrefused, hrunning] at hcloses
    cases hcloses
  · have hsettled : ({ session with dialogue := started }.settle awaitsAnswer).dialogue.Tidy 1 :=
      tidy_settle _ hstarted
    obtain ⟨hanswered | hended | ⟨hwaits, hsame⟩, -⟩ := awaitAnswer_cases hsettled
    · rw [hissue]
      exact .inl hanswered
    · rw [hissue]
      exact .inr hended
    · -- Whoever waits has a command in flight, and then there is a debugger.
      rw [hissue, hsame] at hcloses
      obtain ⟨⟨sent, hkept⟩, -⟩ := hsettled
      have houtlet :
          ({ session with dialogue := started }.settle awaitsAnswer).dialogue.channel.outlet = none := by
        simpa [Dialogue.isRunning, Channel.isRunning] using hcloses
      rw [waiter?, hkept.detached houtlet] at hwaits
      cases hwaits

/-! ### Waiting -/

/-- While one waits for the dialogue to be idle the debugger answers; then it is idle, or the debugger
    has exited, or one gives up. -/
theorem waitIdle_cases (session : Session σ) :
    let waited := session.settle fun session => !session.dialogue.isIdle
    (waited.dialogue.isRunning = false ∧ waitIdle session = (.error .sessionTerminated, waited)) ∨
    (waited.dialogue.isRunning = true ∧
      (waitIdle session = (.ok (), waited) ∨ waitIdle session = timeOut waited)) := by
  intro waited
  have hwait : waitIdle session = if !waited.dialogue.isRunning then (.error .sessionTerminated, waited)
      else if waited.dialogue.isIdle then (.ok (), waited) else timeOut waited := rfl
  rw [hwait]
  cases waited.dialogue.isRunning with
  | false => exact .inl ⟨rfl, rfl⟩
  | true =>
    cases waited.dialogue.isIdle with
    | true => exact .inr ⟨rfl, .inl rfl⟩
    | false => exact .inr ⟨rfl, .inr rfl⟩

/-- If the debugger exits while one waits, that ends the waiting. -/
theorem waitIdle_of_closes (hgone : (waitIdle session).2.dialogue.isRunning = false) :
    waitIdle session = (.error .sessionTerminated, (waitIdle session).2) := by
  rcases waitIdle_cases session with ⟨-, hwait⟩ | ⟨hrunning, hwait | hwait⟩
  · rw [hwait]
  · rw [hwait, hrunning] at hgone
    cases hgone
  · rw [hwait] at hgone ⊢
    rcases timeOut_cases (α := Unit) (session.settle fun session => !session.dialogue.isIdle) with
      ⟨limit, hlimit⟩ | hkilled
    · -- Giving up at the limit leaves the debugger as it is.
      rw [hlimit] at hgone
      have hstays : (session.settle fun session => !session.dialogue.isIdle).dialogue.isRunning =
          false := hgone
      rw [hrunning] at hstays
      cases hstays
    · rw [hkilled]

theorem keeps_waitIdle : Keeps (fun session : Session σ => session.dialogue.Tidy 0) waitIdle := by
  intro session htidy
  have hwaited := tidy_settle (fun session => !session.dialogue.isIdle) htidy
  obtain ⟨-, hanswers⟩ := Nat.add_eq_zero_iff.1 hwaited.tickets_eq
  rcases waitIdle_cases session with ⟨-, hwait⟩ | ⟨-, hwait | hwait⟩
  · rw [hwait]
    exact hwaited
  · rw [hwait]
    exact hwaited
  · rw [hwait]
    exact tidy_timeOut hwaited (List.eq_nil_of_length_eq_zero hanswers)

theorem setting_waitIdle (session : Session σ) : (waitIdle session).2.setting = session.setting := by
  rcases waitIdle_cases session with ⟨-, hwait⟩ | ⟨-, hwait | hwait⟩
  · rw [hwait]
    exact setting_exchange _ _ _ _
  · rw [hwait]
    exact setting_exchange _ _ _ _
  · rw [hwait, timeOut_eq]
    exact setting_exchange _ _ _ _

/-! ### Whatever is done in a session -/

/-- The rest of what a session begins with, once the first prompt has been waited for. -/
theorem keeps_startupCommands : Keeps (fun session : Session σ => session.dialogue.Tidy 0) (do
    for text in (← get).config.startupCommands do
      let _ ← issue text false) := by
  apply Keeps.bind
  · exact fun _ => id
  · intro current
    exact (Keeps.forM _ fun text _ => keeps_issueCommand (.ofText text false)).bind fun _ _ => id

/-- A session begins with the first prompt, and goes on with its first commands. -/
theorem begin_eq {started : Dialogue}
    (hsubmit : session.dialogue.submit .startup (some 0) = (.ok (), started)) :
    begin session = (do
        let _ ← awaitAnswer
        for text in (← get).config.startupCommands do
          let _ ← issue text false : Action σ Unit) { session with dialogue := started }.greeted := by
  rw [begin, bind_apply, submit, hsubmit]
  dsimp only
  rw [bind_apply, modify_apply]

theorem tidy_greeted (htidy : session.dialogue.Tidy count) : session.greeted.dialogue.Tidy count := by
  rw [greeted]
  dsimp only
  split
  · exact react_induction (fun _ chunk htidy => htidy.onOutput chunk) (fun _ htidy => htidy.onClosed) _
      htidy
  · exact htidy

theorem keeps_begin : Keeps (fun session : Session σ => session.dialogue.Tidy 0) begin := by
  intro session htidy
  rcases htidy.submit .startup 0 with ⟨hok, hstarted⟩ | ⟨e, hrefused⟩
  · have hsubmit : session.dialogue.submit .startup (some 0) =
        (.ok (), (session.dialogue.submit .startup (some 0)).2) := Prod.ext hok rfl
    rw [begin_eq hsubmit, bind_apply]
    let started : Session σ :=
      { session with dialogue := (session.dialogue.submit .startup (some 0)).2 }
    have hgreeted : started.greeted.dialogue.Tidy 1 := tidy_greeted hstarted
    obtain ⟨-, hcollected⟩ := awaitAnswer_cases hgreeted
    revert hcollected
    rcases awaitAnswer started.greeted with ⟨e | response, collected⟩
    · exact id
    · exact keeps_startupCommands collected
  · rw [begin, bind_apply, submit, hrefused]
    exact htidy

/-- The sessions that can come about: started, and then used in any way. -/
inductive Reached : Session σ → Prop
  | start {machine : Machine σ} {executable directory : Text} {config : Config} {session : Session σ}
    (hstart : start machine executable directory config = .ok session) : Reached session
  | listen {session : Session σ} (hreached : Reached session) :
    Reached { session with listening := true }
  | issue {session : Session σ} (hreached : Reached session) (text : Text) (display : Bool) :
    Reached (issue text display session).2
  | enqueue {session : Session σ} (hreached : Reached session) (text : Text) (display : Bool) :
    Reached (enqueue text display session).2
  | waitIdle {session : Session σ} (hreached : Reached session) : Reached (waitIdle session).2
  | kill {session : Session σ} (hreached : Reached session) : Reached session.kill
  /-- Something is noted of the target, or what has been shown is taken away. -/
  | note {session : Session σ} (hreached : Reached session) (program : ProgramState)
    (shown : Array Text) : Reached { session with program, shown }
  | files {session : Session σ} (hreached : Reached session) (files : FileStore) :
    Reached (session.setFiles files)

/-- A session that could be started has gone through its beginning. -/
theorem begin_of_start {machine : Machine σ} {executable directory : Text} {config : Config}
    (hstart : start machine executable directory config = .ok session) :
    ∃ workingDirectory peer,
      machine.launch? config.debugger (config.debuggerArguments ++ [executable]) = some peer ∧
      begin { machine, config, peer, workingDirectory
              dialogue := .attached (.ofSentinels config.sentinels) } = (.ok (), session) := by
  rw [start] at hstart
  dsimp only at hstart
  split at hstart
  · cases hstart
  · next workingDirectory peer hspawned =>
    obtain ⟨found, -, hlaunched⟩ := Option.bind_eq_some_iff.1 hspawned
    obtain ⟨launched, hlaunch, hpair⟩ := Option.bind_eq_some_iff.1 hlaunched
    cases hpair
    refine ⟨workingDirectory, peer, hlaunch, ?_⟩
    split at hstart
    · next hbegin =>
      cases hstart
      exact hbegin
    · cases hstart

theorem Reached.tidy (hreached : session.Reached) : session.dialogue.Tidy 0 := by
  induction hreached with
  | @start machine executable directory config session hstart =>
    obtain ⟨workingDirectory, peer, -, hbegin⟩ := begin_of_start hstart
    have hattached := (Dialogue.Reached.attached (.ofSentinels config.sentinels)).exists_kept
    have hended := keeps_begin { machine, config, peer, workingDirectory
                                 dialogue := .attached (.ofSentinels config.sentinels) }
      ⟨hattached, rfl⟩
    rw [hbegin] at hended
    exact hended
  | listen _ ih => exact ih
  | issue _ text display ih => exact keeps_issueCommand _ _ ih
  | enqueue _ text display ih => exact tidy_settle _ (ih.enqueue _)
  | waitIdle _ ih => exact keeps_waitIdle _ ih
  | kill _ ih => exact ih.onClosed
  | note _ program shown ih => exact ih
  | files _ files ih => exact ih

end Session
end DebugClient
