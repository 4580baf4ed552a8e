import DebugClient.Proofs.Console.Conversation
import DebugClient.Proofs.Session.Reachable
import DebugClient.Proofs.Text.Decoding
import DebugClient.Proofs.Text.Runs

/-!
Debuggers that answer in time. With a debugger that puts out one well framed reply for each line it
receives, every command of one line given at rest is answered. Behind any but a `step` the session is at
rest again; behind a `step` it is once one has waited for what may follow in the background. All of that
has to come within one limit, as it is waited for at one go.
-/

namespace DebugClient

/-- The reaction is one well framed reply, ended by one of the prompts, and it comes in time. -/
structure Reaction.Replies (config : Config) (body : Text) (reaction : Reaction) : Prop where
  stays : reaction.closes = false
  output : ∃ stem gap, (PromptDetector.ofSentinels config.sentinels).Installed stem gap ∧
    (PromptDetector.ofSentinels config.sentinels).Frames stem body ∧
    reaction.output = Utf8.encode (body ++ stem ++ gap)
  inTime : config.inTime reaction.duration = true

theorem Config.inTime_of_le {config : Config} {elapsed later : Nat} (hle : elapsed ≤ later)
    (htime : config.inTime later = true) : config.inTime elapsed = true := by
  rw [Config.inTime] at htime ⊢
  cases hlimit : config.limit? with
  | none => rfl
  | some limit =>
    rw [hlimit] at htime
    have hlater : later < limit := of_decide_eq_true htime
    exact decide_eq_true (Nat.lt_of_le_of_lt hle hlater)

namespace Debugger
variable {σ : Type}

/-- The states that a debugger gets into behind its banner. -/
inductive Gets (initial : σ) (debugger : Debugger σ) : σ → Prop
  | greeted : Gets initial debugger (debugger.greet initial).2
  | answered {peer : σ} {line : Text} (hpeer : Gets initial debugger peer) (hline : '\n' ∉ line) :
    Gets initial debugger (debugger.answer line peer).2

/-- Started in the initial state, the debugger puts out a banner, and then one reply for each line, each
    of them in time. -/
structure Responsive (config : Config) (body : Text → σ → Text) (initial : σ)
    (debugger : Debugger σ) : Prop where
  greets : ∃ banner, (debugger.greet initial).1.Replies config banner
  answers : ∀ peer line, debugger.Gets initial peer → '\n' ∉ line →
    (debugger.answer line peer).1.Replies config (body line peer)

/-- A `finish` behind a `step` into a function, and a `next` behind that, are answered in time together.
    Such a `next` is given only if the `finish` has led back to the line that the `step` was answered
    with. -/
def SkipsInTime (config : Config) (body : Text → σ → Text) (initial : σ) (debugger : Debugger σ) :
    Prop :=
  ∀ peer, debugger.Gets initial peer →
    let stepped := (debugger.answer "step".toList peer).2
    let finished := debugger.answer "finish".toList stepped
    Stop.callSites (body "step".toList peer) ≠ [] →
    Stop.stoppedLine (body "finish".toList stepped) = Stop.stoppedLine (body "step".toList peer) →
    config.inTime (finished.1.duration + (debugger.answer "next".toList finished.2).1.duration) = true

end Debugger

/-! ### The kinds of commands -/

section
open CommandKind Text

theorem words_of_verb {verb : Text} (hverb : verb.all (!isBlank ·)) (hnonempty : verb ≠ [])
    (rest : Text) : words (verb ++ ' ' :: rest) = verb :: words rest := by
  have hfirm : ∀ c ∈ verb, ¬ isBlank c := by simpa using hverb
  rw [words_append_cons rfl, words_of_forall_not hnonempty hfirm, List.singleton_append]

/-- What a command is depends on its first word, unless that is `info`. -/
theorem classify_of_verb (verb : Text) (hverb : verb.all (!isBlank ·)) (hnonempty : verb ≠ [])
    (hinfo : ¬ (verb = "i".toList ∨ verb = "info".toList)) (rest : Text) :
    classify (verb ++ ' ' :: rest) = (verbs.lookup verb).getD other := by
  rw [classify, words_of_verb hverb hnonempty]
  dsimp only
  rw [if_neg hinfo]

/-- A verb and what stands behind it are one line, if that is. -/
theorem isLine_of_verb (verb : Text) (hverb : verb.all (!isBlank ·)) (hnonempty : verb ≠ [])
    (hinfo : ¬ (verb = "i".toList ∨ verb = "info".toList))
    (hkind : (verbs.lookup verb).getD other ≠ .startup ∧ (verbs.lookup verb).getD other ≠ .step)
    {rest : Text} (hrest : '\n' ∉ rest) :
    (Command.ofText (verb ++ ' ' :: rest) false).IsLine ∧
      (Command.ofText (verb ++ ' ' :: rest) false).kind ≠ .step := by
  have hclass : (Command.ofText (verb ++ ' ' :: rest) false).kind = _ :=
    classify_of_verb verb hverb hnonempty hinfo rest
  have hbreak : '\n' ∉ verb := fun hmem => absurd (List.all_eq_true.1 hverb _ hmem) (by decide)
  have hline : '\n' ∉ verb ++ ' ' :: rest := by simp [hbreak, hrest]
  rw [← hclass] at hkind
  exact ⟨⟨hkind.1, hline⟩, hkind.2⟩

/-- The commands that a session begins with are lines, if the prompt is, and none of them is a `step`. -/
theorem isLine_startupCommands {config : Config} (hprompt : '\n' ∉ config.prompt) :
    ∀ text ∈ config.startupCommands,
      (Command.ofText text false).IsLine ∧ (Command.ofText text false).kind ≠ .step := by
  have hset : (Command.ofText ("set prompt ".toList ++ config.prompt) false).IsLine ∧
      (Command.ofText ("set prompt ".toList ++ config.prompt) false).kind ≠ .step :=
    isLine_of_verb "set".toList (by decide) (by decide) (by decide) (by decide)
      (show '\n' ∉ "prompt ".toList ++ config.prompt by simp [hprompt])
  rw [Config.startupCommands]
  simp only [List.forall_mem_cons]
  exact ⟨⟨⟨by decide, by decide⟩, by decide⟩, ⟨⟨by decide, by decide⟩, by decide⟩, hset, by simp⟩

end

namespace Session
open Channel Dialogue StepState Utf8

variable {σ : Type} {session : Session σ} {config : Config} {body text : Text} {reaction : Reaction}
  {flight : InFlight}

/-! ### Taking in a reply -/

theorem flatten_reads (bytes : List UInt8) : (reads bytes).flatten = bytes := by
  induction bytes using reads.induct with
  | case1 => rw [reads, List.flatten_nil]
  | case2 b rest ih => rw [reads, List.flatten_cons, ih, List.take_append_drop]

theorem eq_nil_of_isPart_encode (hpart : IsPart (encode text)) : text = [] := by
  have hwhole := decodeArrived_encode text (.inl rfl)
  have hnothing := decodeArrived_encode [] hpart
  rw [List.append_nil] at hwhole
  rw [show encode [] ++ encode text = encode text from rfl, hwhole] at hnothing
  exact congrArg Prod.fst hnothing

/-- However the bytes of a text are cut, the text is taken in, and nothing is left of it. -/
theorem foldl_receive_of_encode {pieces : List (List UInt8)} (hpart : IsPart session.undecoded)
    (hbytes : session.undecoded ++ pieces.flatten = encode text) :
    ∃ texts shown, texts.flatten = text ∧ pieces.foldl receive session =
      { session with undecoded := [], shown, dialogue := (session.dialogue.onOutputs texts).2 } := by
  induction pieces generalizing session text with
  | nil =>
    rw [List.flatten_nil, List.append_nil] at hbytes
    rw [hbytes] at hpart
    obtain rfl := eq_nil_of_isPart_encode hpart
    have hnothing : session.undecoded = [] := hbytes
    refine ⟨[], session.shown, rfl, ?_⟩
    rw [← hnothing]
    rfl
  | cons piece pieces ih =>
    rw [List.flatten_cons, ← List.append_assoc] at hbytes
    obtain ⟨front, back, part, rfl, hfront, hpart', -⟩ := exists_part_of_prefix ⟨_, hbytes⟩
    rw [hfront, encode_append, List.append_assoc] at hbytes
    have hback := List.append_cancel_left hbytes
    have hdecoded := decodeArrived_encode front hpart'
    rw [← hfront] at hdecoded
    rw [List.foldl_cons, receive, hdecoded]
    dsimp only
    cases front with
    | nil =>
      obtain ⟨texts, shown, htexts, hlast⟩ := @ih { session with undecoded := part } _ hpart' hback
      exact ⟨texts, shown, htexts, hlast⟩
    | cons c front =>
      obtain ⟨shown, hshown⟩ : ∃ shown, emit (session.dialogue.onOutput (c :: front)).1
          { session with undecoded := part, dialogue := (session.dialogue.onOutput (c :: front)).2 } =
          { session with undecoded := part, shown
                         dialogue := (session.dialogue.onOutput (c :: front)).2 } := by
        rw [emit]
        split
        · exact ⟨_, rfl⟩
        · exact ⟨session.shown, rfl⟩
      obtain ⟨texts, shown', htexts, hlast⟩ := @ih { session with
        undecoded := part, shown, dialogue := (session.dialogue.onOutput (c :: front)).2 } _ hpart' hback
      refine ⟨(c :: front) :: texts, shown', by rw [List.flatten_cons, htexts], ?_⟩
      rw [if_neg (by simp), hshown, hlast]
      rfl

/-- A reply to the command in flight is taken in as a whole; apart from the dialogue only files and what
    is shown change. -/
theorem react_of_replies (hready : session.dialogue.Ready (.ofSentinels config.sentinels))
    (hslot : session.dialogue.channel.inFlight = some flight) (hundecoded : session.undecoded = [])
    (hreplies : reaction.Replies config body) : ∃ files shown,
      session.react reaction =
        { session.setFiles files with shown, dialogue := session.dialogue.answered flight body } := by
  obtain ⟨hstays, ⟨stem, gap, hinstalled, hframes, houtput⟩, -⟩ := hreplies
  obtain ⟨files, -, hreact⟩ := react_eq session reaction
  have hpart : IsPart (session.setFiles files).undecoded := .inl hundecoded
  have hbytes : (session.setFiles files).undecoded ++ (reads reaction.output).flatten =
      encode (body ++ stem ++ gap) := by
    rw [flatten_reads, houtput]
    exact congrArg (· ++ _) hundecoded
  obtain ⟨texts, shown, htexts, htaken⟩ := foldl_receive_of_encode hpart hbytes
  have hanswered : (session.dialogue.onOutputs texts).2 = session.dialogue.answered flight body :=
    onOutputs_of_reply hinstalled hframes hready.detector_eq hready.outlet rfl hslot hready.carry
      hready.awaited htexts
  refine ⟨files, shown, ?_⟩
  rw [hreact, hstays, if_neg Bool.false_ne_true, htaken, ← hundecoded, ← hanswered]
  rfl

/-! ### How many lines are still to come -/

section
variable {detector : PromptDetector} {dialogue : Dialogue}

theorem outstandingLines_of_conversing (hconversing : dialogue.Conversing detector) :
    outstandingLines dialogue = (dialogue.channel.inFlight.elim 0 fun current =>
        if current.command.kind = .step then 3 else 1) +
      (if dialogue.steps = .idle then 0 else 1) := by
  rw [outstandingLines, hconversing.outlet, hconversing.queue]
  cases hslot : dialogue.channel.inFlight with
  | none =>
    rw [hconversing.onItsWay_eq_nil hslot]
    rfl
  | some flight =>
    have hcount : (flight.command.text ++ ['\n']).count '\n' = 1 := by
      rw [List.count_append, List.count_eq_zero_of_not_mem (hconversing.isLine flight hslot).text]
      rfl
    rw [hconversing.onItsWay_eq_line hslot]
    simp only [Option.elim_some, hcount, List.foldl_nil]
    split <;> omega

/-- What follows from an answer was allowed for: a `finish` and the `next` behind it when the command
    was a `step`, and that `next` when it was the `finish`. -/
theorem outstandingLines_replied (hconversing : dialogue.Conversing detector)
    (hslot : dialogue.channel.inFlight = some flight) (body : Text) :
    outstandingLines (dialogue.replied flight body) < outstandingLines dialogue := by
  have hfinish : automaticFinish.kind ≠ .step := by decide
  have hnext : automaticNext.kind ≠ .step := by decide
  rw [outstandingLines_of_conversing hconversing,
    outstandingLines_of_conversing (hconversing.replied flight body), hslot]
  rcases hconversing.replied_cases flight body with ⟨hfree, hidle⟩ | ⟨hfree, hstep, -, hidle, hbusy⟩ |
    ⟨hfree, hidle, hbusy⟩
  · rw [hfree, hidle]
    simp only [Option.elim_some, Option.elim_none, if_true]
    split <;> omega
  · rw [hfree, hidle, hbusy]
    simp [hstep, hfinish]
  · rw [hfree, hidle, hbusy]
    simp only [Option.elim_some, if_neg hnext, if_true, reduceCtorEq, if_false]
    split <;> omega

end

/-! ### Until everything is answered -/

/-- The session is with this debugger, which has been started in the initial state. All of its output has
    been decoded, it has not begun with the next line, and it is being conversed with. -/
structure Attends (debugger : Debugger σ) (initial : σ) (config : Config) (session : Session σ) :
    Prop where
  debugger_eq : session.machine.debugger = debugger
  config_eq : session.config = config
  gets : debugger.Gets initial session.peer
  spent : session.spent = 0
  undecoded : session.undecoded = []
  conversing : session.dialogue.Conversing (.ofSentinels config.sentinels)

/-- Nobody waits for an answer, and none lies about. -/
structure Unattended (debugger : Debugger σ) (initial : σ) (config : Config) (session : Session σ) :
    Prop extends session.Attends debugger initial config where
  answers : session.dialogue.HasAnswers []

/-- Nothing is in flight either. -/
structure Rests (debugger : Debugger σ) (initial : σ) (config : Config) (session : Session σ) :
    Prop extends session.Unattended debugger initial config where
  inFlight : session.dialogue.channel.inFlight = none

/-- A command in flight has followed from a `step` of itself, and if so much has been waited for the
    skip, what is still to come of it comes in time. -/
def SkipEnds (debugger : Debugger σ) (config : Config) (body : Text → σ → Text) (elapsed : Nat)
    (session : Session σ) : Prop :=
  ∀ flight, session.dialogue.channel.inFlight = some flight →
    let finished := debugger.answer flight.command.text session.peer
    flight.command.kind ≠ .step ∧ config.inTime (elapsed + finished.1.duration) = true ∧
    (session.dialogue.steps =
        .awaitingSkipDecision (Stop.stoppedLine (body flight.command.text session.peer)) →
      config.inTime (elapsed + finished.1.duration +
        (debugger.answer "next".toList finished.2).1.duration) = true)

theorem SkipEnds.of_le {debugger : Debugger σ} {body : Text → σ → Text} {elapsed later : Nat}
    (hle : elapsed ≤ later) (hends : session.SkipEnds debugger config body later) :
    session.SkipEnds debugger config body elapsed := by
  intro flight hslot
  obtain ⟨hkind, htime, hnext⟩ := hends flight hslot
  exact ⟨hkind, Config.inTime_of_le (by omega) htime,
    fun hsteps => Config.inTime_of_le (by omega) (hnext hsteps)⟩

theorem skipEnds_of_free {debugger : Debugger σ} {body : Text → σ → Text} {elapsed : Nat}
    (hslot : session.dialogue.channel.inFlight = none) :
    session.SkipEnds debugger config body elapsed := by
  intro flight hflight
  rw [hslot] at hflight
  cases hflight

/-- The first line on its way is that of the command in flight. -/
theorem nextLine?_of_inFlight
    (hconversing : session.dialogue.Conversing (.ofSentinels config.sentinels))
    (hslot : session.dialogue.channel.inFlight = some flight) : session.nextLine? =
      some (flight.command.text, { session with dialogue := session.dialogue.collected }) := by
  have hline := (hconversing.isLine flight hslot).text
  obtain ⟨htake, hdrop⟩ := Text.whiles_append_cons hline []
  rw [nextLine?, hconversing.outlet, Option.bind_some]
  dsimp only
  rw [hconversing.onItsWay_eq_line hslot, hdrop]
  dsimp only
  rw [htake]
  rfl

/-- When nothing is on its way to the debugger, nothing happens. -/
theorem exchange_of_nothing (hnothing : session.dialogue.onItsWay = []) (waits : Session σ → Bool)
    (n elapsed : Nat) : exchange waits n elapsed session = session := by
  have hnone : session.nextLine? = none := by
    rw [nextLine?]
    cases houtlet : session.dialogue.channel.outlet with
    | none => rfl
    | some outlet =>
      have hwritten : outlet.written = [] := by
        rw [onItsWay, houtlet] at hnothing
        exact hnothing
      rw [Option.bind_some, hwritten]
      rfl
  cases n with
  | zero => rfl
  | succ n => rw [exchange, hnone]

section
variable {debugger : Debugger σ} {initial : σ} {body : Text → σ → Text}
  (hresponsive : debugger.Responsive config body initial)
include hresponsive

/-- The session when the line of the command in flight has been collected and the reply to it taken in:
    that is what an exchange comes to if nobody waits, unless the line is left for later, and if somebody
    waits and the reply comes in time. -/
theorem exists_exchange (hsession : session.Attends debugger initial config)
    (hslot : session.dialogue.channel.inFlight = some flight) :
    ∃ answered, answered.Attends debugger initial config ∧
      answered.dialogue = session.dialogue.replied flight (body flight.command.text session.peer) ∧
      answered.peer = (debugger.answer flight.command.text session.peer).2 ∧
      ∀ waits n elapsed,
        (waits session = true →
          config.inTime
            (elapsed + (debugger.answer flight.command.text session.peer).1.duration) = true →
          exchange waits (n + 1) elapsed session = exchange waits n
            (elapsed + (debugger.answer flight.command.text session.peer).1.duration) answered) ∧
        (waits session = false → exchange waits (n + 1) elapsed session = session ∨
          exchange waits (n + 1) elapsed session = exchange waits n elapsed answered) := by
  obtain ⟨hdebugger, hconfig, hgets, hspent, hundecoded, hconversing⟩ := hsession
  let next : Session σ := { session with
    peer := (debugger.answer flight.command.text session.peer).2, spent := 0
    dialogue := session.dialogue.collected }
  have hnext := nextLine?_of_inFlight hconversing hslot
  have hline := (hconversing.isLine flight hslot).text
  have hready : next.dialogue.Ready (.ofSentinels config.sentinels) := hconversing.ready_collected
  obtain ⟨files, shown, hreact⟩ := react_of_replies hready hslot hundecoded
    (hresponsive.answers _ flight.command.text hgets hline)
  refine ⟨next.react (debugger.answer flight.command.text session.peer).1, ?_, ?_, ?_, ?_⟩
  · rw [hreact]
    exact ⟨hdebugger, hconfig, hgets.answered hline, rfl, hundecoded, hconversing.replied flight _⟩
  · rw [hreact]
    rfl
  · rw [hreact]
    rfl
  · intro waits n elapsed
    rw [exchange, hnext]
    dsimp only
    rw [hdebugger, hspent, Nat.sub_zero]
    refine ⟨fun hwaits htime => ?_, fun hwaits => ?_⟩
    · rw [← hconfig] at htime
      rw [if_pos hwaits, if_pos htime]
    · rw [hwaits, if_neg Bool.false_ne_true]
      split
      · exact .inl rfl
      · exact .inr rfl

omit hresponsive in
/-- Taking in the reply to the `finish` of a skip, or to its `next`, brings its end nearer. -/
theorem SkipEnds.replied {elapsed : Nat} {answered : Session σ}
    (hends : session.SkipEnds debugger config body elapsed)
    (hconversing : session.dialogue.Conversing (.ofSentinels config.sentinels))
    (hslot : session.dialogue.channel.inFlight = some flight)
    (hdialogue : answered.dialogue =
      session.dialogue.replied flight (body flight.command.text session.peer))
    (hpeer : answered.peer = (debugger.answer flight.command.text session.peer).2) :
    answered.SkipEnds debugger config body
      (elapsed + (debugger.answer flight.command.text session.peer).1.duration) := by
  obtain ⟨hkind, -, hnext⟩ := hends flight hslot
  rcases hconversing.replied_cases flight (body flight.command.text session.peer) with ⟨hfree, -⟩ |
    ⟨-, hstep, -⟩ | ⟨hfollow, hidle, hsteps⟩
  · exact skipEnds_of_free (by rw [hdialogue, hfree])
  · exact absurd hstep hkind
  · intro successor hsuccessor
    rw [hdialogue, hfollow] at hsuccessor
    cases hsuccessor
    rw [hdialogue, hidle, hpeer]
    exact ⟨by decide, hnext hsteps, fun hbusy => by cases hbusy⟩

/-- While the answer to a command lies there nobody waits. What follows from it may be answered, or left
    for later. -/
theorem exchange_of_answered {answer : Nat × Answer} (hsession : session.Attends debugger initial config)
    (hholds : session.dialogue.HasAnswers [answer]) (hends : session.SkipEnds debugger config body 0)
    (n elapsed : Nat) : ∃ settled, exchange awaitsAnswer n elapsed session = settled ∧
      settled.Attends debugger initial config ∧ settled.dialogue.HasAnswers [answer] ∧
      settled.SkipEnds debugger config body 0 ∧
      (session.dialogue.channel.inFlight = none → settled.dialogue.channel.inFlight = none) := by
  induction n generalizing session with
  | zero => exact ⟨session, rfl, hsession, hholds, hends, id⟩
  | succ n ih =>
    cases hslot : session.dialogue.channel.inFlight with
    | none =>
      have hnothing := hsession.conversing.onItsWay_eq_nil hslot
      exact ⟨session, exchange_of_nothing hnothing _ _ _, hsession, hholds, hends, fun _ => hslot⟩
    | some flight =>
      obtain ⟨answered, hanswered, hdialogue, hpeer, hexchange⟩ :=
        exists_exchange hresponsive hsession hslot
      have hunwaited : awaitsAnswer session = false := by
        rw [awaitsAnswer, hholds.answers_eq]
        rfl
      rcases (hexchange awaitsAnswer n elapsed).2 hunwaited with hleft | hgone
      · exact ⟨session, hleft, hsession, hholds, hends, fun hnone => by cases hnone⟩
      · have hholds' : answered.dialogue.HasAnswers [answer] := by
          rw [hdialogue]
          exact hholds.replied hslot _
        have hends' := (hends.replied hsession.conversing hslot hdialogue hpeer).of_le (Nat.zero_le _)
        obtain ⟨settled, hsettled, hrest⟩ := ih hanswered hholds' hends'
        exact ⟨settled, hgone.trans hsettled, hrest.1, hrest.2.1, hrest.2.2.1,
          fun hnone => by cases hnone⟩

/-- Whoever waits until nothing is in flight sees the end of a skip. -/
theorem exchange_until_idle {n elapsed : Nat} (hsession : session.Unattended debugger initial config)
    (hends : session.SkipEnds debugger config body elapsed)
    (hlines : outstandingLines session.dialogue ≤ n) : ∃ settled,
      exchange (fun session => !session.dialogue.isIdle) n elapsed session = settled ∧
      settled.Rests debugger initial config := by
  induction n generalizing session elapsed with
  | zero =>
    cases hslot : session.dialogue.channel.inFlight with
    | none => exact ⟨session, rfl, hsession, hslot⟩
    | some flight =>
      have hless := outstandingLines_replied hsession.conversing hslot []
      omega
  | succ n ih =>
    cases hslot : session.dialogue.channel.inFlight with
    | none =>
      have hnothing := hsession.conversing.onItsWay_eq_nil hslot
      exact ⟨session, exchange_of_nothing hnothing _ _ _, hsession, hslot⟩
    | some flight =>
      obtain ⟨answered, hanswered, hdialogue, hpeer, hexchange⟩ :=
        exists_exchange hresponsive hsession.toAttends hslot
      have hbusy : (!session.dialogue.isIdle) = true := by
        rw [Dialogue.isIdle, Channel.isIdle, hslot]
        rfl
      have hgone := (hexchange (fun session => !session.dialogue.isIdle) n elapsed).1 hbusy
        (hends flight hslot).2.1
      have hholds : answered.dialogue.HasAnswers [] := by
        rw [hdialogue]
        exact hsession.answers.replied hslot _
      have hless : outstandingLines answered.dialogue ≤ n := by
        have := outstandingLines_replied hsession.conversing hslot
          (body flight.command.text session.peer)
        rw [← hdialogue] at this
        omega
      obtain ⟨settled, hsettled, hrests⟩ := ih ⟨hanswered, hholds⟩
        (hends.replied hsession.conversing hslot hdialogue hpeer) hless
      exact ⟨settled, hgone.trans hsettled, hrests⟩

/-! ### Commands -/

omit hresponsive in
theorem awaitAnswer_of_answers {response : Response}
    (hanswers : session.dialogue.channel.answers = [(0, .completed response)]) :
    awaitAnswer session = (.ok response, session.takeAnswer) := by
  simp only [awaitAnswer, hanswers]

omit hresponsive in
theorem Attends.takeAnswer (hsession : session.Attends debugger initial config) :
    session.takeAnswer.Attends debugger initial config := by
  obtain ⟨hdebugger, hconfig, hgets, hspent, hundecoded, hconversing⟩ := hsession
  obtain ⟨⟨hdetector, houtlet, hcarry, hawaited, hqueue⟩, hlines, hwritten, hsteps⟩ := hconversing
  exact ⟨hdebugger, hconfig, hgets, hspent, hundecoded,
    ⟨⟨hdetector, houtlet, hcarry, hawaited, hqueue⟩, hlines, hwritten, hsteps⟩⟩

/-- The reply to a `step` that is followed by a `finish` leaves time for the skip. -/
theorem skipEnds_of_step (hskips : debugger.SkipsInTime config body initial) {answered : Session σ}
    (hsession : session.Attends debugger initial config)
    (hslot : session.dialogue.channel.inFlight = some flight)
    (hstep : flight.command.kind = .step → flight.command.text = "step".toList)
    (hidle : session.dialogue.steps = .idle)
    (hdialogue : answered.dialogue =
      session.dialogue.replied flight (body flight.command.text session.peer))
    (hpeer : answered.peer = (debugger.answer flight.command.text session.peer).2) :
    answered.SkipEnds debugger config body 0 := by
  rcases hsession.conversing.replied_cases flight (body flight.command.text session.peer) with
    ⟨hfree, -⟩ | ⟨hfollow, hkind, henters, -, hsteps⟩ | ⟨-, -, hbusy⟩
  · exact skipEnds_of_free (by rw [hdialogue, hfree])
  · intro successor hsuccessor
    rw [hdialogue, hfollow] at hsuccessor
    cases hsuccessor
    have hgets := hsession.gets.answered (hsession.conversing.isLine flight hslot).text
    have hcalls : Stop.callSites (body "step".toList session.peer) ≠ [] := by
      rw [hstep hkind] at henters
      intro hnone
      rw [entersUnknown, hnone] at henters
      cases henters
    rw [hdialogue, hsteps, hpeer]
    refine ⟨by decide, ?_, ?_⟩
    · rw [Nat.zero_add]
      exact (hresponsive.answers _ automaticFinish.text hgets (by decide)).inTime
    · intro hback
      rw [Nat.zero_add]
      rw [hstep hkind] at hback ⊢
      exact hskips _ hsession.gets hcalls (StepState.awaitingSkipDecision.inj hback).symm
  · rw [hidle] at hbusy
    cases hbusy

omit hresponsive in
/-- A command of one line given at rest gets the slot, and its line is on its way. -/
theorem Rests.submit (hsession : session.Rests debugger initial config) {command : Command}
    (hline : command.IsLine) : ∃ started,
      session.dialogue.submit command (some 0) = (.ok (), started) ∧
      { session with dialogue := started }.Attends debugger initial config ∧
      started.channel.inFlight = some { command, ticket := some 0 } ∧
      started.channel.answers = [] ∧ started.steps = .idle := by
  have hconversing := hsession.conversing
  obtain ⟨started, hsubmit, hsteps, hchannel⟩ :=
    hconversing.toReady.submit hsession.inFlight hsession.answers.answers_eq command
  rw [hconversing.onItsWay_eq_nil hsession.inFlight, List.nil_append] at hchannel
  have hstarted : started.Conversing (.ofSentinels config.sentinels) := by
    refine conversing_of_channel hchannel ?_ rfl (fun hnone => by cases hnone)
    rintro _ ⟨⟩
    exact hline
  refine ⟨started, hsubmit, ?_, by rw [hchannel], by rw [hchannel],
    hsteps.trans (hconversing.steps hsession.inFlight)⟩
  exact ⟨hsession.debugger_eq, hsession.config_eq, hsession.gets, hsession.spent, hsession.undecoded,
    hstarted⟩

/-- A command of one line given at rest is answered with the reply to it. Behind any but a `step` the
    session is at rest again; behind a `step` a skip may be under way. -/
theorem issueCommand_of_responsive (hskips : debugger.SkipsInTime config body initial)
    {command : Command} (hsession : session.Rests debugger initial config) (hline : command.IsLine)
    (hstep : command.kind = .step → command.text = "step".toList) :
    ∃ response after, issueCommand command session = (.ok response, after) ∧
      response.text = body command.text session.peer ∧
      after.Unattended debugger initial config ∧
      (command.kind ≠ .step → after.dialogue.channel.inFlight = none) ∧
      after.SkipEnds debugger config body 0 ∧ after.setting = session.setting := by
  let flight : InFlight := { command, ticket := some 0 }
  obtain ⟨started, hsubmit, hgiven, hslot, hnone, hidle⟩ := hsession.submit hline
  let given : Session σ := { session with dialogue := started }
  have hslot : given.dialogue.channel.inFlight = some flight := hslot
  obtain ⟨answered, hanswered, hdialogue, hpeer, hexchange⟩ := exists_exchange hresponsive hgiven hslot
  obtain ⟨response, htext, hholds⟩ : ∃ response, response.text = body command.text session.peer ∧
      answered.dialogue.HasAnswers [(0, .completed response)] := by
    rw [hdialogue]
    have hcollected : given.dialogue.collected.channel.answers = [] := hnone
    exact exists_hasAnswers hcollected command _
  have hends : answered.SkipEnds debugger config body 0 :=
    skipEnds_of_step hresponsive hskips hgiven hslot hstep hidle hdialogue hpeer
  -- The first exchange is waited for and brings the answer; the others are not.
  obtain ⟨lines, hlines⟩ : ∃ lines, outstandingLines given.dialogue = lines + 1 := by
    have hless : _ < outstandingLines given.dialogue :=
      outstandingLines_replied hgiven.conversing hslot []
    exact Nat.exists_eq_add_one_of_ne_zero (by omega)
  have hwaits : awaitsAnswer given = true := by
    rw [awaitsAnswer, hnone]
    rfl
  have htime : config.inTime (0 + (debugger.answer command.text session.peer).1.duration) = true := by
    rw [Nat.zero_add]
    exact (hresponsive.answers _ command.text hsession.gets hline.text).inTime
  obtain ⟨settled, hsettled, hrested, hheld, hsettles, hfree⟩ :=
    exchange_of_answered hresponsive hanswered hholds hends lines
      (0 + (debugger.answer command.text session.peer).1.duration)
  have hissue : issueCommand command session = (.ok response, settled.takeAnswer) := by
    rw [issueCommand_eq, hsubmit]
    dsimp only
    rw [settle, hlines, (hexchange awaitsAnswer lines 0).1 hwaits htime, hsettled,
      awaitAnswer_of_answers hheld.answers_eq]
  have hsetting : settled.setting = session.setting := by
    rw [← hsettled, ← (hexchange awaitsAnswer lines 0).1 hwaits htime]
    exact setting_exchange _ _ _ given
  refine ⟨response, settled.takeAnswer, hissue, htext, ⟨hrested.takeAnswer, hheld.waiter, rfl⟩, ?_,
    hsettles, hsetting⟩
  intro hkind
  apply hfree
  rw [hdialogue]
  exact hgiven.conversing.ready_collected.inFlight_answered hidle hkind _

/-- Whoever waits until nothing is in flight finds the session at rest. -/
theorem waitIdle_of_responsive (hsession : session.Unattended debugger initial config)
    (hends : session.SkipEnds debugger config body 0) :
    ∃ after, waitIdle session = (.ok (), after) ∧ after.Rests debugger initial config ∧
      after.setting = session.setting := by
  obtain ⟨settled, hsettled, hrests⟩ :=
    exchange_until_idle hresponsive hsession hends (Nat.le_refl _)
  have hrunning : settled.dialogue.isRunning = true := by
    rw [Dialogue.isRunning, Channel.isRunning, hrests.conversing.outlet]
    rfl
  have hidle : settled.dialogue.isIdle = true := by
    rw [Dialogue.isIdle, Channel.isIdle, hrests.inFlight, hrests.conversing.queue]
    rfl
  refine ⟨settled, ?_, hrests, ?_⟩
  · rw [waitIdle, settle, hsettled, hrunning, hidle]
    rfl
  · rw [← hsettled]
    exact setting_exchange _ _ _ session

/-! ### The beginning of a session -/

/-- One command after another is answered, and the session is at rest behind them. -/
theorem exists_startupCommands (hskips : debugger.SkipsInTime config body initial) {texts : List Text}
    (hsession : session.Rests debugger initial config)
    (hlines : ∀ text ∈ texts, (Command.ofText text false).IsLine ∧
      (Command.ofText text false).kind ≠ .step) :
    ∃ after, (forIn texts PUnit.unit fun text _ => do
        let _ ← issue text false
        pure (.yield PUnit.unit) : Action σ PUnit) session = (.ok PUnit.unit, after) ∧
      after.Rests debugger initial config ∧ after.setting = session.setting := by
  induction texts generalizing session with
  | nil => exact ⟨session, rfl, hsession, rfl⟩
  | cons text texts ih =>
    obtain ⟨⟨hline, hstays⟩, hothers⟩ := List.forall_mem_cons.1 hlines
    obtain ⟨response, issued, hissue, -, hissued, hslot, -, hsetting⟩ :=
      issueCommand_of_responsive hresponsive hskips hsession hline fun hstep => absurd hstep hstays
    obtain ⟨after, hrun, hafter, hsetting'⟩ := ih ⟨hissued, hslot hstays⟩ hothers
    refine ⟨after, ?_, hafter, hsetting'.trans hsetting⟩
    rw [List.forIn_cons, bind_assoc, bind_apply, issue, hissue]
    exact hrun

/-- When the banner has been taken in, nothing is in flight, and the answer to the first command is
    there. -/
theorem greeted_of_responsive {started : Dialogue}
    (hfresh : session.dialogue = .attached (.ofSentinels config.sentinels))
    (hdebugger : session.machine.debugger = debugger) (hconfig : session.config = config)
    (hpeer : session.peer = initial) (hspent : session.spent = 0)
    (hundecoded : session.undecoded = [])
    (hsubmit : session.dialogue.submit .startup (some 0) = (.ok (), started)) :
    let after := { session with dialogue := started }.greeted
    ∃ response, after.Attends debugger initial config ∧
      after.dialogue.HasAnswers [(0, .completed response)] ∧
      after.dialogue.channel.inFlight = none ∧ after.setting = session.setting := by
  intro after
  let flight : InFlight := { command := .startup, ticket := some 0 }
  have hstarted : started.channel = { outlet := some { written := [] }
                                      detector := .ofSentinels config.sentinels
                                      inFlight := some flight } ∧ started.steps = .idle := by
    rw [hfresh] at hsubmit
    cases hsubmit
    exact ⟨rfl, rfl⟩
  obtain ⟨hchannel, hidle⟩ := hstarted
  obtain ⟨banner, hbanner⟩ := hresponsive.greets
  let waiting : Session σ :=
    { session with dialogue := started, peer := (debugger.greet initial).2 }
  have hslot : waiting.dialogue.channel.inFlight = some flight := by rw [hchannel]
  have hready : waiting.dialogue.Ready (.ofSentinels config.sentinels) := ready_of_channel hchannel
  obtain ⟨files, shown, hreact⟩ := react_of_replies hready hslot hundecoded hbanner
  have hnothing : waiting.dialogue.channel.answers = [] := by rw [hchannel]
  obtain ⟨response, -, hholds⟩ := exists_hasAnswers hnothing .startup banner
  have hconversing := hready.conversing_answered (onItsWay_of_channel hchannel) flight banner
  have hnone : (waiting.dialogue.answered flight banner).channel.inFlight = none :=
    hready.inFlight_answered hidle (by decide) banner
  have htime : session.config.inTime (debugger.greet initial).1.duration = true := by
    rw [hconfig]
    exact hbanner.inTime
  have hafter : after = waiting.react (debugger.greet initial).1 := by
    dsimp only [after]
    rw [greeted]
    dsimp only
    rw [hdebugger, hpeer, if_pos htime]
  have hsetting : after.setting = session.setting := by
    rw [hafter]
    exact setting_react waiting _
  refine ⟨response, ?_, ?_, ?_, hsetting⟩
  · rw [hafter, hreact]
    exact ⟨hdebugger, hconfig, .greeted, hspent, hundecoded, hconversing⟩
  · rw [hafter, hreact]
    exact hholds
  · rw [hafter, hreact]
    exact hnone

omit hresponsive in
/-- With a responsive debugger a session can be started, and is at rest then. -/
theorem start_of_responsive {machine : Machine σ} {executable directory : Text}
    {workingDirectory : List Text} {config : Config}
    (hdirectory : machine.files.directory? machine.directory directory = some workingDirectory)
    (hlaunch : machine.launch? config.debugger (config.debuggerArguments ++ [executable]) = some initial)
    (hresponsive : machine.debugger.Responsive config body initial)
    (hskips : machine.debugger.SkipsInTime config body initial) (hprompt : '\n' ∉ config.prompt) :
    ∃ session, start machine executable directory config = .ok session ∧
      session.Rests machine.debugger initial config ∧ session.setting =
        ({ machine with files := {} }, config, workingDirectory, machine.files.directories) := by
  let fresh : Session σ :=
    { machine, config, peer := initial, workingDirectory
      dialogue := .attached (.ofSentinels config.sentinels) }
  obtain ⟨started, hsubmit⟩ : ∃ started,
      fresh.dialogue.submit .startup (some 0) = (.ok (), started) := ⟨_, rfl⟩
  have hfresh : fresh.dialogue = .attached (.ofSentinels config.sentinels) := rfl
  obtain ⟨response, hattends, hholds, hslot, hsetting⟩ :=
    greeted_of_responsive hresponsive hfresh rfl rfl rfl rfl rfl hsubmit
  let greeted : Session σ := { fresh with dialogue := started }.greeted
  have hrests : greeted.takeAnswer.Rests machine.debugger initial config :=
    ⟨⟨hattends.takeAnswer, hholds.waiter, rfl⟩, hslot⟩
  obtain ⟨session, hrun, hdone, hsetting'⟩ :=
    exists_startupCommands hresponsive hskips hrests (isLine_startupCommands hprompt)
  have hget : (get : Action σ (Session σ)) greeted.takeAnswer =
      (.ok greeted.takeAnswer, greeted.takeAnswer) := rfl
  have hconfig : greeted.takeAnswer.config = config := hattends.config_eq
  have hbegin : begin fresh = (.ok (), session) := by
    rw [begin_eq hsubmit, bind_apply, awaitAnswer_of_answers hholds.answers_eq]
    dsimp only
    rw [bind_apply, hget]
    dsimp only
    rw [bind_apply, hconfig, hrun]
    rfl
  refine ⟨session, ?_, hdone, hsetting'.trans hsetting⟩
  rw [start, hdirectory]
  simp only [Option.bind_eq_bind, Option.bind_some, hlaunch]
  rw [hbegin]

end

end Session
end DebugClient
