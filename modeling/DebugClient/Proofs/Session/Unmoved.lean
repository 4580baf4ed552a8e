import DebugClient.Proofs.Memlog.Tail
import DebugClient.Proofs.Memory.Resighting
import DebugClient.Proofs.Session.Closing

/-!
Recording a stop twice, without the target having moved. If the debugger gives the same answers and the
memory log has no more to tell, the second recording sees what the first one has seen.
-/

namespace DebugClient

/-! ### The picture of the target in a session -/

namespace Session
variable {σ : Type}

theorem program_receive (session : Session σ) (bytes : List UInt8) :
    (session.receive bytes).program = session.program := by
  obtain ⟨undecoded, shown, hquiet | ⟨text, hreceive⟩⟩ := receive_cases session bytes
  · rw [hquiet]
  · rw [hreceive]

theorem program_foldl_receive (pieces : List (List UInt8)) (session : Session σ) :
    (pieces.foldl receive session).program = session.program := by
  induction pieces generalizing session with
  | nil => rfl
  | cons piece pieces ih => exact (ih _).trans (program_receive session piece)

theorem program_react (session : Session σ) (reaction : Reaction) :
    (session.react reaction).program = session.program := by
  obtain ⟨files, -, hreact⟩ := react_eq session reaction
  have htaken := program_foldl_receive (reads reaction.output) (session.setFiles files)
  rw [hreact]
  split <;> exact htaken

theorem program_exchange (waits : Session σ → Bool) (lines elapsed : Nat) (session : Session σ) :
    (exchange waits lines elapsed session).program = session.program := by
  induction lines generalizing session elapsed with
  | zero => rfl
  | succ lines ih =>
    rw [exchange]
    cases hline : session.nextLine? with
    | none => rfl
    | some found =>
      obtain ⟨line, next⟩ := found
      obtain ⟨outlet, rfl⟩ := nextLine?_cases hline
      dsimp only
      split
      · split
        · exact (ih _ _).trans (program_react _ _)
        · rfl
      · split
        · rfl
        · exact (ih _ _).trans (program_react _ _)

theorem program_greeted (session : Session σ) : session.greeted.program = session.program := by
  rw [greeted]
  dsimp only
  split
  · exact program_react _ _
  · rfl

theorem program_awaitAnswer (session : Session σ) :
    (awaitAnswer session).2.program = session.program := by
  rw [awaitAnswer_eq]

/-- Whatever the debugger answers, the picture of the target is changed by those who read the answer. -/
theorem program_issueCommand (command : Command) (session : Session σ) :
    (issueCommand command session).2.program = session.program := by
  rw [issueCommand_eq]
  split
  · exact (program_awaitAnswer _).trans (program_exchange _ _ _ _)
  · rfl

theorem program_waitIdle (session : Session σ) : (waitIdle session).2.program = session.program := by
  rcases waitIdle_cases session with ⟨-, hwait⟩ | ⟨-, hwait | hwait⟩
  · rw [hwait]
    exact program_exchange _ _ _ _
  · rw [hwait]
    exact program_exchange _ _ _ _
  · rw [hwait, timeOut_eq]
    exact program_exchange _ _ _ _

/-- Nothing is known of the target when a session begins. -/
theorem keeps_program_begin (program : ProgramState) :
    Keeps (fun session : Session σ => session.program = program) begin := by
  have hissue (command : Command) :
      Keeps (fun session : Session σ => session.program = program) (issueCommand command) :=
    fun session hprogram => (program_issueCommand command session).trans hprogram
  rw [begin]
  refine Keeps.bind ?_ fun _ => Keeps.bind ?_ fun _ => Keeps.bind ?_ fun _ =>
    Keeps.bind ?_ fun current =>
    ?_
  · exact fun _ hprogram => hprogram
  · exact fun session hprogram => (program_greeted session).trans hprogram
  · exact fun session hprogram => (program_awaitAnswer session).trans hprogram
  · exact fun _ hprogram => hprogram
  · exact (Keeps.forM _ fun text _ => hissue (.ofText text false)).bind fun _ _ => id

theorem program_of_start {machine : Machine σ} {executable directory : Text} {config : Config}
    {session : Session σ} (hstart : start machine executable directory config = .ok session) :
    session.program = {} := by
  obtain ⟨workingDirectory, peer, -, hbegin⟩ := begin_of_start hstart
  have hkept := keeps_program_begin {} { machine, config, peer, workingDirectory
                                         dialogue := .attached (.ofSentinels config.sentinels) } rfl
  rwa [hbegin] at hkept

end Session

namespace Recording
open ProgramState

variable {σ : Type} {recording : Recording σ}

/-! ### Whatever is recorded -/

theorem keeps_inSession {α : Type} (P : Session σ → Prop) {action : Action σ α}
    (haction : Keeps P action) :
    Keeps (fun recording : Recording σ => P recording.session) (inSession action) :=
  fun recording hbefore => haction recording.session hbefore

/-- The picture of the target is coherent and has the frame that is being recorded. -/
def HasFrame (frame : Nat) (program : ProgramState) : Prop :=
  program.Coherent ∧ frame < program.frames.length

theorem HasFrame.observeAll {frame : Nat} {program : ProgramState} (hframe : HasFrame frame program)
    {sights : List Value} (hlocation : ∀ v ∈ sights, v.location = .stack frame) :
    HasFrame frame (program.observeAll sights) := by
  induction sights generalizing program with
  | nil => exact hframe
  | cons v sights ih =>
    obtain ⟨hfirst, hrest⟩ := List.forall_mem_cons.1 hlocation
    refine ih ⟨hframe.1.observe (by rw [hfirst]; exact hframe.2), ?_⟩ hrest
    have hnames := congrArg List.length (names_observe v program)
    rw [List.length_map, List.length_map] at hnames
    rw [hnames]
    exact hframe.2

theorem keeps_recordLocal (frame : Nat) (observed : Local) :
    Keeps (fun session : Session σ => HasFrame frame session.program) (recordLocal frame observed) := by
  rw [recordLocal]
  have hissue (text : Text) : Keeps (fun session : Session σ => HasFrame frame session.program)
      (Session.issue text false) := by
    intro session hframe
    rwa [Session.issue, Session.program_issueCommand]
  refine (hissue _).bind fun address => (hissue _).bind fun size => ?_
  intro session hframe
  exact hframe.observeAll fun v hv => (Observation.of_mem_values hv).2.1

theorem keeps_recordLocals (frame : Nat) (command : Text) :
    Keeps (fun session : Session σ => HasFrame frame session.program) (recordLocals frame command) := by
  rw [recordLocals]
  refine Keeps.bind ?_ fun response => ?_
  · intro session hframe
    rwa [Session.issue, Session.program_issueCommand]
  · exact (Keeps.forM _ fun observed _ => keeps_recordLocal frame observed).bind fun _ _ => id

/-- What is polled is a run of events. -/
theorem exists_program_pollMemlog (recording : Recording σ) : ∃ events : List MemlogEvent,
    (pollMemlog recording).2.session.program =
      events.foldl (fun program event => (program.applyMemlog event).2) recording.session.program := by
  rw [pollMemlog]
  split
  · exact ⟨[], rfl⟩
  · split
    · exact ⟨[], rfl⟩
    · exact ⟨_, rfl⟩

theorem keeps_pollMemlog :
    Keeps (fun recording : Recording σ => recording.session.program.Coherent) pollMemlog := by
  intro recording hcoherent
  obtain ⟨events, hprogram⟩ := exists_program_pollMemlog recording
  rw [hprogram]
  clear hprogram
  generalize recording.session.program = program at hcoherent ⊢
  induction events generalizing program with
  | nil => exact hcoherent
  | cons event events ih => exact ih _ (hcoherent.applyMemlog event)

/-- A recording leaves a coherent picture, also if it fails half way. -/
theorem keeps_recordStop :
    Keeps (fun recording : Recording σ => recording.session.program.Coherent) recordStop := by
  rw [recordStop]
  have hrest (frames : List StackFrame) :
      Keeps (fun recording : Recording σ => recording.session.program.Coherent) (do
        pollMemlog
        modifyGet fun recording =>
          ((recording.log.record frames).1,
            { recording with log := (recording.log.record frames).2 })) :=
    keeps_pollMemlog.bind fun _ _ => id
  refine Keeps.bind (keeps_inSession (·.program.Coherent) ?_) fun backtrace =>
    Keeps.bind (keeps_inSession (·.program.Coherent) ?_) fun _ => ?_
  · intro session hcoherent
    rwa [Session.issue, Session.program_issueCommand]
  · exact fun session hcoherent => hcoherent.syncFrames _
  · intro recording hcoherent
    have hlook : (get : RecordingAction σ (Recording σ)) recording = (.ok recording, recording) := rfl
    rw [bind_apply, hlook]
    dsimp only
    cases hlength : recording.session.program.frames.length with
    | zero => exact hrest _ recording hcoherent
    | succ innermost =>
      have hlocals (command : Text) :
          Keeps (fun recording : Recording σ => HasFrame innermost recording.session.program)
            (inSession (recordLocals innermost command)) :=
        keeps_inSession (fun session => HasFrame innermost session.program)
          (keeps_recordLocals innermost command)
      have hframe : HasFrame innermost recording.session.program := ⟨hcoherent, by omega⟩
      have hargs := hlocals "info args".toList recording hframe
      dsimp only at hargs ⊢
      rw [bind_apply]
      revert hargs
      rcases inSession (recordLocals innermost "info args".toList) recording with ⟨_ | _, between⟩
      · exact And.left
      · intro hargs
        have hafter := hlocals "info locals".toList between hargs
        dsimp only at hafter ⊢
        rw [bind_apply]
        revert hafter
        rcases inSession (recordLocals innermost "info locals".toList) between with ⟨_ | _, after⟩
        · exact And.left
        · exact fun hafter => hrest _ after hafter.1

/-- How things stand behind a stop that has been recorded. -/
def stopped (recording : Recording σ) : Recording σ := (recordStop recording).2

/-- The recordings that can come about in a session: it is started, it is used in any way, and what its
    target looks like is recorded. -/
inductive Reached : Recording σ → Prop
  | start {machine : Machine σ} {executable directory : Text} {config : Config} {session : Session σ}
    (hstart : Session.start machine executable directory config = .ok session) : Reached { session }
  | listen {recording : Recording σ} (hreached : Reached recording) :
    Reached { recording with session := { recording.session with listening := true } }
  | shown {recording : Recording σ} (hreached : Reached recording) (shown : Array Text) :
    Reached { recording with session := { recording.session with shown } }
  | issue {recording : Recording σ} (hreached : Reached recording) (text : Text) (display : Bool) :
    Reached (inSession (Session.issue text display) recording).2
  | enqueue {recording : Recording σ} (hreached : Reached recording) (text : Text) (display : Bool) :
    Reached (inSession (Session.enqueue text display) recording).2
  | waitIdle {recording : Recording σ} (hreached : Reached recording) :
    Reached (inSession Session.waitIdle recording).2
  | rollback {recording : Recording σ} (hreached : Reached recording) (address : Nat) :
    Reached (inSession (Session.rollbackAt address) recording).2
  | kill {recording : Recording σ} (hreached : Reached recording) :
    Reached { recording with session := recording.session.kill }
  | files {recording : Recording σ} (hreached : Reached recording) (files : FileStore) :
    Reached { recording with session := recording.session.setFiles files }
  | stopped {recording : Recording σ} (hreached : Reached recording) :
    Reached recording.stopped

theorem Reached.coherent (hreached : recording.Reached) : recording.session.program.Coherent := by
  induction hreached with
  | start hstart =>
    dsimp only
    rw [Session.program_of_start hstart]
    exact coherent_empty
  | listen _ ih => exact ih
  | shown _ _ ih => exact ih
  | @issue recording _ text display ih =>
    show (Session.issue text display recording.session).2.program.Coherent
    rwa [Session.issue, Session.program_issueCommand]
  | @enqueue recording _ text display ih =>
    have hkept : (Session.enqueue text display recording.session).2.program =
        recording.session.program := Session.program_exchange _ _ _ _
    show (Session.enqueue text display recording.session).2.program.Coherent
    rwa [hkept]
  | @waitIdle recording _ ih =>
    show (Session.waitIdle recording.session).2.program.Coherent
    rwa [Session.program_waitIdle]
  | @rollback recording _ address ih =>
    have hperform : (recording.session.program.perform (.rollback address)).Coherent :=
      ih.perform trivial
    exact hperform
  | kill _ ih => exact ih
  | files _ files ih => exact ih
  | @stopped recording _ ih => exact keeps_recordStop recording ih

end Recording

/-! ### What the replies tell -/

namespace Plan
open ProgramState

variable {σ : Type} {plan next : Plan σ} {recording before after : Recording σ} {reply : Text → Text}

/-- All commands are answered, each with the reply to it. -/
def AnsweredBy (reply : Text → Text) (plan : Plan σ) (recording : Recording σ) : Prop :=
  ∀ turn ∈ plan.turns recording, turn.outcome.1.toOption.map (·.text) = some (reply turn.text)

instance (reply : Text → Text) (plan : Plan σ) (recording : Recording σ) :
    Decidable (plan.AnsweredBy reply recording) := by
  unfold AnsweredBy
  infer_instance

/-- The variable as these replies describe it. -/
def observation (reply : Text → Text) (frame : Nat) (observed : Local) : Observation :=
  let typed := Printed.readAddress? (reply ("print &".toList ++ observed.name))
  { name := observed.name
    type := (typed.map (·.1)).getD []
    address := typed.map (·.2)
    size := Printed.readInteger? (reply ("print sizeof(".toList ++ observed.name ++ [')']))
    frame
    literal := Literal.read observed.value }

/-- The variables that a command lists. -/
def observations (reply : Text → Text) (frame : Nat) (command : Text) : List Observation :=
  (Locals.all (reply command)).map (observation reply frame)

/-- The frames of the target. -/
def stopFrames (reply : Text → Text) : List StackFrame := Backtrace.frames (reply "backtrace".toList)

/-- The number of the innermost frame. -/
def innermost (reply : Text → Text) : Nat := (stopFrames reply).length - 1

/-- All that is seen of the arguments and locals of the innermost frame, in this order. -/
def stopSights (reply : Text → Text) : List Value :=
  if stopFrames reply = [] then []
  else (observations reply (innermost reply) "info args".toList ++
    observations reply (innermost reply) "info locals".toList).flatMap (·.values)

/-- The plan has been carried out up to here, and the memory log has not been looked at. -/
structure Arrives (reply : Text → Text) (plan next : Plan σ) (before after : Recording σ) : Prop where
  carryOut : plan.carryOut before = next.carryOut after
  answered : next.AnsweredBy reply after
  memlog : after.memlog = before.memlog

theorem Arrives.trans {between : Recording σ} {later : Plan σ}
    (hfirst : Arrives reply plan later before between)
    (hrest : Arrives reply later next between after) : Arrives reply plan next before after :=
  ⟨hfirst.carryOut.trans hrest.carryOut, hrest.answered, hrest.memlog.trans hfirst.memlog⟩

/-- A command is answered, and the picture of the target stays as it is. -/
theorem arrives_give {text : Text} {display : Bool} {later : Response → Plan σ}
    (hanswered : (give text display later).AnsweredBy reply before) :
    ∃ response after, Arrives reply (give text display later) (later response) before after ∧
      response.text = reply text ∧ after.session.program = before.session.program := by
  have hfirst := hanswered { before, text, display } (by rw [turns]; exact List.mem_cons_self)
  obtain ⟨response, hresponse, htext⟩ := Option.map_eq_some_iff.1 hfirst
  obtain ⟨session, hissue⟩ : ∃ session,
      Session.issue text display before.session = (.ok response, session) := by
    change (Session.issue text display before.session).1.toOption = some response at hresponse
    revert hresponse
    rcases Session.issue text display before.session with ⟨_ | given, session⟩
    · intro hnever
      cases hnever
    · rintro ⟨⟩
      exact ⟨session, rfl⟩
  have hprogram := Session.program_issueCommand (.ofText text display) before.session
  rw [← Session.issue, hissue] at hprogram
  refine ⟨response, { before with session }, ⟨?_, ?_, rfl⟩, htext, hprogram⟩
  · rw [carryOut, hissue]
  · intro turn hturn
    apply hanswered
    rw [turns, hissue]
    exact List.mem_cons_of_mem _ hturn

theorem arrives_recordLocal {frame : Nat} {observed : Local}
    (hanswered : (recordLocal frame observed next).AnsweredBy reply before) :
    ∃ after, Arrives reply (recordLocal frame observed next) next before after ∧
      after.session.program =
        before.session.program.observeAll (observation reply frame observed).values := by
  obtain ⟨address, between, hfirst, haddress, hprogram⟩ := arrives_give hanswered
  obtain ⟨size, last, hsecond, hsize, hprogram'⟩ := arrives_give hfirst.answered
  have hput : Arrives reply (observe frame observed address size next) next last
      (last.put (last.session.program.observeAll (observation reply frame observed).values) last.log
        last.memlog) := by
    refine ⟨?_, ?_, rfl⟩
    · rw [observe, haddress, hsize]
      rfl
    · have hanswered := hsecond.answered
      rw [observe, haddress, hsize] at hanswered
      exact hanswered
  refine ⟨_, (hfirst.trans hsecond).trans hput, ?_⟩
  rw [← hprogram, ← hprogram']
  rfl

theorem arrives_recordEach {frame : Nat} {observed : List Local}
    (hanswered : (observed.foldr (recordLocal frame) next).AnsweredBy reply before) :
    ∃ after, Arrives reply (observed.foldr (recordLocal frame) next) next before after ∧
      after.session.program = before.session.program.observeAll
        ((observed.map (observation reply frame)).flatMap (·.values)) := by
  induction observed generalizing before with
  | nil => exact ⟨before, ⟨rfl, hanswered, rfl⟩, rfl⟩
  | cons first observed ih =>
    obtain ⟨between, hfirst, hprogram⟩ := arrives_recordLocal hanswered
    obtain ⟨after, hrest, hprogram'⟩ := ih hfirst.answered
    refine ⟨after, hfirst.trans hrest, ?_⟩
    rw [hprogram', hprogram, List.map_cons, List.flatMap_cons, observeAll, observeAll, observeAll,
      List.foldl_append]

theorem arrives_recordLocals {frame : Nat} {command : Text}
    (hanswered : (recordLocals frame command next).AnsweredBy reply before) :
    ∃ after, Arrives reply (recordLocals frame command next) next before after ∧
      after.session.program = before.session.program.observeAll
        ((observations reply frame command).flatMap (·.values)) := by
  obtain ⟨response, between, hgiven, htext, hprogram⟩ := arrives_give hanswered
  have hanswered' := hgiven.answered
  rw [htext] at hanswered'
  obtain ⟨after, hrest, hprogram'⟩ := arrives_recordEach hanswered'
  rw [htext] at hgiven
  refine ⟨after, hgiven.trans hrest, ?_⟩
  rw [hprogram', hprogram, observations]

/-- The stack has as many frames as the backtrace. -/
theorem length_syncFrames {program : ProgramState} (hcoherent : program.Coherent)
    (backtrace : List StackFrame) : (program.syncFrames backtrace).frames.length = backtrace.length := by
  have hnames := congrArg List.length (hcoherent.names_syncFrames backtrace)
  rwa [List.length_map, List.length_map, List.length_reverse] at hnames

theorem arrives_recordInnermost
    (hlength : before.session.program.frames.length = (stopFrames reply).length)
    (hanswered : (recordInnermost next).AnsweredBy reply before) :
    ∃ after, Arrives reply (recordInnermost next) next before after ∧
      after.session.program = before.session.program.observeAll (stopSights reply) := by
  cases hframes : stopFrames reply with
  | nil =>
    rw [hframes, List.length_nil] at hlength
    refine ⟨before, ⟨?_, ?_, rfl⟩, ?_⟩
    · rw [recordInnermost, carryOut, hlength]
    · rw [recordInnermost, AnsweredBy, turns, hlength] at hanswered
      exact hanswered
    · rw [stopSights, if_pos hframes]
      rfl
  | cons frame frames =>
    have hinnermost : before.session.program.frames.length = innermost reply + 1 := by
      rw [hlength, innermost, hframes]
      rfl
    have hsome : Arrives reply (recordInnermost next) (recordLocals (innermost reply) "info args".toList
        (recordLocals (innermost reply) "info locals".toList next)) before before := by
      refine ⟨?_, ?_, rfl⟩
      · rw [recordInnermost, carryOut, hinnermost]
      · rw [recordInnermost, AnsweredBy, turns, hinnermost] at hanswered
        exact hanswered
    obtain ⟨between, hargs, hprogram⟩ := arrives_recordLocals hsome.answered
    obtain ⟨after, hlocals, hprogram'⟩ := arrives_recordLocals hargs.answered
    refine ⟨after, (hsome.trans hargs).trans hlocals, ?_⟩
    rw [hprogram', hprogram, stopSights, if_neg (by rw [hframes]; exact List.cons_ne_nil _ _),
      List.flatMap_append,
      observeAll, observeAll, observeAll, List.foldl_append]

/-- Behind a backtrace all that the replies tell of the innermost frame is observed. -/
theorem arrives_recordStop (hcoherent : before.session.program.Coherent)
    (hanswered : (recordStop next).AnsweredBy reply before) :
    ∃ after, Arrives reply (recordStop next)
        (pollMemlog (recordSnapshot (stopFrames reply) next)) before after ∧
      after.session.program =
        (before.session.program.syncFrames (stopFrames reply)).observeAll (stopSights reply) := by
  obtain ⟨response, given, hgiven, htext, hprogram⟩ := arrives_give hanswered
  have hframes : Backtrace.frames response.text = stopFrames reply := by rw [htext, stopFrames]
  have hsync := hgiven.answered
  dsimp only at hgiven hsync
  rw [hframes] at hgiven hsync
  let synced := given.put (given.session.program.syncFrames (stopFrames reply)) given.log given.memlog
  have hsynced : Arrives reply (syncFrames (stopFrames reply) (recordInnermost (pollMemlog
      (recordSnapshot (stopFrames reply) next)))) (recordInnermost (pollMemlog
      (recordSnapshot (stopFrames reply) next))) given synced := ⟨rfl, hsync, rfl⟩
  have hlength : synced.session.program.frames.length = (stopFrames reply).length := by
    rw [← hprogram] at hcoherent
    exact length_syncFrames hcoherent _
  obtain ⟨after, hseen, hprogram'⟩ := arrives_recordInnermost hlength hsynced.answered
  refine ⟨after, (hgiven.trans hsynced).trans hseen, ?_⟩
  rw [hprogram', ← hprogram]
  rfl

/-! ### Recording twice -/

/-- The picture behind all that has been seen at a stop, before the memory log is looked at. -/
def seen (reply : Text → Text) (program : ProgramState) : ProgramState :=
  (program.syncFrames (stopFrames reply)).observeAll (stopSights reply)

theorem location_of_mem_observations {frame : Nat} {command : Text} {o : Observation}
    (hmem : o ∈ observations reply frame command) : o.frame = frame ∧
      o.address = (Printed.readAddress? (reply ("print &".toList ++ o.name))).map (·.2) := by
  obtain ⟨observed, -, rfl⟩ := List.mem_map.1 hmem
  exact ⟨rfl, rfl⟩

/-- As a variable is asked for by its name, one name has one address. -/
theorem sightsOf_stopSights (reply : Text → Text) : SightsOf (innermost reply) (stopSights reply) := by
  unfold stopSights
  split
  · exact ⟨nofun, nofun, nofun⟩
  · have hmem : ∀ o ∈ observations reply (innermost reply) "info args".toList ++
        observations reply (innermost reply) "info locals".toList, o.frame = innermost reply ∧
        o.address = (Printed.readAddress? (reply ("print &".toList ++ o.name))).map (·.2) := by
      intro o ho
      rcases List.mem_append.1 ho with hargs | hlocals
      · exact location_of_mem_observations hargs
      · exact location_of_mem_observations hlocals
    apply Observation.sightsOf_values
    · exact fun o ho => (hmem o ho).1
    · intro o ho other hother hname
      rw [(hmem o ho).2, (hmem other hother).2, hname]

/-- A log that has not been read on has brought no event. -/
theorem program_pollMemlog_of_memlog_eq
    (hquiet : (Recording.pollMemlog recording).2.memlog = recording.memlog) :
    (Recording.pollMemlog recording).2.session.program = recording.session.program := by
  revert hquiet
  unfold Recording.pollMemlog
  dsimp only
  split
  · exact fun _ => rfl
  · next name _ =>
    rcases FollowedLog.poll_cases
        (recording.session.files.read? recording.session.machine.directory name) recording.memlog with
      ⟨complete, unfinished, -, -, -, hpoll⟩ | ⟨-, hpoll⟩
    · rw [hpoll]
      intro hquiet
      have hoffset : recording.memlog.offset + (Utf8.encode complete).length = recording.memlog.offset :=
        congrArg MemlogTail.offset hquiet
      have hnone : Utf8.encode complete = [] := List.eq_nil_of_length_eq_zero (by omega)
      have hempty : some complete = some [] :=
        (Utf8.decode?_eq_some_iff.2 hnone.symm).symm.trans (Utf8.decode?_eq_some_iff.2 rfl)
      cases hempty
      rfl
    · rw [hpoll]
      exact fun _ => rfl

/-- What a recording leaves behind, if all its commands are answered. -/
theorem exists_stopped (hcoherent : recording.session.program.Coherent)
    (hanswered : (recordStop .done).AnsweredBy reply recording) : ∃ polled : Recording σ,
    polled.session.program = seen reply recording.session.program ∧ polled.memlog = recording.memlog ∧
      recording.stopped.session.program = (Recording.pollMemlog polled).2.session.program ∧
      recording.stopped.memlog = (Recording.pollMemlog polled).2.memlog := by
  obtain ⟨polled, harrives, hprogram⟩ := arrives_recordStop hcoherent hanswered
  have hfollows := follows_recordStop .done recording
  have hrecorded : ((recordStop .done).carryOut recording).2 = recording.stopped := by
    rw [Recording.stopped, hfollows]
    rcases Recording.recordStop recording with ⟨_ | _, _⟩ <;> rfl
  rw [← hrecorded, harrives.carryOut]
  exact ⟨polled, hprogram, harrives.memlog, rfl, rfl⟩

/-- A stop that is recorded twice, with the same answers to the same commands and nothing more in the
    memory log, leaves the picture as the first recording left it exactly if the sights of each place
    agree or are of different variables. This supposes that no local is seen where one without an
    address is known to have been, and that the memory log of the first recording has told nothing of
    the locals. -/
theorem program_stopped_stopped_iff (hreached : recording.Reached)
    (hanswered : (recordStop .done).AnsweredBy reply recording)
    (hagain : (recordStop .done).AnsweredBy reply recording.stopped)
    (hquiet : recording.stopped.stopped.memlog = recording.stopped.memlog)
    (hapart : (recording.session.program.syncFrames (stopFrames reply)).Apart (innermost reply)
      (stopSights reply))
    (hlog : ∀ v ∈ stopSights reply, recording.stopped.session.program.known? v =
      (seen reply recording.session.program).known? v) :
    recording.stopped.stopped.session.program = recording.stopped.session.program ↔
      Agree (stopSights reply) := by
  have hcoherent := hreached.coherent
  have hcoherent' := hreached.stopped.coherent
  obtain ⟨polled, hprogram, -, hfirst, -⟩ := exists_stopped hcoherent hanswered
  obtain ⟨polled', hprogram', hmemlog', hsecond, hlast⟩ := exists_stopped hcoherent' hagain
  rw [hlast, ← hmemlog'] at hquiet
  rw [program_pollMemlog_of_memlog_eq hquiet, hprogram'] at hsecond
  obtain ⟨events, hevents⟩ := Recording.exists_program_pollMemlog polled
  rw [hevents, hprogram] at hfirst
  rw [hsecond]
  generalize recording.stopped.session.program = program at hfirst hlog ⊢
  have hnames : program.frames.map (·.name) = (stopFrames reply).reverse.map (·.function) := by
    rw [hfirst, names_foldl_applyMemlog, seen, names_observeAll, hcoherent.names_syncFrames]
  have hsynced : seen reply program = program.observeAll (stopSights reply) := by
    rw [seen, syncFrames_eq_self hnames]
  rw [hsynced]
  by_cases hnone : stopFrames reply = []
  · have hempty : stopSights reply = [] := if_pos hnone
    rw [hempty]
    exact iff_of_true rfl nofun
  · have hsights := sightsOf_stopSights reply
    have hinnermost : innermost reply < (stopFrames reply).length := by
      have := List.length_pos_of_ne_nil hnone
      rw [innermost]
      omega
    have hclear : (recording.session.program.syncFrames (stopFrames reply)).Clear (innermost reply)
        (stopSights reply) := ⟨hcoherent.syncFrames _, hapart⟩
    have hlt : innermost reply <
        (recording.session.program.syncFrames (stopFrames reply)).frames.length := by
      rwa [length_syncFrames hcoherent]
    have hlt' : innermost reply < program.frames.length := by
      have hlength := congrArg List.length hnames
      rw [List.length_map, List.length_map, List.length_reverse] at hlength
      rwa [hlength]
    have hseen := (hclear.observeAll hsights (List.Subset.refl _) hlt).1
    have hagain : program.Clear (innermost reply) (stopSights reply) := by
      rw [hfirst]
      exact hseen.foldl_applyMemlog events
    exact observeAll_eq_self_iff hsights hclear hlt hagain hlt' hlog

theorem reached_scripted {script : Script} {config : Config}
    (hstart : (Session.start (AutoRun.scripted script) "a.out".toList ['.'] config).toOption.isSome) :
    Recording.Reached { session := AutoRun.scriptedSession script config } := by
  rw [AutoRun.scriptedSession]
  cases hresult : Session.start (AutoRun.scripted script) "a.out".toList ['.'] config with
  | error e =>
    rw [hresult] at hstart
    cases hstart
  | ok session => exact .start hresult

/-- What the debugger says of a stop in `main`, with these locals. -/
def stopReplies (locals : String) (others : List (String × String)) : List (Text × Text) :=
  (("backtrace", "#0  main () at a.c:3\n") :: ("info args", "No arguments.\n") ::
    ("info locals", locals) :: others).map fun (line, reply) => (line.toList, reply.toList)

/-- A session with a debugger that says the same each time. -/
def steadyRecording (replies : List (Text × Text)) : Recording Script :=
  { session := AutoRun.scriptedSession
      { replies := replies.map fun (line, reply) => (line, [{ output := Utf8.encode reply }]) } {} }

/-- A number and an array are seen again as they have been. -/
theorem program_stopped_stopped_iff_array :
    let replies := stopReplies "x = 1\ny = \x7b2, 3\x7d\n"
      [("print &x", "$1 = (int *) 0x7ffe0010\n"), ("print sizeof(x)", "$2 = 4\n"),
        ("print &y", "$3 = (int (*)[2]) 0x7ffe0020\n"), ("print sizeof(y)", "$4 = 8\n")]
    let reply (line : Text) : Text := (replies.lookup line).getD []
    (stopSights reply).length = 3 ∧ Agree (stopSights reply) ∧
      (steadyRecording replies).stopped.stopped.session.program =
        (steadyRecording replies).stopped.session.program := by
  intro replies reply
  have hreached : (steadyRecording replies).Reached := reached_scripted (by decide +kernel)
  obtain ⟨hanswered, hagain, hquiet, hapart, hlog⟩ :
      (recordStop .done).AnsweredBy reply (steadyRecording replies) ∧
      (recordStop .done).AnsweredBy reply (steadyRecording replies).stopped ∧
      (steadyRecording replies).stopped.stopped.memlog = (steadyRecording replies).stopped.memlog ∧
      ((steadyRecording replies).session.program.syncFrames (stopFrames reply)).Apart (innermost reply)
        (stopSights reply) ∧
      ∀ v ∈ stopSights reply, (steadyRecording replies).stopped.session.program.known? v =
        (seen reply (steadyRecording replies).session.program).known? v := by
    decide +kernel
  obtain ⟨hcount, hagree⟩ : (stopSights reply).length = 3 ∧ Agree (stopSights reply) := by
    decide +kernel
  have hsame := program_stopped_stopped_iff hreached hanswered hagain hquiet hapart hlog
  exact ⟨hcount, hagree, hsame.2 hagree⟩

/-- A variable that hides another one of its name is asked for in place of both. -/
theorem recorded_anew_where_hidden :
    ¬ ∀ (recording : Recording Script) (reply : Text → Text), recording.Reached →
      (recordStop .done).AnsweredBy reply recording →
      (recordStop .done).AnsweredBy reply recording.stopped →
      recording.stopped.stopped.memlog = recording.stopped.memlog →
      recording.stopped.stopped.session.program = recording.stopped.session.program := by
  intro hclaim
  let replies := stopReplies "x = 1\nx = 2\n"
    [("print &x", "$1 = (int *) 0x7ffe0010\n"), ("print sizeof(x)", "$2 = 4\n")]
  let reply (line : Text) : Text := (replies.lookup line).getD []
  have hreached : (steadyRecording replies).Reached := reached_scripted (by decide +kernel)
  obtain ⟨hanswered, hagain, hquiet, hgrown⟩ :
      (recordStop .done).AnsweredBy reply (steadyRecording replies) ∧
      (recordStop .done).AnsweredBy reply (steadyRecording replies).stopped ∧
      (steadyRecording replies).stopped.stopped.memlog = (steadyRecording replies).stopped.memlog ∧
      (steadyRecording replies).stopped.stopped.session.program ≠
        (steadyRecording replies).stopped.session.program := by
    decide +kernel
  exact hgrown (hclaim _ reply hreached hanswered hagain hquiet)

end Plan
end DebugClient
