import DebugClient.Proofs.Console.Refusal
import DebugClient.Proofs.Reply.Notice

/-!
Whether the target has ended. Texts that are heard may announce the end, and a command that takes the
slot may run the target anew. The client takes note of a new run only if it was asked for in the
foreground: when a `run` comes out of the queue, the target of the run before counts as ended until
something else settles it.
-/

namespace DebugClient
open Stop Text

/-- What bears on whether the target has ended. -/
inductive Sign where
  /-- A response completed with this text, or the text came while nothing was in flight. -/
  | heard (text : Text)
  /-- The command took the slot in the foreground. -/
  | submitted (command : Command)
  /-- The command took the slot from the queue. -/
  | dispatched (command : Command)
  deriving DecidableEq, Repr

namespace Sign

def ofEvent? : Event → Option Sign
  | .submitted command => some (.submitted command)
  | .dispatched command => some (.dispatched command)
  | .left _ | .accepted _ | .dropped .. | .closed => none

/-- Whether the end is announced. -/
def announces : Sign → Bool
  | .heard text => announcesExit text
  | .submitted _ | .dispatched _ => false

/-- Whether the target is run anew. -/
def runs : Sign → Bool
  | .submitted command | .dispatched command => command.kind = .run
  | .heard _ => false

/-- Whether the target is run anew in the foreground. -/
def runsInForeground : Sign → Bool
  | .submitted command => command.kind = .run
  | .dispatched _ | .heard _ => false

/-- Whether the target counts as ended after this. -/
def next (exited : Bool) (sign : Sign) : Bool := !sign.runsInForeground && (exited || sign.announces)

theorem runs_of_runsInForeground {sign : Sign} (hruns : sign.runsInForeground = true) :
    sign.runs = true := by
  cases sign with
  | heard text => cases hruns
  | submitted command => exact hruns
  | dispatched command => cases hruns

theorem runsInForeground_of_announces {sign : Sign} (hannounces : sign.announces = true) :
    sign.runsInForeground = false := by
  cases sign with
  | heard text => rfl
  | submitted command => cases hannounces
  | dispatched command => rfl

theorem exists_dispatched_of_runs {sign : Sign} (hruns : sign.runs = true)
    (hbackground : sign.runsInForeground = false) :
    ∃ command, sign = .dispatched command ∧ command.kind = .run := by
  cases sign with
  | heard text => cases hruns
  | submitted command =>
    rw [Sign.runs] at hruns
    rw [Sign.runsInForeground, hruns] at hbackground
    cases hbackground
  | dispatched command => exact ⟨command, rfl, of_decide_eq_true hruns⟩

end Sign

/-- The end has been announced, and nothing has restarted the target since. -/
def EndedSince (restarts : Sign → Bool) (signs : List Sign) : Prop :=
  ∃ earlier sign later, signs = earlier ++ sign :: later ∧ sign.announces = true ∧
    ∀ other ∈ later, restarts other = false

section
variable {restarts : Sign → Bool} {sign : Sign} {signs front back : List Sign}

theorem not_endedSince_nil : ¬ EndedSince restarts [] := by
  rintro ⟨earlier, sign, later, hnil, -⟩
  exact absurd hnil (by simp)

theorem endedSince_cons : EndedSince restarts (sign :: signs) ↔
    (sign.announces = true ∧ ∀ other ∈ signs, restarts other = false) ∨ EndedSince restarts signs := by
  constructor
  · rintro ⟨earlier, last, later, hsigns, hannounces, hlater⟩
    cases earlier with
    | nil =>
      obtain ⟨rfl, rfl⟩ := List.cons.inj hsigns
      exact .inl ⟨hannounces, hlater⟩
    | cons first earlier =>
      obtain ⟨rfl, rfl⟩ := List.cons.inj hsigns
      exact .inr ⟨earlier, last, later, rfl, hannounces, hlater⟩
  · rintro (⟨hannounces, hlater⟩ | ⟨earlier, last, later, rfl, hannounces, hlater⟩)
    · exact ⟨[], sign, signs, rfl, hannounces, hlater⟩
    · exact ⟨sign :: earlier, last, later, rfl, hannounces, hlater⟩

theorem endedSince_append : EndedSince restarts (front ++ back) ↔
    EndedSince restarts back ∨
      (EndedSince restarts front ∧ ∀ other ∈ back, restarts other = false) := by
  induction front with
  | nil => simp [not_endedSince_nil]
  | cons sign front ih =>
    rw [List.cons_append, endedSince_cons, endedSince_cons, ih]
    simp only [List.forall_mem_append]
    tauto

instance decidableEndedSince (restarts : Sign → Bool) :
    (signs : List Sign) → Decidable (EndedSince restarts signs)
  | [] => .isFalse not_endedSince_nil
  | _ :: signs =>
    have := decidableEndedSince restarts signs
    decidable_of_iff' _ endedSince_cons

/-- Fewer restarts leave the target ended. -/
theorem EndedSince.of_runs (hended : EndedSince Sign.runs signs) :
    EndedSince Sign.runsInForeground signs := by
  obtain ⟨earlier, sign, later, hsigns, hannounces, hlater⟩ := hended
  refine ⟨earlier, sign, later, hsigns, hannounces, ?_⟩
  intro other hother
  rw [← Bool.not_eq_true]
  intro hruns
  exact absurd (Sign.runs_of_runsInForeground hruns) (by simp [hlater other hother])

theorem foldl_next (signs : List Sign) (exited : Bool) : signs.foldl Sign.next exited = true ↔
    EndedSince Sign.runsInForeground signs ∨
      (exited = true ∧ ∀ sign ∈ signs, sign.runsInForeground = false) := by
  induction signs generalizing exited with
  | nil => simp [not_endedSince_nil]
  | cons sign signs ih =>
    rw [List.foldl_cons, ih, endedSince_cons, List.forall_mem_cons, Sign.next, Bool.and_eq_true,
      Bool.or_eq_true, Bool.not_eq_true']
    have hquiet := @Sign.runsInForeground_of_announces sign
    tauto

/-- Where a run from the queue makes a difference, it is the last thing that bears on the matter. -/
theorem exists_run_of_not_endedSince (hended : EndedSince Sign.runsInForeground signs)
    (hrun : ¬ EndedSince Sign.runs signs) : ∃ earlier command later,
      signs = earlier ++ .dispatched command :: later ∧ command.kind = .run ∧
      EndedSince Sign.runsInForeground earlier ∧
      ∀ sign ∈ later, sign.announces = false ∧ sign.runsInForeground = false := by
  induction signs using List.reverseRecOn with
  | nil => exact absurd hended not_endedSince_nil
  | append_singleton signs last ih =>
    simp only [endedSince_append, endedSince_cons, not_endedSince_nil, List.forall_mem_singleton,
      List.not_mem_nil, false_implies, implies_true, and_true, or_false] at hended hrun
    rw [not_or, not_and, Bool.not_eq_true] at hrun
    obtain ⟨hsilent, hrun⟩ := hrun
    obtain ⟨hbefore, hquiet⟩ := hended.resolve_left (by simp [hsilent])
    cases hlast : last.runs with
    | true =>
      obtain ⟨command, rfl, hkind⟩ := Sign.exists_dispatched_of_runs hlast hquiet
      exact ⟨signs, command, [], rfl, hkind, hbefore, by simp⟩
    | false =>
      obtain ⟨earlier, command, later, rfl, hkind, hearlier, hlater⟩ :=
        ih hbefore fun hruns => hrun hruns hlast
      refine ⟨earlier, command, later ++ [last], by simp, hkind, hearlier, ?_⟩
      rw [List.forall_mem_append, List.forall_mem_singleton]
      exact ⟨hlater, hsilent, hquiet⟩

/-- To go by the foreground alone is right exactly if a run from the queue finds no target that has
    ended, or the matter is settled after it. -/
theorem endedSince_runs_iff :
    (EndedSince Sign.runsInForeground signs ↔ EndedSince Sign.runs signs) ↔
      ∀ earlier command later, signs = earlier ++ .dispatched command :: later →
        command.kind = .run → EndedSince Sign.runsInForeground earlier →
        ∃ sign ∈ later, sign.announces = true ∨ sign.runsInForeground = true := by
  constructor
  · intro hagree earlier command later hsigns hkind hearlier
    have hdispatched : (Sign.dispatched command).runs = true := by simpa [Sign.runs] using hkind
    by_contra hunsettled
    push Not at hunsettled
    have hended : EndedSince Sign.runsInForeground signs := by
      rw [hsigns, endedSince_append]
      refine .inr ⟨hearlier, ?_⟩
      rw [List.forall_mem_cons]
      exact ⟨rfl, fun sign hsign => by simpa using (hunsettled sign hsign).2⟩
    have hruns := hagree.1 hended
    rw [hsigns, endedSince_append, endedSince_cons, List.forall_mem_cons] at hruns
    rcases hruns with (⟨hannounces, -⟩ | hlater) | ⟨-, hquiet, -⟩
    · cases hannounces
    · obtain ⟨before, sign, after, rfl, hannounces, -⟩ := hlater
      exact (hunsettled sign (by simp)).1 hannounces
    · simp [hdispatched] at hquiet
  · intro hsettled
    refine ⟨fun hended => ?_, EndedSince.of_runs⟩
    by_contra hruns
    obtain ⟨earlier, command, later, hsigns, hkind, hearlier, hlater⟩ :=
      exists_run_of_not_endedSince hended hruns
    obtain ⟨sign, hsign, hsettles⟩ := hsettled earlier command later hsigns hkind hearlier
    obtain ⟨hsilent, hquiet⟩ := hlater sign hsign
    simp [hsilent, hquiet] at hsettles

end

namespace Dialogue

/-- The texts that are heard: of completed responses, and those that come while nothing is in flight. -/
def heard (stimulus : Stimulus) (dialogue : Dialogue) : List Text :=
  match stimulus with
  | .output chunk =>
    match (dialogue.channel.feed chunk).1 with
    | .unsolicited text => [text]
    | .pending _ => []
    | .complete completion => [completion.response.text]
  | .submit .. | .enqueue _ | .abort | .close | .allowWriting _ => []

/-- What is heard, and then who takes the slot. -/
def signs (stimulus : Stimulus) (dialogue : Dialogue) : List Sign :=
  (dialogue.heard stimulus).map .heard ++ (dialogue.events stimulus).filterMap Sign.ofEvent?

/-- The signs of a run. -/
def allSigns : List Stimulus → Dialogue → List Sign
  | [], _ => []
  | stimulus :: stimuli, dialogue =>
    dialogue.signs stimulus ++ (dialogue.perform stimulus).allSigns stimuli

variable {dialogue : Dialogue} {stimulus : Stimulus} {command : Command}

/-! ### One stimulus -/

theorem not_submitted_mem_dispatchEvents (waiting : List Command) (after : Channel) :
    .submitted command ∉ dispatchEvents waiting after := by
  rw [dispatchEvents]
  split
  · simp
  · cases waiting <;> split <;> simp [lossEvents]

/-- Only a command given in the foreground takes the slot in the foreground. -/
theorem exists_submit_of_mem_events (hmem : .submitted command ∈ dialogue.events stimulus) :
    ∃ ticket, stimulus = .submit command ticket := by
  cases stimulus with
  | submit other ticket =>
    rw [events] at hmem
    split at hmem
    · cases List.mem_singleton.1 hmem
      exact ⟨ticket, rfl⟩
    · cases hmem
  | enqueue other =>
    rw [events] at hmem
    split at hmem
    · rcases List.mem_cons.1 hmem with haccepted | hoffer
      · cases haccepted
      · split at hoffer
        · exact absurd hoffer (not_submitted_mem_dispatchEvents _ _)
        · cases hoffer
    · cases hmem
  | output chunk =>
    rw [events] at hmem
    split at hmem
    · split at hmem <;> simp at hmem
    · cases hmem
    · rcases List.mem_cons.1 hmem with hleft | hmem
      · cases hleft
      · rcases List.mem_append.1 hmem with hsettle | hoffer
        · rw [settleEvents] at hsettle
          split at hsettle <;> simp at hsettle
        · exact absurd hoffer (not_submitted_mem_dispatchEvents _ _)
  | abort => simp [events] at hmem
  | close => simp [events] at hmem
  | allowWriting accepting => cases hmem

/-- A command that comes out of the queue changes nothing. -/
theorem foldl_next_of_not_submitted {noted : List Event}
    (hnot : ∀ command, .submitted command ∉ noted) (exited : Bool) :
    (noted.filterMap Sign.ofEvent?).foldl Sign.next exited = exited := by
  induction noted with
  | nil => rfl
  | cons event noted ih =>
    have hothers := ih fun command hmem => hnot command (List.mem_cons_of_mem _ hmem)
    cases event with
    | submitted command => exact absurd List.mem_cons_self (hnot command)
    | dispatched command =>
      simpa [Sign.ofEvent?, Sign.next, Sign.runsInForeground, Sign.announces] using hothers
    | left departure => exact hothers
    | accepted command => exact hothers
    | dropped command cause => exact hothers
    | closed => exact hothers

theorem foldl_next_heard (texts : List Text) (exited : Bool) :
    (texts.map Sign.heard).foldl Sign.next exited = (exited || texts.any announcesExit) := by
  induction texts generalizing exited with
  | nil => simp
  | cons text texts ih =>
    rw [List.map_cons, List.foldl_cons, ih, List.any_cons, ← Bool.or_assoc]
    rfl

/-- Unless a command is given in the foreground, it is only what is heard that matters. -/
theorem foldl_next_signs (hnot : ∀ command ticket, stimulus ≠ .submit command ticket)
    (dialogue : Dialogue) : (dialogue.signs stimulus).foldl Sign.next dialogue.exited =
      (dialogue.exited || (dialogue.heard stimulus).any announcesExit) := by
  have hforeground : ∀ command, .submitted command ∉ dialogue.events stimulus := by
    intro command hmem
    obtain ⟨ticket, heq⟩ := exists_submit_of_mem_events hmem
    exact hnot command ticket heq
  rw [signs, List.foldl_append, foldl_next_of_not_submitted hforeground, foldl_next_heard]

theorem exited_submit (command : Command) (ticket : Option Nat) (dialogue : Dialogue) :
    (dialogue.submit command ticket).2.exited =
      (dialogue.signs (.submit command ticket)).foldl Sign.next dialogue.exited := by
  have hsigns : dialogue.signs (.submit command ticket) =
      (dialogue.events (.submit command ticket)).filterMap Sign.ofEvent? := rfl
  rw [hsigns, events, submit]
  cases dialogue.channel.issue command ticket with
  | mk result channel =>
    cases result with
    | ok _ =>
      have hnext : (if command.kind = .run then false else dialogue.exited) =
          Sign.next dialogue.exited (.submitted command) := by
        by_cases hkind : command.kind = .run <;>
          simp [Sign.next, Sign.runsInForeground, Sign.announces, hkind]
      exact hnext
    | error e => rfl

theorem exited_enqueue (command : Command) (dialogue : Dialogue) :
    (dialogue.enqueue command).2.exited = dialogue.exited := by
  rw [enqueue]
  split <;> rfl

theorem exited_dispatchNext (dialogue : Dialogue) : dialogue.dispatchNext.exited = dialogue.exited := by
  rw [dispatchNext]
  split <;> rfl

theorem exited_onOutput (chunk : Text) (dialogue : Dialogue) : (dialogue.onOutput chunk).2.exited =
    (dialogue.exited || (dialogue.heard (.output chunk)).any announcesExit) := by
  rw [onOutput, heard]
  cases dialogue.channel.feed chunk with
  | mk fed channel =>
    cases fed with
    | unsolicited text =>
      cases hblank : (trim text).isEmpty with
      | true =>
        have hsilent := announcesExit_of_blank (List.isEmpty_iff.1 hblank)
        simp [hblank, hsilent]
      | false => cases hexit : announcesExit text <;> simp [hblank, hexit, markExited]
    | pending text => simp
    | complete completion => simp [complete_eq, exited_dispatchNext, settle]

/-- Each stimulus leaves the target as its signs have it. -/
theorem exited_perform (stimulus : Stimulus) (dialogue : Dialogue) :
    (dialogue.perform stimulus).exited = (dialogue.signs stimulus).foldl Sign.next dialogue.exited := by
  cases stimulus with
  | submit command ticket => exact exited_submit command ticket dialogue
  | enqueue command =>
    rw [foldl_next_signs (by simp), perform, exited_enqueue]
    exact (Bool.or_false _).symm
  | output chunk =>
    rw [foldl_next_signs (by simp)]
    exact exited_onOutput chunk dialogue
  | abort =>
    rw [foldl_next_signs (by simp)]
    exact (Bool.or_false _).symm
  | close =>
    rw [foldl_next_signs (by simp)]
    exact (Bool.or_false _).symm
  | allowWriting accepting =>
    rw [foldl_next_signs (by simp)]
    exact (Bool.or_false _).symm

/-! ### A whole run -/

theorem exited_performAll (stimuli : List Stimulus) (dialogue : Dialogue) :
    (dialogue.performAll stimuli).exited =
      (dialogue.allSigns stimuli).foldl Sign.next dialogue.exited := by
  induction stimuli generalizing dialogue with
  | nil => rfl
  | cons stimulus stimuli ih =>
    rw [allSigns, List.foldl_append, ← exited_perform]
    exact ih (dialogue.perform stimulus)

/-- The target counts as ended exactly if its end has been announced since it was last run in the
    foreground. Since it was last run at all is what it ought to be: that is never missed, and it is met
    exactly if every run that came out of the queue found the target not ended, or was followed by an
    announcement or a run in the foreground. -/
theorem exited_iff_endedSince (hstart : dialogue.exited = false) (stimuli : List Stimulus) :
    ((dialogue.performAll stimuli).exited = true ↔
      EndedSince Sign.runsInForeground (dialogue.allSigns stimuli)) ∧
    (EndedSince Sign.runs (dialogue.allSigns stimuli) →
      (dialogue.performAll stimuli).exited = true) ∧
    (((dialogue.performAll stimuli).exited = true ↔
        EndedSince Sign.runs (dialogue.allSigns stimuli)) ↔
      ∀ earlier command later, dialogue.allSigns stimuli = earlier ++ .dispatched command :: later →
        command.kind = .run → EndedSince Sign.runsInForeground earlier →
        ∃ sign ∈ later, sign.announces = true ∨ sign.runsInForeground = true) := by
  have hexited : (dialogue.performAll stimuli).exited = true ↔
      EndedSince Sign.runsInForeground (dialogue.allSigns stimuli) := by
    rw [exited_performAll, foldl_next, hstart]
    simp
  refine ⟨hexited, ?_, ?_⟩
  · intro hruns
    exact hexited.2 hruns.of_runs
  · rw [hexited]
    exact endedSince_runs_iff

/-- The end is announced in the response to a command, and a run in the foreground takes it back. -/
theorem exited_iff_endedSince_run_anew :
    let start := attached ⟨["(gdb) ".toList]⟩
    let once : List Stimulus := [.submit (.ofText "run".toList true) none,
      .output "[Inferior 1 (process 4242) exited normally]\n(gdb) ".toList]
    let twice : List Stimulus := once ++ [.submit (.ofText "run".toList true) none]
    start.exited = false ∧ EndedSince Sign.runsInForeground (start.allSigns once) ∧
      ¬ EndedSince Sign.runsInForeground (start.allSigns twice) := by
  intro start once twice
  have hstart : start.exited = false := rfl
  refine ⟨hstart, ?_, ?_⟩
  · exact (exited_iff_endedSince hstart once).1.1 (by decide +kernel)
  · rw [← (exited_iff_endedSince hstart twice).1]
    decide +kernel

/-- A run from the queue, with the slot free or behind another command, leaves the target ended. -/
theorem exited_after_queued_run :
    let notice : Stimulus := .output "The program is not being run.\n".toList
    let run : Command := .ofText "run".toList true
    let atOnce : List Stimulus := [notice, .enqueue run]
    let behind : List Stimulus := [notice, .submit (.ofText "print x".toList true) none, .enqueue run,
      .output "$1 = 1\n(gdb) ".toList]
    let start := attached ⟨["(gdb) ".toList]⟩
    ∀ stimuli ∈ [atOnce, behind], ¬ ((start.performAll stimuli).exited = true ↔
      EndedSince Sign.runs (start.allSigns stimuli)) := by
  decide +kernel

end Dialogue
end DebugClient
