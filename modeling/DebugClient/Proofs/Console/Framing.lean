import DebugClient.Proofs.Console.Reception
import DebugClient.Proofs.Console.Slot

/-!
Framing of a whole conversation. The debugger answers command after command, and its output is cut
into chunks with no regard to where replies end. As long as it waits for the next command before it
goes on, each command is completed by exactly the body of its own reply, wherever the cuts lie.
-/

namespace DebugClient

/-- The response that a chunk completes. -/
def Feed.response? : Feed → Option Response
  | .complete completion => some completion.response
  | _ => none

namespace Channel
open Text

/-- The command comes to have the slot: it is issued, or it is dispatched from the queue. -/
inductive Takes (command : Command) (before after : Channel) : Prop where
  | issued (ticket : Option Nat) (hissue : before.issue command ticket = (.ok (), after))
  | dispatched (hdispatch : before.dispatchNext = (.ok (some command), after))

/-- Commands take the slot one after another, each as soon as the slot is free, while output arrives in
    chunks. At any time background commands may join the queue and answers may be handed out. -/
inductive Converses : Channel → List Command → List Text → List Feed → Channel → Prop where
  | done {channel : Channel} : Converses channel [] [] [] channel
  | takes {channel next last : Channel} {command : Command} {commands : List Command}
      {chunks : List Text} {feeds : List Feed} (htakes : Takes command channel next)
      (hrest : Converses next commands chunks feeds last) :
      Converses channel (command :: commands) chunks feeds last
  | feeds {channel next last : Channel} {commands : List Command} {chunk : Text}
      {chunks : List Text} {fed : Feed} {feeds : List Feed}
      (hready : channel.inFlight = none → commands = []) (hfeed : channel.feed chunk = (fed, next))
      (hrest : Converses next commands chunks feeds last) :
      Converses channel commands (chunk :: chunks) (fed :: feeds) last
  | queues {channel last : Channel} {commands : List Command} {chunks : List Text}
      {feeds : List Feed} (command : Command)
      (hrest : Converses (channel.enqueue command) commands chunks feeds last) :
      Converses channel commands chunks feeds last
  | responds {channel last : Channel} {commands : List Command} {chunks : List Text}
      {feeds : List Feed} (completion : Completion)
      (hrest : Converses (channel.respond completion) commands chunks feeds last) :
      Converses channel commands chunks feeds last

/-- What the debugger puts out when it answers with these bodies. -/
def transcript (stem gap : Text) (bodies : List Text) : Text :=
  bodies.flatMap fun body => body ++ stem ++ gap

/-- The places where the stems of the prompts end, in a transcript that begins at `offset`. -/
def stemEnds (stem gap : Text) : Nat → List Text → List Nat
  | _, [] => []
  | offset, body :: bodies =>
    (offset + (body ++ stem).length) ::
      stemEnds stem gap (offset + (body ++ stem ++ gap).length) bodies

/-- Behind each of these places there is a cut between two chunks before the gap is over. -/
def CutWithinGaps (gap : Text) (stops : List Nat) (chunks : List Text) : Prop :=
  ∀ stop ∈ stops, ∃ front, front <+: chunks ∧ stop ≤ front.flatten.length ∧
    front.flatten.length ≤ stop + gap.length

instance (gap : Text) (stops : List Nat) (chunks : List Text) :
    Decidable (CutWithinGaps gap stops chunks) :=
  decidable_of_iff (∀ stop ∈ stops, ∃ front ∈ chunks.inits, stop ≤ front.flatten.length ∧
    front.flatten.length ≤ stop + gap.length) (by simp only [CutWithinGaps, List.mem_inits])

/-- The responses that commands get from these bodies. -/
def responses (commands : List Command) (bodies : List Text) : List Response :=
  List.zipWith (fun command body => ⟨command, body, command.display⟩) commands bodies

variable {channel next : Channel} {command : Command} {commands : List Command}
  {stem gap rest later chunk : Text} {bodies chunks : List Text} {stops : List Nat}
  {due : List Response}

/-! ### Places in a transcript -/

theorem stemEnds_sub {offset n : Nat} (hle : n ≤ offset) :
    (stemEnds stem gap offset bodies).map (· - n) = stemEnds stem gap (offset - n) bodies := by
  induction bodies generalizing offset with
  | nil => rfl
  | cons body bodies ih =>
    have hfirst : offset + (body ++ stem).length - n = offset - n + (body ++ stem).length := by omega
    have hrest : offset + (body ++ stem ++ gap).length - n =
        offset - n + (body ++ stem ++ gap).length := by omega
    rw [stemEnds, List.map_cons, ih (by omega), hfirst, hrest]
    rfl

theorem le_of_mem_stemEnds {offset stop : Nat} (hmem : stop ∈ stemEnds stem gap offset bodies) :
    offset + stem.length ≤ stop := by
  induction bodies generalizing offset with
  | nil => cases hmem
  | cons body bodies ih =>
    rcases List.mem_cons.1 hmem with rfl | hrest
    · simp only [List.length_append]
      omega
    · have := ih hrest
      omega

theorem CutWithinGaps.tail (hcuts : CutWithinGaps gap stops (chunk :: chunks))
    (hstops : ∀ stop ∈ stops, 0 < stop ∧ chunk.length ≤ stop) :
    CutWithinGaps gap (stops.map (· - chunk.length)) chunks := by
  intro near hnear
  obtain ⟨stop, hstop, rfl⟩ := List.mem_map.1 hnear
  obtain ⟨front, hfront, hlow, hhigh⟩ := hcuts stop hstop
  obtain ⟨hpositive, hbehind⟩ := hstops stop hstop
  rcases List.prefix_cons_iff.1 hfront with rfl | ⟨front', rfl, hfront'⟩
  · simp only [List.flatten_nil, List.length_nil] at hlow
    omega
  · simp only [List.flatten_cons, List.length_append] at hlow hhigh
    exact ⟨front', hfront', by omega, by omega⟩

section
variable {first : Text} (hfirst : first ≠ [])
  (hcuts : CutWithinGaps gap (first.length :: stemEnds stem gap (first ++ gap).length bodies)
    (chunk :: chunks))
include hfirst hcuts

/-- A chunk that reaches the first place ends before the gap behind it does. -/
theorem CutWithinGaps.length_le : chunk.length ≤ (first ++ gap).length := by
  obtain ⟨front, hfront, hlow, hhigh⟩ := hcuts _ List.mem_cons_self
  have hpositive := List.length_pos_of_ne_nil hfirst
  rw [List.length_append]
  rcases List.prefix_cons_iff.1 hfront with rfl | ⟨front', rfl, hfront'⟩
  · simp only [List.flatten_nil, List.length_nil] at hlow
    omega
  · simp only [List.flatten_cons, List.length_append] at hhigh
    omega

theorem CutWithinGaps.advance {ahead : Text} (hahead : first = chunk ++ ahead) :
    CutWithinGaps gap (ahead.length :: stemEnds stem gap (ahead ++ gap).length bodies) chunks := by
  have hpositive := List.length_pos_of_ne_nil hfirst
  have hlength : first.length = chunk.length + ahead.length := by rw [hahead, List.length_append]
  have h := hcuts.tail <| by
    intro stop hstop
    rcases List.mem_cons.1 hstop with rfl | hlater
    · omega
    · have := le_of_mem_stemEnds hlater
      rw [List.length_append] at this
      omega
  rw [List.map_cons, stemEnds_sub (by rw [List.length_append]; omega)] at h
  convert h using 3
  · omega
  · simp only [List.length_append]
    omega

theorem CutWithinGaps.pass {arrived missing : Text} (hchunk : chunk = first ++ arrived)
    (hgap : gap = arrived ++ missing) :
    CutWithinGaps gap (stemEnds stem gap missing.length bodies) chunks := by
  have hpositive := List.length_pos_of_ne_nil hfirst
  have hlength : (first ++ gap).length = chunk.length + missing.length := by
    simp [hchunk, hgap, Nat.add_assoc]
  have hlater : CutWithinGaps gap (stemEnds stem gap (first ++ gap).length bodies)
      (chunk :: chunks) := fun stop hstop => hcuts stop (List.mem_cons_of_mem _ hstop)
  have h := hlater.tail <| by
    intro stop hstop
    have := le_of_mem_stemEnds hstop
    rw [List.length_append] at this hlength
    omega
  rw [stemEnds_sub (by omega), hlength, Nat.add_sub_cancel_left] at h
  exact h

end

/-! ### Taking the slot -/

/-- A command that takes the slot finds the carry buffer empty, and leaves what is awaited of the last
    prompt as it was. -/
theorem Takes.slot (htakes : Takes command channel next) :
    channel.inFlight = none ∧ ∃ outlet queue ticket, next = { channel with
      outlet, queue, carry := {}, inFlight := some { command, ticket } } := by
  cases htakes with
  | issued ticket hissue =>
    obtain ⟨hslot, -, rfl⟩ := issue_eq_ok_iff.1 hissue
    exact ⟨hslot, _, channel.queue, ticket, rfl⟩
  | dispatched hdispatch =>
    obtain ⟨hslot, queue, -, -, rfl⟩ := dispatchNext_eq_ok_some_iff.1 hdispatch
    exact ⟨hslot, _, queue, none, rfl⟩

/-! ### A conversation in step with the output -/

/-- The channel is in step with the output still to come: `rest` of it is left, `due` are the responses
    that it will complete, and the stems in it end at `stops`. -/
inductive InStep (stem gap : Text) (channel : Channel) (commands : List Command) :
    List Response → Text → List Nat → Prop where
  /-- Between two commands, where part of the last gap may be awaited. -/
  | free {bodies : List Text} (hprimary : channel.detector.Primary stem gap)
      (hframes : ∀ body ∈ bodies, channel.detector.Frames stem body)
      (hslot : channel.inFlight = none) (hcarry : channel.carry = {})
      (hlength : commands.length = bodies.length) :
      InStep stem gap channel commands (responses commands bodies)
        (channel.awaited ++ transcript stem gap bodies)
        (stemEnds stem gap channel.awaited.length bodies)
  /-- In the middle of a reply. -/
  | receiving {flight : InFlight} {body ahead : Text} {bodies : List Text}
      (hreceives : channel.Receives flight stem gap body ahead)
      (hframes : ∀ body ∈ bodies, channel.detector.Frames stem body)
      (hlength : commands.length = bodies.length) :
      InStep stem gap channel commands
        (⟨flight.command, body, flight.command.display⟩ :: responses commands bodies)
        (channel.awaited ++ ahead ++ gap ++ transcript stem gap bodies)
        ((channel.awaited ++ ahead).length ::
          stemEnds stem gap (channel.awaited ++ ahead ++ gap).length bodies)

theorem InStep.take (hstep : InStep stem gap channel (command :: commands) due rest stops)
    (htakes : Takes command channel next) : InStep stem gap next commands due rest stops := by
  obtain ⟨hslot, outlet, queue, ticket, rfl⟩ := htakes.slot
  cases hstep with
  | @free bodies hprimary hframes _ _ hlength =>
    cases bodies with
    | nil => cases hlength
    | cons body bodies =>
      obtain ⟨hbody, hbodies⟩ := List.forall_mem_cons.1 hframes
      have hreceives : Receives { channel with
          outlet, queue, carry := {}, inFlight := some { command, ticket } }
          { command, ticket } stem gap body (body ++ stem) :=
        ⟨hprimary, hbody, rfl, rfl, by simp [hprimary.stem_ne_nil]⟩
      have h := InStep.receiving hreceives hbodies (Nat.succ.inj hlength)
      simpa [responses, transcript, stemEnds, List.append_assoc] using h
  | receiving hreceives =>
    rw [hreceives.inFlight] at hslot
    cases hslot

theorem respond_eq (completion : Completion) (channel : Channel) :
    ∃ answers, channel.respond completion = { channel with answers } := by
  obtain ⟨response, tail, ticket⟩ := completion
  cases ticket with
  | none => exact ⟨channel.answers, rfl⟩
  | some ticket => exact ⟨_, rfl⟩

/-- Background commands that join the queue and answers that are handed out change nothing. -/
theorem InStep.congr (hstep : InStep stem gap channel commands due rest stops)
    (hsame : ∃ queue answers, next = { channel with queue, answers }) :
    InStep stem gap next commands due rest stops := by
  obtain ⟨queue, answers, rfl⟩ := hsame
  cases hstep with
  | free hprimary hframes hslot hcarry hlength =>
    exact .free hprimary hframes hslot hcarry hlength
  | receiving hreceives hframes hlength =>
    obtain ⟨hprimary, hbody, hslot, htext, hahead⟩ := hreceives
    exact .receiving
      ⟨hprimary, hbody, hslot, htext, hahead⟩ hframes hlength

/-- A chunk keeps the channel in step. It completes at most the response that is due first, and it is
    no unsolicited output unless it is empty. -/
theorem InStep.feed (hstep : InStep stem gap channel commands due (chunk ++ later) stops)
    (hready : channel.inFlight = none → commands = [])
    (hcuts : CutWithinGaps gap stops (chunk :: chunks)) :
    ∃ fed next due' stops', channel.feed chunk = (fed, next) ∧
      InStep stem gap next commands due' later stops' ∧ CutWithinGaps gap stops' chunks ∧
      due = fed.response?.toList ++ due' ∧ (∀ text, fed = .unsolicited text → text = []) ∧
      next.outlet = channel.outlet := by
  generalize hrest : chunk ++ later = rest at hstep
  cases hstep with
  | @free bodies hprimary hframes hslot hcarry hlength =>
    have hbodies : bodies = [] := by simpa [hready hslot] using hlength.symm
    subst hbodies
    simp only [transcript, List.flatMap_nil, List.append_nil] at hrest
    have happend : chunk ++ later = channel.awaited ++ [] := by simpa using hrest
    have hskip := skipAwaited_of_append_eq happend
    have hlater : later = channel.awaited.drop chunk.length := by simp [← hrest]
    have hwithin : chunk.drop channel.awaited.length = [] := by simp [← hrest]
    have hfeed : channel.feed chunk =
        (.unsolicited [], { channel with awaited := channel.awaited.drop chunk.length }) := by
      rw [feed_of_inFlight_eq_none hslot hskip, hwithin]
    have h : InStep stem gap { channel with awaited := channel.awaited.drop chunk.length } commands
        (responses commands []) _ _ := .free hprimary (by simp) hslot hcarry hlength
    refine ⟨_, _, responses commands [], [], hfeed, ?_, by simp [CutWithinGaps], rfl, ?_, rfl⟩
    · simpa [transcript, stemEnds, hlater] using h
    · intro text htext
      cases htext
      rfl
  | @receiving flight body ahead bodies hreceives hframes hlength =>
    have hfirst : channel.awaited ++ ahead ≠ [] := by simp [hreceives.ahead_ne_nil]
    rcases exists_cut hrest (hcuts.length_le hfirst) with
      ⟨more, hmore, hshort, rfl⟩ | ⟨arrived, missing, hgap, rfl, rfl⟩
    · obtain ⟨out, carry, ahead', hfeed, hreceives', hsplit, -⟩ :=
        hreceives.feed_short hshort.symm hmore
      have h := InStep.receiving hreceives' hframes hlength
      rw [← hsplit] at h
      refine ⟨_, _, _, _, hfeed, h, hcuts.advance hfirst hshort, rfl, ?_, rfl⟩
      intro text htext
      cases htext
    · obtain ⟨tail, hfeed, -⟩ := hreceives.feed_whole hgap
      have h : InStep stem gap
          { channel with carry := {}, awaited := missing, inFlight := none } commands
          (responses commands bodies) _ _ := .free hreceives.primary hframes rfl rfl hlength
      refine ⟨_, _, _, _, hfeed, h, hcuts.pass hfirst rfl hgap, rfl, ?_, rfl⟩
      intro text htext
      cases htext

/-! ### The whole conversation -/

/-- However a channel in step goes on, it completes what is due, and it ends with nothing left over. -/
theorem InStep.outcome {feeds : List Feed} {last : Channel}
    (hconverses : Converses channel commands chunks feeds last)
    (hstep : InStep stem gap channel commands due chunks.flatten stops)
    (hcuts : CutWithinGaps gap stops chunks) :
    feeds.filterMap Feed.response? = due ∧ (∀ text, .unsolicited text ∈ feeds → text = []) ∧
      last.inFlight = none ∧ last.carry = {} ∧ last.awaited = [] := by
  induction hconverses generalizing due stops with
  | @done channel =>
    generalize hnil : ([] : List Text).flatten = rest at hstep
    cases hstep with
    | @free bodies hprimary hframes hslot hcarry hlength =>
      have hbodies : bodies = [] := List.eq_nil_of_length_eq_zero hlength.symm
      have hawaited : channel.awaited = [] := (List.append_eq_nil_iff.1 hnil.symm).1
      simp [hbodies, responses, hslot, hcarry, hawaited]
    | receiving hreceives =>
      simp [hreceives.ahead_ne_nil] at hnil
  | takes htakes hrest ih => exact ih (hstep.take htakes) hcuts
  | @feeds channel next _ _ chunk _ fed feeds hready hfeed hrest ih =>
    obtain ⟨fed', next', due', stops', hfeed', hnext, hcuts', hdue, hempty, -⟩ :=
      hstep.feed hready hcuts
    obtain ⟨rfl, rfl⟩ := Prod.mk.inj (hfeed.symm.trans hfeed')
    obtain ⟨hresponses, hunsolicited, hlast⟩ := ih hnext hcuts'
    refine ⟨?_, ?_, hlast⟩
    · rw [List.filterMap_cons, hdue, ← hresponses]
      cases fed.response? <;> rfl
    · intro text hmem
      rcases List.mem_cons.1 hmem with heq | hlater
      · exact hempty text heq.symm
      · exact hunsolicited text hlater
  | queues command hrest ih => exact ih (hstep.congr ⟨_, _, rfl⟩) hcuts
  | @responds channel _ _ _ _ completion hrest ih =>
    obtain ⟨answers, heq⟩ := respond_eq completion channel
    exact ih (hstep.congr ⟨_, answers, heq⟩) hcuts

/-- A channel in step that can write has a way to go on to the end. -/
theorem InStep.exists_converses {outlet : Outlet} (houtlet : channel.outlet = some outlet)
    (haccepting : outlet.accepting = true)
    (hstep : InStep stem gap channel commands due chunks.flatten stops)
    (hcuts : CutWithinGaps gap stops chunks) :
    ∃ feeds last, Converses channel commands chunks feeds last := by
  induction chunks generalizing channel outlet commands due stops with
  | nil =>
    generalize hnil : ([] : List Text).flatten = rest at hstep
    cases hstep with
    | @free bodies hprimary hframes hslot hcarry hlength =>
      cases bodies with
      | nil =>
        rw [List.eq_nil_of_length_eq_zero hlength]
        exact ⟨[], channel, .done⟩
      | cons body bodies =>
        simp [transcript, hprimary.stem_ne_nil] at hnil
    | receiving hreceives =>
      simp [hreceives.ahead_ne_nil] at hnil
  | cons chunk chunks ih =>
    have hgo : ∀ {channel : Channel} {outlet : Outlet} {commands : List Command},
        channel.outlet = some outlet → outlet.accepting = true →
        (channel.inFlight = none → commands = []) →
        InStep stem gap channel commands due (chunk :: chunks).flatten stops →
        ∃ feeds last, Converses channel commands (chunk :: chunks) feeds last := by
      intro channel outlet commands houtlet haccepting hready hstep
      obtain ⟨fed, next, due', stops', hfeed, hnext, hcuts', -, -, hsame⟩ := hstep.feed hready hcuts
      obtain ⟨feeds, last, hrest⟩ := ih (hsame.trans houtlet) haccepting hnext hcuts'
      exact ⟨fed :: feeds, last, .feeds hready hfeed hrest⟩
    by_cases hready : channel.inFlight = none → commands = []
    · exact hgo houtlet haccepting hready hstep
    · obtain ⟨hslot, hcommands⟩ := Classical.not_imp.1 hready
      cases commands with
      | nil => exact absurd rfl hcommands
      | cons command commands =>
        have hwrite : channel.canWrite command := by simp [canWrite, houtlet, haccepting]
        have htakes := Takes.issued none (issue_of_canWrite hslot hwrite)
        have hgranted : (channel.grant command none).outlet =
            some { outlet with written := outlet.written ++ line command } := by
          simp [grant, houtlet]
        obtain ⟨feeds, last, hrest⟩ := hgo hgranted haccepting (by simp [grant]) (hstep.take htakes)
        exact ⟨feeds, last, .takes htakes hrest⟩

/-- Whatever way a debugger's output is cut, each command of a conversation is completed exactly once
    and by its own reply. The debugger cannot answer a command before it has received it, so some cut
    falls behind each stem before its gap is over. Nothing of a gap is left in a response or reported
    as output that nobody asked for, and nothing is left over at the end. -/
theorem converses_framed (hprimary : channel.detector.Primary stem gap)
    (hslot : channel.inFlight = none) (hcarry : channel.carry = {}) (hawaited : channel.awaited = [])
    (hlength : commands.length = bodies.length)
    (hframes : ∀ body ∈ bodies, channel.detector.Frames stem body)
    (houtput : chunks.flatten = transcript stem gap bodies)
    (hcuts : CutWithinGaps gap (stemEnds stem gap 0 bodies) chunks) :
    (∀ outlet, channel.outlet = some outlet → outlet.accepting = true →
      ∃ feeds last, Converses channel commands chunks feeds last) ∧
    ∀ feeds last, Converses channel commands chunks feeds last →
      feeds.filterMap Feed.response? = responses commands bodies ∧
      (∀ text, .unsolicited text ∈ feeds → text = []) ∧
      last.inFlight = none ∧ last.carry = {} ∧ last.awaited = [] := by
  have hstep : InStep stem gap channel commands (responses commands bodies) chunks.flatten
      (stemEnds stem gap 0 bodies) := by
    have h := InStep.free hprimary hframes hslot hcarry hlength
    rwa [hawaited, List.nil_append, ← houtput] at h
  constructor
  · intro outlet houtlet haccepting
    exact hstep.exists_converses houtlet haccepting hcuts
  · intro feeds last hconverses
    exact hstep.outcome hconverses hcuts

/-- The gap of the first prompt arrives in two pieces, the second of them in front of the next reply. -/
theorem converses_framed_split_gap :
    ∃ feeds last,
      Converses (.attached ⟨[['#', '>', ' ', ' '], ['>', ' ']]⟩)
        [.ofText ['s'] true, .ofText ['n'] false]
        [['4'], ['#', '\n', '#'], ['>', ' '], [' ', '5', '#', '>', ' ', ' ']] feeds last ∧
      feeds.filterMap Feed.response? =
        [⟨.ofText ['s'] true, ['4', '#', '\n'], true⟩, ⟨.ofText ['n'] false, ['5'], false⟩] ∧
      last.awaited = [] := by
  have hprimary : (Channel.attached ⟨[['#', '>', ' ', ' '], ['>', ' ']]⟩).detector.Primary
      ['#', '>'] [' ', ' '] := ⟨⟨_, rfl⟩, by decide, by decide, by simp [PromptDetector.isGap]⟩
  have hlength : [Command.ofText ['s'] true, .ofText ['n'] false].length =
      [['4', '#', '\n'], ['5']].length := rfl
  have houtput : [['4'], ['#', '\n', '#'], ['>', ' '], [' ', '5', '#', '>', ' ', ' ']].flatten =
      transcript ['#', '>'] [' ', ' '] [['4', '#', '\n'], ['5']] := by decide
  obtain ⟨hexists, hall⟩ :=
    converses_framed hprimary rfl rfl rfl hlength (by decide) houtput (by decide)
  obtain ⟨feeds, last, hconverses⟩ := hexists {} rfl rfl
  obtain ⟨hresponses, -, -, -, hawaited⟩ := hall feeds last hconverses
  exact ⟨feeds, last, hconverses, hresponses, hawaited⟩

end Channel
end DebugClient
