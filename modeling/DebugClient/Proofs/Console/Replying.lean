import DebugClient.Proofs.Console.Display

/-!
Whole replies. A dialogue that takes in a reply from its first character to the end of its prompt, in
whatever chunks, has completed the command in flight with the body of the reply and given the slot to
the next command.
-/

namespace DebugClient
namespace Dialogue
open Channel PromptDetector Text

/-- The dialogue when the command in flight has been answered with this body. -/
def answered (flight : InFlight) (body : Text) (dialogue : Dialogue) : Dialogue :=
  ((dialogue.vacate []).settle (completion flight body none)).dispatchNext

variable {detector : PromptDetector} {dialogue : Dialogue} {flight : InFlight}
  {stem gap body ahead : Text} {chunks : List Text} {outlet : Outlet}

/-- When nothing is awaited nothing is dropped. -/
theorem skipAwaited_of_awaited_eq_nil {channel : Channel} (hawaited : channel.awaited = [])
    (chunk : Text) : channel.skipAwaited chunk = (chunk, channel) := by
  obtain ⟨outlet, detector, carry, inFlight, queue, awaited, answers⟩ := channel
  cases hawaited
  simp [skipAwaited, sharedLength]

/-! ### A reply to the command in flight -/

/-- As long as the debugger can be written to, the free slot goes to the oldest command that waits. -/
theorem dispatchNext_of_accepting (hslot : dialogue.channel.inFlight = none)
    (houtlet : dialogue.channel.outlet = some outlet) (haccepting : outlet.accepting = true) :
    dialogue.dispatchNext = match dialogue.channel.queue with
      | [] => dialogue
      | command :: queue =>
        { dialogue with channel := { dialogue.channel with queue }.grant command none } := by
  cases hqueue : dialogue.channel.queue with
  | nil => exact dispatchNext_of_queue_eq_nil hslot hqueue
  | cons command queue =>
    exact dispatchNext_of_queue_eq_cons hslot hqueue
      (canWrite_eq_true_iff.2 ⟨outlet, houtlet, .inr haccepting⟩)

theorem settle_vacate (missing : Text) (tail : Option Text) :
    let settled := (dialogue.vacate []).settle (completion flight body none)
    (dialogue.vacate missing).settle (completion flight body tail) =
      { settled with channel := { settled.channel with awaited := missing } } := by
  have hcatalogue (missing : Text) (response : Response) :
      ((dialogue.vacate missing).refreshCatalogue response).catalogue =
        (dialogue.refreshCatalogue response).catalogue := by
    rw [refreshCatalogue, refreshCatalogue]
    split <;> rfl
  simp only [settle, waitingAfter, verdict_vacate, hcatalogue]
  rfl

/-- Whether the end of the gap is still awaited when the slot is given away makes no difference. -/
theorem answered_of_awaited (flight : InFlight) (body : Text)
    (houtlet : dialogue.channel.outlet = some outlet) (haccepting : outlet.accepting = true)
    (missing : Text) (tail : Option Text) :
    let now := ((dialogue.vacate missing).settle (completion flight body tail)).dispatchNext
    now.channel.awaited = missing ∧ now.channel.carry = {} ∧
      now.channel.detector = dialogue.channel.detector ∧
      { now with channel := { now.channel with awaited := [] } } = dialogue.answered flight body := by
  intro now
  have hnow : now = _ := dispatchNext_of_accepting rfl houtlet haccepting
  have hanswered : dialogue.answered flight body = _ :=
    dispatchNext_of_accepting rfl houtlet haccepting
  rw [hnow, hanswered, settle_vacate]
  dsimp only
  split
  · exact ⟨rfl, rfl, rfl, rfl⟩
  · exact ⟨rfl, rfl, rfl, rfl⟩

/-- A reply to the command in flight, of which `ahead` is still to come up to the end of the stem,
    completes it however it is cut. -/
theorem onOutputs_of_ahead (hinstalled : detector.Installed stem gap)
    (hframes : detector.Frames stem body) (hdetector : dialogue.channel.detector = detector)
    (houtlet : dialogue.channel.outlet = some outlet) (haccepting : outlet.accepting = true)
    (hslot : dialogue.channel.inFlight = some flight) (hawaited : dialogue.channel.awaited = [])
    (htext : dialogue.channel.carry.text ++ ahead = body ++ stem) (hahead : ahead ≠ [])
    (hchunks : chunks.flatten = ahead ++ gap) :
    (dialogue.onOutputs chunks).2 = dialogue.answered flight body := by
  induction chunks generalizing dialogue ahead with
  | nil =>
    rw [List.flatten_nil] at hchunks
    exact absurd (List.append_eq_nil_iff.1 hchunks.symm).1 hahead
  | cons chunk chunks ih =>
    have hskip := skipAwaited_of_awaited_eq_nil hawaited chunk
    have hcut : chunk ++ chunks.flatten = ahead ++ gap ++ [] := by
      rw [← List.flatten_cons, hchunks, List.append_nil]
    have hlength : chunk.length ≤ (ahead ++ gap).length := by
      have := congrArg List.length hcut
      simp only [List.length_append, List.length_nil] at this ⊢
      omega
    rw [onOutputs]
    dsimp only
    rcases exists_cut hcut hlength with ⟨more, hmore, rfl, hlater⟩ |
      ⟨arrived, missing, hgap, rfl, hlater⟩
    · rw [← List.append_assoc] at htext
      have hshort : dialogue.channel.carry.text ++ chunk ≠ body ++ stem := by
        intro heq
        rw [heq] at htext
        exact hmore (by simpa using htext)
      have hnone :
          dialogue.channel.detector.promptMatch? (dialogue.channel.carry.text ++ chunk) = none := by
        rw [hdetector]
        exact hframes.early _ ⟨more, htext⟩ hshort
      obtain ⟨out, carry, hfeed, hcarry, -⟩ := feed_of_promptMatch?_eq_none hslot hskip hnone
      let next : Dialogue := { dialogue with channel := { dialogue.channel with carry } }
      have honOutput : (dialogue.onOutput chunk).2 = next := by
        rw [onOutput, hfeed]
      have htext' : next.channel.carry.text ++ more = body ++ stem := by
        dsimp only [next]
        rw [hcarry, htext]
      rw [List.append_nil] at hlater
      rw [honOutput]
      exact ih hdetector houtlet hslot hawaited htext' hmore hlater
    · have hfound : dialogue.channel.detector.promptMatch?
          (dialogue.channel.carry.text ++ (ahead ++ arrived)) =
          some { start := byteLength body, awaited := missing } := by
        rw [hdetector, ← List.append_assoc, htext]
        exact hframes.promptMatch?_append_gap hinstalled hgap
      have hfed := feed_of_promptMatch?_eq_some hslot hskip hfound
      rw [← List.append_assoc, htext, List.append_assoc, takeBytes_append] at hfed
      obtain ⟨tail, honOutput⟩ : ∃ tail, (dialogue.onOutput (ahead ++ arrived)).2 =
          ((dialogue.vacate missing).settle (completion flight body tail)).dispatchNext := by
        rw [onOutput, hfed]
        exact ⟨_, congrArg Prod.snd (complete_eq (completion flight body _) (dialogue.vacate missing))⟩
      obtain ⟨hmissing, hcarry, hsame, hanswered⟩ :=
        answered_of_awaited flight body houtlet haccepting missing tail
      have hnil : dialogue.channel.detector.promptMatch? [] = none := by
        rw [hdetector]
        exact hframes.early [] List.nil_prefix (by simp [hinstalled.stem_ne_nil])
      rw [honOutput, ← hanswered]
      refine (onOutputs_of_awaited (fun _ => ⟨hcarry, ?_⟩) ?_).2
      · rw [hsame]
        exact hnil
      · rw [hmissing, hlater, List.append_nil, List.append_nil]

/-- A reply that is taken in from its first character on completes the command in flight, in whatever
    chunks it comes. -/
theorem onOutputs_of_reply (hinstalled : detector.Installed stem gap)
    (hframes : detector.Frames stem body) (hdetector : dialogue.channel.detector = detector)
    (houtlet : dialogue.channel.outlet = some outlet) (haccepting : outlet.accepting = true)
    (hslot : dialogue.channel.inFlight = some flight) (hcarry : dialogue.channel.carry = {})
    (hawaited : dialogue.channel.awaited = []) (hchunks : chunks.flatten = body ++ stem ++ gap) :
    (dialogue.onOutputs chunks).2 = dialogue.answered flight body := by
  have hahead : body ++ stem ≠ [] := by simp [hinstalled.stem_ne_nil]
  have htext : dialogue.channel.carry.text ++ (body ++ stem) = body ++ stem := by
    rw [hcarry]
    rfl
  exact onOutputs_of_ahead hinstalled hframes hdetector houtlet haccepting hslot hawaited htext hahead
    hchunks

end Dialogue
end DebugClient
