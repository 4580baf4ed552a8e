import DebugClient.Proofs.Console.Prompt
import DebugClient.Proofs.Text.Joining

/-!
Which buffers end in a prompt. A sentinel is recognised without its trailing white space and with any
spaces and tabs behind it, where it starts first of all. As it is written it is therefore recognised
if and only if spaces and tabs are all the white space that it ends with.
-/

namespace DebugClient.PromptDetector
open Text

/-- Behind `front` stands the sentinel without its trailing white space, and then nothing but spaces and
    tabs. -/
def EndsIn (sentinel front buffer : Text) : Prop :=
  ∃ gap, (∀ c ∈ gap, isGap c) ∧ buffer = front ++ trimEnd sentinel ++ gap

variable {sentinels : List Text} {sentinel other front body buffer : Text} {found : PromptMatch}

/-! ### Sentinels other than blank -/

theorem mem_ofSentinels_iff :
    sentinel ∈ (ofSentinels sentinels).sentinels ↔ sentinel ∈ sentinels ∧ ¬ IsGap sentinel := by
  rw [ofSentinels, List.mem_filter, IsGap, ← trim_eq_nil_iff]
  simp

theorem trimEnd_ne_nil (hfirm : ¬ IsGap sentinel) : trimEnd sentinel ≠ [] := by
  intro hnil
  obtain ⟨gap, hgap, heq⟩ := exists_eq_trimEnd sentinel
  rw [hnil, List.nil_append] at heq
  exact hfirm (heq ▸ hgap)

/-- The last character in front of the trailing white space. -/
theorem getLast?_append_trimEnd (hfirm : ¬ IsGap sentinel) (front : Text) :
    ∀ c ∈ (front ++ trimEnd sentinel).getLast?, isBlank c = false := by
  rw [List.getLast?_append_of_ne_nil _ (trimEnd_ne_nil hfirm)]
  exact getLast?_not_blank_of_trimEnd_eq (trimEnd_trimEnd sentinel)

/-! ### The match of one sentinel -/

theorem matchSentinel?_eq_some_iff (hfirm : ¬ IsGap sentinel) :
    matchSentinel? buffer sentinel = some found ↔
      ∃ front gap, (∀ c ∈ gap, isGap c) ∧ buffer = front ++ trimEnd sentinel ++ gap ∧
        found = { start := byteLength front
                  awaited := (after? gap (sentinel.drop (trimEnd sentinel).length)).getD [] } := by
  constructor
  · intro hmatch
    obtain ⟨front, hbefore, rfl⟩ := Option.map_eq_some_iff.1 hmatch
    refine ⟨front, (buffer.reverse.takeWhile isGap).reverse, ?_, ?_, rfl⟩
    · intro c hc
      exact List.mem_takeWhile_imp (List.mem_reverse.1 hc)
    · rw [← before?_eq_some_iff.1 hbefore, ← List.reverse_append, List.takeWhile_append_dropWhile,
        List.reverse_reverse]
  · rintro ⟨front, gap, hgap, rfl, rfl⟩
    have hlast : ∀ c ∈ (front ++ trimEnd sentinel).getLast?, isGap c = false := by
      intro c hc
      have hblank := getLast?_append_trimEnd hfirm front c hc
      cases hisGap : isGap c with
      | false => rfl
      | true =>
        rw [isBlank_of_isGap hisGap] at hblank
        cases hblank
    have hbefore : before? (trimEnd sentinel) (front ++ trimEnd sentinel) = some front :=
      before?_eq_some_iff.2 rfl
    rw [matchSentinel?_append_gap hlast hgap, hbefore]
    rfl

/-- Something that is awaited completes the sentinel. -/
theorem append_awaited {gap awaited : Text} (hne : awaited ≠ [])
    (hawaited : (after? gap (sentinel.drop (trimEnd sentinel).length)).getD [] = awaited) :
    trimEnd sentinel ++ gap ++ awaited = sentinel := by
  obtain ⟨trailing, -, heq⟩ := exists_eq_trimEnd sentinel
  have hdrop := congrArg (List.drop (trimEnd sentinel).length) heq
  rw [List.drop_left] at hdrop
  rw [hdrop] at hawaited
  cases hafter : after? gap trailing with
  | none =>
    rw [hafter] at hawaited
    exact absurd hawaited.symm hne
  | some rest =>
    rw [hafter, Option.getD_some] at hawaited
    conv_rhs => rw [heq, after?_eq_some_iff.1 hafter, hawaited]
    rw [List.append_assoc]

/-- No sentinel is found in front of white space other than spaces and tabs. -/
theorem not_endsIn_of_not_isGap (hfirm : ¬ IsGap other) {trailing : Text} (htrailing : IsGap trailing)
    {c : Char} (hmem : c ∈ trailing) (hc : isGap c = false) :
    ¬ EndsIn other front (body ++ trailing) := by
  rintro ⟨gap, hgap, heq⟩
  rcases List.append_eq_append_iff.1 heq with ⟨more, hfront, rfl⟩ | ⟨more, -, rfl⟩
  · -- The white space reaches back to the end of the sentinel, which is no white space.
    have hmore : more ≠ [] := by
      rintro rfl
      rw [hgap c hmem] at hc
      cases hc
    have hlast := getLast?_append_trimEnd hfirm front
    rw [hfront, List.getLast?_append_of_ne_nil _ hmore] at hlast
    have hblank := htrailing _ (List.mem_append_left gap (List.getLast_mem hmore))
    rw [hlast _ (List.getLast?_eq_getLast_of_ne_nil hmore)] at hblank
    cases hblank
  · rw [hgap c (List.mem_append_right _ hmem)] at hc
    cases hc

/-! ### The match of a detector -/

/-- A sentinel that the buffer ends in is found there or before. -/
theorem exists_promptMatch? (hmem : sentinel ∈ sentinels) (hfirm : ¬ IsGap sentinel)
    (hends : EndsIn sentinel front buffer) :
    ∃ found, (ofSentinels sentinels).promptMatch? buffer = some found ∧
      found.start ≤ byteLength front := by
  obtain ⟨gap, hgap, hbuffer⟩ := hends
  have hmatch := (matchSentinel?_eq_some_iff hfirm).2 ⟨front, gap, hgap, hbuffer, rfl⟩
  have hcandidate := List.mem_filterMap.2 ⟨sentinel, mem_ofSentinels_iff.2 ⟨hmem, hfirm⟩, hmatch⟩
  cases hfirst : (ofSentinels sentinels).promptMatch? buffer with
  | none => simp [eq_nil_of_firstMatch_eq_none hfirst] at hcandidate
  | some found => exact ⟨found, rfl, (mem_and_start_le_of_firstMatch hfirst).2 _ hcandidate⟩

/-- What is found is one of the sentinels, and it lacks what is awaited. -/
theorem exists_endsIn (hfound : (ofSentinels sentinels).promptMatch? buffer = some found) :
    ∃ front, byteLength front = found.start ∧
      (∃ sentinel ∈ sentinels, ¬ IsGap sentinel ∧ EndsIn sentinel front buffer) ∧
      (found.awaited ≠ [] → ∃ prompt, buffer = front ++ prompt ∧
        prompt ++ found.awaited ∈ sentinels) := by
  obtain ⟨sentinel, hlisted, hmatch⟩ :=
    List.mem_filterMap.1 (mem_and_start_le_of_firstMatch hfound).1
  obtain ⟨hmem, hfirm⟩ := mem_ofSentinels_iff.1 hlisted
  obtain ⟨front, gap, hgap, hbuffer, rfl⟩ := (matchSentinel?_eq_some_iff hfirm).1 hmatch
  refine ⟨front, rfl, ⟨sentinel, hmem, hfirm, gap, hgap, hbuffer⟩, ?_⟩
  intro hne
  refine ⟨trimEnd sentinel ++ gap, by rw [hbuffer, List.append_assoc], ?_⟩
  rwa [append_awaited hne rfl]

/-- Every configured sentinel is recognised without its trailing white space. As it is written it is
    recognised if that white space is spaces and tabs, and never otherwise. What is recognised is always
    a configured sentinel, the one that starts first, and what is awaited is the rest of one. -/
theorem recognises_configured (sentinels : List Text) :
    (∀ sentinel ∈ sentinels, ¬ IsGap sentinel → ∀ body,
      (∃ found, (ofSentinels sentinels).promptMatch? (body ++ trimEnd sentinel) = some found ∧
        found.start ≤ byteLength body) ∧
      ((∀ c ∈ sentinel.drop (trimEnd sentinel).length, isGap c) →
        ∃ found, (ofSentinels sentinels).promptMatch? (body ++ sentinel) = some found ∧
          found.start ≤ byteLength body) ∧
      ((∃ c ∈ sentinel.drop (trimEnd sentinel).length, isGap c = false) →
        (ofSentinels sentinels).promptMatch? (body ++ sentinel) = none)) ∧
    ∀ buffer found, (ofSentinels sentinels).promptMatch? buffer = some found →
      ∃ front, byteLength front = found.start ∧
        (∃ sentinel ∈ sentinels, ¬ IsGap sentinel ∧ EndsIn sentinel front buffer) ∧
        (∀ sentinel ∈ sentinels, ¬ IsGap sentinel → ∀ other, EndsIn sentinel other buffer →
          found.start ≤ byteLength other) ∧
        (found.awaited ≠ [] → ∃ prompt, buffer = front ++ prompt ∧
          prompt ++ found.awaited ∈ sentinels) := by
  constructor
  · intro sentinel hmem hfirm body
    obtain ⟨trailing, htrailing, heq⟩ := exists_eq_trimEnd sentinel
    have hdrop := congrArg (List.drop (trimEnd sentinel).length) heq
    rw [List.drop_left] at hdrop
    have hwhole : body ++ sentinel = body ++ trimEnd sentinel ++ trailing := by
      rw [List.append_assoc, ← heq]
    rw [hdrop, hwhole]
    refine ⟨?_, ?_, ?_⟩
    · exact exists_promptMatch? hmem hfirm ⟨[], by simp, (List.append_nil _).symm⟩
    · intro hgap
      exact exists_promptMatch? hmem hfirm ⟨trailing, hgap, rfl⟩
    · rintro ⟨c, hc, hnot⟩
      rw [Option.eq_none_iff_forall_ne_some]
      intro found hfound
      obtain ⟨front, -, ⟨other, -, hother, hends⟩, -⟩ := exists_endsIn hfound
      exact not_endsIn_of_not_isGap hother htrailing hc hnot hends
  · intro buffer found hfound
    obtain ⟨front, hstart, hends, hawaited⟩ := exists_endsIn hfound
    refine ⟨front, hstart, hends, ?_, hawaited⟩
    intro sentinel hmem hfirm other hother
    obtain ⟨first, hfirst, hle⟩ := exists_promptMatch? hmem hfirm hother
    rw [hfound] at hfirst
    cases hfirst
    exact hle

/-- The second sentinel ends in the first one and is recognised all the same, with its space and without
    it. The third one is recognised without its line feed only. -/
theorem recognises_configured_nested :
    let detector := ofSentinels ["db) ".toList, "(gdb) ".toList, ">\n".toList]
    (∃ found, detector.promptMatch? "x(gdb) ".toList = some found ∧ found.start ≤ 1) ∧
      (∃ found, detector.promptMatch? "x>".toList = some found ∧ found.start ≤ 1) ∧
      detector.promptMatch? "x>\n".toList = none ∧
      ∀ found, detector.promptMatch? "x(gdb)".toList = some found →
        found.start ≤ 1 ∧ found.awaited = " ".toList := by
  intro detector
  obtain ⟨hconfigured, hfound⟩ :=
    recognises_configured ["db) ".toList, "(gdb) ".toList, ">\n".toList]
  obtain ⟨-, hspace, -⟩ := hconfigured "(gdb) ".toList (by decide) (by decide) "x".toList
  obtain ⟨hbare, -, hnever⟩ := hconfigured ">\n".toList (by decide) (by decide) "x".toList
  refine ⟨hspace (List.all_eq_true.1 rfl), hbare, hnever ⟨'\n', by decide⟩, ?_⟩
  intro found hmatch
  obtain ⟨front, hstart, -, hfirst, -⟩ := hfound _ _ hmatch
  have hle := hfirst "(gdb) ".toList (by decide) (by decide) "x".toList ⟨[], by simp, by decide⟩
  have hmatch' : detector.promptMatch? "x(gdb)".toList = some ⟨1, " ".toList⟩ := by decide
  rw [hmatch'] at hmatch
  cases hmatch
  exact ⟨hle, rfl⟩

/-- A sentinel that ends in a line feed is not recognised as it is written. -/
theorem not_recognised_with_line_feed :
    ¬ ∀ sentinels, ∀ sentinel ∈ sentinels, ¬ IsGap sentinel → ∀ body,
      ∃ found, (ofSentinels sentinels).promptMatch? (body ++ sentinel) = some found ∧
        found.start ≤ byteLength body := by
  intro hclaim
  obtain ⟨found, hfound, -⟩ := hclaim [">\n".toList] ">\n".toList (by decide) (by decide) "x".toList
  have hnone : (ofSentinels [">\n".toList]).promptMatch? ("x".toList ++ ">\n".toList) = none := by
    decide
  rw [hnone] at hfound
  cases hfound

end DebugClient.PromptDetector
