import DebugClient.Console.Prompt
import DebugClient.Proofs.Text.Cutting

/-!
Where a reply ends. A prompt is recognised as soon as its last character other than white space has
arrived, with the rest of it still to come; no beginning of a well framed reply is taken for a whole
one, and no part of the prompt lies outside the tail that may still grow into it.
-/

namespace DebugClient.PromptDetector
open Text

/-- The first sentinel is `stem` followed by `gap`: the stem ends in a character other than white
    space, and the gap is spaces and tabs. -/
structure Primary (detector : PromptDetector) (stem gap : Text) : Prop where
  sentinels : ∃ others, detector.sentinels = (stem ++ gap) :: others
  trimEnd_stem : trimEnd stem = stem
  stem_ne_nil : stem ≠ []
  isGap_of_mem : ∀ c ∈ gap, isGap c

theorem primary_gdb : Primary ⟨["(gdb) ".toList]⟩ "(gdb)".toList " ".toList :=
  ⟨⟨_, rfl⟩, by decide, by decide, by simp [isGap]⟩

/-- One of the sentinels is `stem` followed by `gap`, and none that is listed before it has the same
    stem. -/
structure Installed (detector : PromptDetector) (stem gap : Text) : Prop where
  sentinels : ∃ front back, detector.sentinels = front ++ (stem ++ gap) :: back ∧
    ∀ sentinel ∈ front, trimEnd sentinel ≠ stem
  trimEnd_stem : trimEnd stem = stem
  stem_ne_nil : stem ≠ []
  isGap_of_mem : ∀ c ∈ gap, isGap c

theorem Primary.installed {detector : PromptDetector} {stem gap : Text}
    (hprimary : detector.Primary stem gap) : detector.Installed stem gap := by
  obtain ⟨⟨others, hsentinels⟩, htrim, hstem, hgap⟩ := hprimary
  exact ⟨⟨[], others, hsentinels, by simp⟩, htrim, hstem, hgap⟩

/-- The reply `body` is well framed by `stem`: nothing that arrives before the end of the stem ends in
    a prompt, and the prompt found there begins right behind the body. -/
structure Frames (detector : PromptDetector) (stem body : Text) : Prop where
  early : ∀ front, front <+: body ++ stem → front ≠ body ++ stem → detector.promptMatch? front = none
  start : (detector.promptMatch? (body ++ stem)).map (·.start) = some (byteLength body)

instance (detector : PromptDetector) (stem body : Text) : Decidable (detector.Frames stem body) :=
  decidable_of_iff ((∀ front ∈ (body ++ stem).inits, front ≠ body ++ stem →
      detector.promptMatch? front = none) ∧
    (detector.promptMatch? (body ++ stem)).map (·.start) = some (byteLength body))
    ⟨fun h => ⟨fun front hlead => h.1 front ((List.mem_inits _ _).2 hlead), h.2⟩,
      fun h => ⟨fun front hmem => h.early front ((List.mem_inits _ _).1 hmem), h.start⟩⟩

theorem isBlank_of_isGap {c : Char} (hgap : isGap c) : isBlank c := by
  simp only [isGap, Bool.or_eq_true, beq_iff_eq] at hgap
  rcases hgap with rfl | rfl <;> decide

/-! ### The earliest match -/

theorem eq_nil_of_firstMatch_eq_none {candidates : List PromptMatch}
    (hnone : firstMatch candidates = none) : candidates = [] := by
  cases candidates with
  | nil => rfl
  | cons candidate others =>
    rw [firstMatch] at hnone
    split at hnone
    · cases hnone
    · split at hnone <;> cases hnone

theorem mem_and_start_le_of_firstMatch {found : PromptMatch} {candidates : List PromptMatch}
    (hfirst : firstMatch candidates = some found) :
    found ∈ candidates ∧ ∀ candidate ∈ candidates, found.start ≤ candidate.start := by
  induction candidates generalizing found with
  | nil => cases hfirst
  | cons candidate others ih =>
    rw [firstMatch] at hfirst
    split at hfirst
    · next hrest =>
      cases hfirst
      simp [eq_nil_of_firstMatch_eq_none hrest]
    · next earliest hrest =>
      obtain ⟨hmem, hle⟩ := ih hrest
      split at hfirst
      · next hlt =>
        cases hfirst
        exact ⟨List.mem_cons_of_mem _ hmem, List.forall_mem_cons.2 ⟨Nat.le_of_lt hlt, hle⟩⟩
      · next hlt =>
        cases hfirst
        have hleast : ∀ other ∈ others, candidate.start ≤ other.start := fun other hother =>
          Nat.le_trans (Nat.le_of_not_lt hlt) (hle other hother)
        exact ⟨List.mem_cons_self, List.forall_mem_cons.2 ⟨Nat.le_refl _, hleast⟩⟩

/-- Of several matches that start first, the one listed first counts. -/
theorem firstMatch_cons_of_start_le {candidate : PromptMatch} {others : List PromptMatch}
    (hle : ∀ other ∈ others, candidate.start ≤ other.start) :
    firstMatch (candidate :: others) = some candidate := by
  rw [firstMatch]
  split
  · rfl
  · next other hother =>
    rw [if_neg (Nat.not_lt.2 (hle other (mem_and_start_le_of_firstMatch hother).1))]

theorem firstMatch_append_cons {found : PromptMatch} {front back : List PromptMatch}
    (hfront : ∀ other ∈ front, found.start < other.start)
    (hback : ∀ other ∈ back, found.start ≤ other.start) :
    firstMatch (front ++ found :: back) = some found := by
  induction front with
  | nil => exact firstMatch_cons_of_start_le hback
  | cons candidate front ih =>
    obtain ⟨hcandidate, hfront⟩ := List.forall_mem_cons.1 hfront
    rw [List.cons_append, firstMatch, ih hfront]
    dsimp only
    rw [if_pos hcandidate]

/-! ### Spaces and tabs behind a prompt -/

/-- Splits the spaces and tabs at the end of a buffer from what is in front of them. -/
theorem matchSentinel?_append_gap {front gap : Text}
    (hfront : ∀ c ∈ front.getLast?, isGap c = false) (hgap : ∀ c ∈ gap, isGap c)
    (sentinel : Text) :
    matchSentinel? (front ++ gap) sentinel =
      (before? (trimEnd sentinel) front).map fun before =>
        { start := byteLength before
          awaited := (after? gap (sentinel.drop (trimEnd sentinel).length)).getD [] } := by
  have hreverse : ∀ c ∈ gap.reverse, isGap c := fun c hc => hgap c (List.mem_reverse.1 hc)
  have htake : front.reverse.takeWhile isGap = [] ∧
      front.reverse.dropWhile isGap = front.reverse := by
    cases hlast : front.reverse with
    | nil => exact ⟨rfl, rfl⟩
    | cons c rest =>
      have hc : isGap c = false := hfront c (by rw [← List.head?_reverse, hlast]; rfl)
      exact ⟨by rw [List.takeWhile_cons, if_neg (by simp [hc])],
        by rw [List.dropWhile_cons, if_neg (by simp [hc])]⟩
  simp only [matchSentinel?, List.reverse_append, List.takeWhile_append_of_pos hreverse,
    List.dropWhile_append_of_pos hreverse, htake.1, htake.2, List.append_nil, List.reverse_reverse]

section
variable {detector : PromptDetector} {stem gap body : Text}

theorem Installed.trimEnd_sentinel (hinstalled : detector.Installed stem gap) :
    trimEnd (stem ++ gap) = stem := by
  rw [trimEnd_append_of_blank fun c hc => isBlank_of_isGap (hinstalled.isGap_of_mem c hc),
    hinstalled.trimEnd_stem]

theorem Installed.getLast?_not_gap (hinstalled : detector.Installed stem gap) (body : Text) :
    ∀ c ∈ (body ++ stem).getLast?, isGap c = false := by
  intro c hc
  rw [List.getLast?_append_of_ne_nil _ hinstalled.stem_ne_nil] at hc
  have hblank := getLast?_not_blank_of_trimEnd_eq hinstalled.trimEnd_stem c hc
  cases hgap : isGap c with
  | false => rfl
  | true =>
    rw [isBlank_of_isGap hgap] at hblank
    cases hblank

/-- A well framed reply is complete as soon as the stem of its prompt has arrived, and what is then
    missing of the gap is awaited. -/
theorem Frames.promptMatch?_append_gap (hinstalled : detector.Installed stem gap)
    (hframes : detector.Frames stem body) {arrived missing : Text} (hgap : gap = arrived ++ missing) :
    detector.promptMatch? (body ++ stem ++ arrived) =
      some { start := byteLength body, awaited := missing } := by
  obtain ⟨front, back, hsentinels, hdifferent⟩ := hinstalled.sentinels
  have hlast := hinstalled.getLast?_not_gap body
  have harrived : ∀ c ∈ arrived, isGap c := fun c hc =>
    hinstalled.isGap_of_mem c (by simp [hgap, hc])
  have hfirst : matchSentinel? (body ++ stem ++ arrived) (stem ++ gap) =
      some { start := byteLength body, awaited := missing } := by
    have hbefore : before? stem (body ++ stem) = some body := before?_eq_some_iff.2 rfl
    have hafter : after? arrived (arrived ++ missing) = some missing := after?_eq_some_iff.2 rfl
    rw [matchSentinel?_append_gap hlast harrived, hinstalled.trimEnd_sentinel, hbefore,
      List.drop_left, hgap, hafter]
    rfl
  obtain ⟨found, hfound, hstart⟩ := Option.map_eq_some_iff.1 hframes.start
  have hleast := (mem_and_start_le_of_firstMatch hfound).2
  -- The same sentinel matches at the same place before any of the gap has arrived.
  have hplace {sentinel : Text} {other : PromptMatch} (hmem : sentinel ∈ detector.sentinels)
      (hmatch : matchSentinel? (body ++ stem ++ arrived) sentinel = some other) :
      ∃ before, before? (trimEnd sentinel) (body ++ stem) = some before ∧
        other.start = byteLength before ∧ byteLength body ≤ other.start := by
    rw [matchSentinel?_append_gap hlast harrived] at hmatch
    obtain ⟨before, hbefore, rfl⟩ := Option.map_eq_some_iff.1 hmatch
    have hnothing : ∀ c ∈ ([] : Text), isGap c := by simp
    have hbare := matchSentinel?_append_gap hlast hnothing sentinel
    rw [List.append_nil, hbefore] at hbare
    have hle := hleast _ (List.mem_filterMap.2 ⟨sentinel, hmem, hbare⟩)
    rw [hstart] at hle
    exact ⟨before, hbefore, rfl, hle⟩
  rw [promptMatch?, hsentinels, List.filterMap_append, List.filterMap_cons, hfirst]
  apply firstMatch_append_cons
  · intro other hother
    obtain ⟨sentinel, hmem, hmatch⟩ := List.mem_filterMap.1 hother
    obtain ⟨before, hbefore, hother, hle⟩ := hplace (by simp [hsentinels, hmem]) hmatch
    apply lt_of_le_of_ne hle
    intro hsame
    apply hdifferent sentinel hmem
    -- At the same place there is room for one stem only.
    have hwhole := before?_eq_some_iff.1 hbefore
    have hbody : before = body := by
      rw [← takeBytes_append before (trimEnd sentinel), ← hwhole, ← hother, ← hsame, takeBytes_append]
    rw [hbody] at hwhole
    exact (List.append_cancel_left hwhole).symm
  · intro other hother
    obtain ⟨sentinel, hmem, hmatch⟩ := List.mem_filterMap.1 hother
    obtain ⟨-, -, -, hle⟩ := hplace (by simp [hsentinels, hmem]) hmatch
    exact hle

theorem Frames.promptMatch?_nil (hprimary : detector.Primary stem gap)
    (hframes : detector.Frames stem body) : detector.promptMatch? [] = none :=
  hframes.early [] List.nil_prefix (by simp [hprimary.stem_ne_nil])

end

/-! ### The tail held back -/

theorem pendingBytes_le_pendingTail {detector : PromptDetector} {sentinel : Text}
    (hmem : sentinel ∈ detector.sentinels) (buffer : Text) :
    pendingBytes buffer sentinel ≤ detector.pendingTail buffer := by
  rw [pendingTail, List.foldl_max]
  exact Nat.le_trans (List.le_max?_getD_of_mem (List.mem_map_of_mem hmem)) (Nat.le_max_right _ _)

/-- A search from the top down finds the greatest number of its kind. -/
theorem le_of_find?_reverse_range {p : Nat → Bool} {n j k : Nat}
    (hfind : (List.range n).reverse.find? p = some j) (hk : k < n) (hp : p k) : k ≤ j := by
  induction n with
  | zero => omega
  | succ n ih =>
    rw [List.range_succ, List.reverse_append, List.reverse_singleton, List.singleton_append,
      List.find?_cons] at hfind
    split at hfind
    · cases hfind
      omega
    · next hpn =>
      have hne : k ≠ n := by
        rintro rfl
        rw [hp] at hpn
        cases hpn
      exact ih hfind (by omega)

/-- A buffer that ends in a beginning of a sentinel holds back at least that much. -/
theorem byteLength_le_pendingBytes {buffer sentinel : Text} {k : Nat} (hk : k < sentinel.length)
    (hends : sentinel.take k <:+ buffer) :
    byteLength (sentinel.take k) ≤ pendingBytes buffer sentinel := by
  obtain ⟨front, rfl⟩ := hends
  have hbefore : (before? (sentinel.take k) (front ++ sentinel.take k)).isSome := by
    rw [before?_eq_some_iff.2 rfl]
    rfl
  dsimp only [pendingBytes]
  rw [List.find?_map]
  cases hfind : (List.range sentinel.length).reverse.find?
      ((fun beginning => (before? beginning (front ++ sentinel.take k)).isSome) ∘ sentinel.take) with
  | none =>
    have hnone := List.find?_eq_none.1 hfind k (by simpa using hk)
    exact absurd hbefore hnone
  | some j =>
    have hle : k ≤ j := le_of_find?_reverse_range hfind hk hbefore
    have hlead : sentinel.take k <+: sentinel.take j := List.take_prefix_take_left hle
    obtain ⟨more, hmore⟩ := hlead
    dsimp only [Option.map_some]
    rw [← hmore, byteLength_append]
    exact Nat.le_add_right _ _

/-- Whatever is not held back of an incomplete reply belongs to its body. -/
theorem byteLength_sub_pendingTail_le {detector : PromptDetector} {stem gap body front : Text}
    (hprimary : detector.Primary stem gap) (hlead : front <+: body ++ stem)
    (hne : front ≠ body ++ stem) :
    byteLength front - detector.pendingTail front ≤ byteLength body := by
  rcases List.prefix_or_prefix_of_prefix hlead (List.prefix_append body stem) with hfront | hbody
  · obtain ⟨rest, rfl⟩ := hfront
    rw [byteLength_append]
    omega
  · obtain ⟨part, rfl⟩ := hbody
    obtain ⟨rest, hrest⟩ := hlead
    have hstem : stem = part ++ rest := by
      rw [List.append_assoc] at hrest
      exact (List.append_cancel_left hrest).symm
    have hrest_ne : rest ≠ [] := by
      rintro rfl
      exact hne (by rw [hstem, List.append_nil])
    obtain ⟨others, hsentinels⟩ := hprimary.sentinels
    have htake : (stem ++ gap).take part.length = part := by
      rw [hstem, List.append_assoc, List.take_left]
    have hlength : part.length < (stem ++ gap).length := by
      have := List.length_pos_of_ne_nil hrest_ne
      simp only [hstem, List.length_append]
      omega
    have hends : (stem ++ gap).take part.length <:+ body ++ part := by
      rw [htake]
      exact List.suffix_append _ _
    have hpending := byteLength_le_pendingBytes hlength hends
    have hmax : pendingBytes (body ++ part) (stem ++ gap) ≤ detector.pendingTail (body ++ part) :=
      pendingBytes_le_pendingTail (by simp [hsentinels]) _
    rw [htake] at hpending
    rw [byteLength_append]
    omega

end DebugClient.PromptDetector
