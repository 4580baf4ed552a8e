import DebugClient.Proofs.Text.Decoding

/-!
Bytes that arrive read by read. What comes of them is what the stream as a whole stands for, unless a
read with a fault in it ends inside a character that the stream goes on with, or ends in: there the
reader does not wait for the rest.
-/

namespace DebugClient.Utf8

/-- What a stream of bytes stands for, faults and all, and the bytes of the character that it ends in. -/
def decodeWhole (bytes : List UInt8) : Text × List UInt8 :=
  ((run .start bytes).1.map Decoded.toChar,
    bytes.drop (bytes.length - (run .start bytes).2.bytesRead))

/-- Decode reads one after another, the first of them behind the bytes kept before. -/
def decodeReads (kept : List UInt8) : List (List UInt8) → Text × List UInt8
  | [] => ([], kept)
  | read :: reads =>
    let (text, kept) := decodeArrived (kept ++ read)
    let (others, kept) := decodeReads kept reads
    (text ++ others, kept)

/-- Whether a character can go on with the byte. -/
def State.Accepts (b : Nat) : State → Prop
  | .start => False
  | .inside _ _ _ low high => low ≤ b ∧ b ≤ high

/-- With these bytes behind it, no character is left unfinished that could be finished. -/
def State.IsBrokenOff (state : State) : List UInt8 → Prop
  | [] => state = .start
  | b :: _ => ¬ state.Accepts b.toNat

/-- A read that a fault has been found in ends inside a character only if that is broken off by what
    follows. -/
def SparesCharacters (kept : List UInt8) : List (List UInt8) → Prop
  | [] => True
  | read :: reads =>
    (.fault ∈ (run .start (kept ++ read)).1 →
      (run .start (kept ++ read)).2.IsBrokenOff reads.flatten) ∧
    SparesCharacters (decodeArrived (kept ++ read)).2 reads

/-! ### States that come about -/

/-- Only bytes of the second kind are waited for, and only behind a first one. -/
def State.Proper : State → Prop
  | .start => True
  | .inside read _ _ low high => 1 ≤ read ∧ 0x80 ≤ low ∧ high ≤ 0xBF

theorem first_snd_cases (b : Nat) (hb : b < 256) :
    (first b).2 = .start ∨
      ((first b).1 = [] ∧ (first b).2.bytesRead = 1 ∧ (first b).2.Proper) := by
  rcases first_cases b hb with ⟨-, hfirst⟩ | ⟨-, -, hfirst⟩ | ⟨low, high, -, -, hfirst, hlow, hhigh, -⟩ |
    ⟨low, high, -, -, hfirst, hlow, hhigh, -⟩ | hfirst
  · exact .inl (congrArg Prod.snd hfirst)
  · rw [hfirst]
    exact .inr ⟨rfl, rfl, by simp [State.Proper]⟩
  · rw [hfirst]
    exact .inr ⟨rfl, rfl, by simp [State.Proper, hlow, hhigh]⟩
  · rw [hfirst]
    exact .inr ⟨rfl, rfl, by simp [State.Proper, hlow, hhigh]⟩
  · exact .inl (congrArg Prod.snd hfirst)

/-- A byte ends a character, is one more of it, or begins one. -/
theorem step_cases (state : State) (b : Nat) (hb : b < 256) :
    (step state b).2 = .start ∨
    ((step state b).1 = [] ∧ (step state b).2.bytesRead = state.bytesRead + 1 ∧
      (step state b).2.Proper) ∨
    (first b = ([], (step state b).2) ∧ (step state b).2.bytesRead = 1 ∧ (step state b).2.Proper) := by
  cases state with
  | start => exact (first_snd_cases b hb).imp_right .inl
  | inside read code missing low high =>
    by_cases hwithin : low ≤ b ∧ b ≤ high
    · cases missing with
      | zero =>
        rw [step_inside_zero hwithin.1 hwithin.2]
        exact .inl rfl
      | succ missing =>
        rw [step_inside_succ hwithin.1 hwithin.2]
        exact .inr (.inl ⟨rfl, rfl, by simp [State.Proper]⟩)
    · rw [step, if_neg hwithin]
      refine (first_snd_cases b hb).imp_right fun hnew => .inr ⟨?_, hnew.2⟩
      exact Prod.ext hnew.1 rfl

theorem proper_step (state : State) (b : UInt8) : (step state b.toNat).2.Proper := by
  rcases step_cases state b.toNat b.toNat_lt with hstart | ⟨-, -, hproper⟩ | ⟨-, -, hproper⟩
  · rw [hstart]
    trivial
  · exact hproper
  · exact hproper

theorem proper_run {state : State} (hproper : state.Proper) (bytes : List UInt8) :
    (run state bytes).2.Proper := by
  induction bytes generalizing state with
  | nil => exact hproper
  | cons b bytes ih =>
    rw [run_cons]
    exact ih (proper_step state b)

theorem proper_run_start (bytes : List UInt8) : (run .start bytes).2.Proper :=
  proper_run (show State.start.Proper from trivial) bytes

theorem State.Proper.bytesRead_eq_zero_iff {state : State} (hproper : state.Proper) :
    state.bytesRead = 0 ↔ state = .start := by
  cases state with
  | start => exact iff_of_true rfl rfl
  | inside read code missing low high => exact iff_of_false (Nat.ne_of_gt hproper.1) nofun

/-! ### The character that a stream ends in -/

/-- The bytes are the beginning of a character, or none. -/
structure IsUnfinished (part : List UInt8) : Prop where
  silent : (run .start part).1 = []
  bytesRead : (run .start part).2.bytesRead = part.length

theorem isUnfinished_nil : IsUnfinished [] := ⟨rfl, rfl⟩

/-- The last bytes of a stream, as many as have been read of the character that it ends in. -/
def unfinished (bytes : List UInt8) : List UInt8 :=
  bytes.drop (bytes.length - (run .start bytes).2.bytesRead)

theorem bytesRead_le_length (bytes : List UInt8) :
    (run .start bytes).2.bytesRead ≤ bytes.length := by
  induction bytes using List.reverseRecOn with
  | nil => exact Nat.le_refl 0
  | append_singleton bytes b ih =>
    rw [run_append, run_cons, List.length_append]
    dsimp only [run]
    rcases step_cases (run .start bytes).2 b.toNat b.toNat_lt with hstart | ⟨-, hread, -⟩ | ⟨-, hread, -⟩
    · rw [hstart]
      exact Nat.zero_le _
    · rw [hread]
      simpa using ih
    · rw [hread]
      simp

theorem length_unfinished (bytes : List UInt8) :
    (unfinished bytes).length = (run .start bytes).2.bytesRead := by
  have hle := bytesRead_le_length bytes
  rw [unfinished, List.length_drop]
  omega

/-- Reading them alone leads inside the same character. -/
theorem run_unfinished (bytes : List UInt8) :
    run .start (unfinished bytes) = ([], (run .start bytes).2) := by
  induction bytes using List.reverseRecOn with
  | nil => rfl
  | append_singleton bytes b ih =>
    have hlast : (run .start (bytes ++ [b])).2 = (step (run .start bytes).2 b.toNat).2 := by
      rw [run_append]
      rfl
    have hle := bytesRead_le_length bytes
    rw [unfinished, hlast, List.length_append, List.length_singleton]
    rcases step_cases (run .start bytes).2 b.toNat b.toNat_lt with hstart | ⟨hsilent, hread, -⟩ |
      ⟨hfirst, hread, -⟩
    · rw [hstart, State.bytesRead, Nat.sub_zero, List.drop_of_length_le (by simp)]
      rfl
    · rw [hread, Nat.add_sub_add_right, List.drop_append_of_le_length (by omega), ← unfinished,
        run_append, ih, run_cons]
      exact Prod.ext (by simp [hsilent, run]) rfl
    · rw [hread, Nat.add_sub_cancel, List.drop_left, run_cons, step, hfirst]
      rfl

theorem isUnfinished_unfinished (bytes : List UInt8) : IsUnfinished (unfinished bytes) := by
  refine ⟨by rw [run_unfinished], ?_⟩
  rw [run_unfinished, length_unfinished]

theorem decodeWhole_of_isUnfinished {part : List UInt8} (hpart : IsUnfinished part) :
    decodeWhole part = ([], part) := by
  rw [decodeWhole, hpart.silent, hpart.bytesRead, Nat.sub_self]
  rfl

/-- A stream may be decoded in two parts, if what is unfinished of the first is put in front of the
    second. -/
theorem decodeWhole_append (front bytes : List UInt8) : decodeWhole (front ++ bytes) =
    ((decodeWhole front).1 ++ (decodeWhole (unfinished front ++ bytes)).1,
      (decodeWhole (unfinished front ++ bytes)).2) := by
  have hrun : run .start (unfinished front ++ bytes) = run (run .start front).2 bytes := by
    rw [run_append, run_unfinished]
    rfl
  have hle := bytesRead_le_length (unfinished front ++ bytes)
  have hcut : front = front.take (front.length - (run .start front).2.bytesRead) ++ unfinished front :=
    (List.take_append_drop _ _).symm
  refine Prod.ext ?_ ?_
  · simp only [decodeWhole, hrun, run_append, List.map_append]
  · have hlast : (run .start (front ++ bytes)).2 = (run .start (unfinished front ++ bytes)).2 := by
      rw [hrun, run_append]
    dsimp only [decodeWhole]
    rw [hlast]
    generalize (run .start (unfinished front ++ bytes)).2.bytesRead = n at hle
    conv_lhs => rw [hcut, List.append_assoc, List.length_append, Nat.add_sub_assoc hle]
    exact List.drop_length_add_append _

/-! ### One read -/

theorem decodeArrived_of_sound {bytes : List UInt8} (hsound : .fault ∉ (run .start bytes).1) :
    decodeArrived bytes = decodeWhole bytes := by
  rw [decodeArrived]
  dsimp only
  rw [if_neg hsound, decodeWhole]

theorem decodeArrived_of_fault {bytes : List UInt8} (hfault : .fault ∈ (run .start bytes).1) :
    decodeArrived bytes = ((decodeWhole bytes).1 ++
      if (run .start bytes).2 = .start then [] else [Decoded.fault.toChar], []) := by
  rw [decodeArrived]
  dsimp only
  rw [if_pos hfault, decodeWhole]
  split <;> simp

theorem isUnfinished_decodeArrived (bytes : List UInt8) : IsUnfinished (decodeArrived bytes).2 := by
  by_cases hfault : .fault ∈ (run .start bytes).1
  · rw [decodeArrived_of_fault hfault]
    exact isUnfinished_nil
  · rw [decodeArrived_of_sound hfault]
    exact isUnfinished_unfinished bytes

/-- A character that is broken off is one fault, and the byte that breaks it off is read anew. -/
theorem run_of_isBrokenOff {state : State} {bytes : List UInt8} (hbroken : state.IsBrokenOff bytes)
    (hinside : state ≠ .start) :
    run state bytes = (.fault :: (run .start bytes).1, (run .start bytes).2) := by
  cases state with
  | start => exact absurd rfl hinside
  | inside read code missing low high =>
    cases bytes with
    | nil => cases hbroken
    | cons b bytes =>
      have hout : ¬ (low ≤ b.toNat ∧ b.toNat ≤ high) := hbroken
      have hstep : step (.inside read code missing low high) b.toNat =
          (.fault :: (first b.toNat).1, (first b.toNat).2) := by
        rw [step, if_neg hout]
      rw [run_cons, run_cons, hstep]
      rfl

/-- The law of one read. -/
theorem decodeWhole_append_of_spares {pending bytes : List UInt8}
    (hspares : .fault ∈ (run .start pending).1 → (run .start pending).2.IsBrokenOff bytes) :
    decodeWhole (pending ++ bytes) =
      ((decodeArrived pending).1 ++ (decodeWhole ((decodeArrived pending).2 ++ bytes)).1,
        (decodeWhole ((decodeArrived pending).2 ++ bytes)).2) := by
  have hcut := decodeWhole_append pending bytes
  by_cases hfault : .fault ∈ (run .start pending).1
  · rw [decodeArrived_of_fault hfault]
    by_cases hstart : (run .start pending).2 = .start
    · have hnone : unfinished pending = [] := by
        rw [unfinished, hstart]
        exact List.drop_of_length_le (Nat.le_refl _)
      rw [hcut, hnone, if_pos hstart, List.append_nil]
    · have hbroken := run_of_isBrokenOff (hspares hfault) hstart
      have hnew : decodeWhole (pending ++ bytes) =
          ((decodeWhole pending).1 ++ Decoded.fault.toChar :: (decodeWhole bytes).1,
            (decodeWhole bytes).2) := by
        have hle := bytesRead_le_length bytes
        refine Prod.ext ?_ ?_
        · simp [decodeWhole, run_append, hbroken]
        · dsimp only [decodeWhole]
          rw [run_append, hbroken, List.length_append, Nat.add_sub_assoc hle]
          exact List.drop_length_add_append _
      rw [hnew, if_neg hstart, List.append_assoc]
      rfl
  · rw [decodeArrived_of_sound hfault]
    exact hcut

/-! ### A character that is not spared -/

/-- Twice the characters of a text, and one more if bytes are kept. -/
def extent (decoded : Text × List UInt8) : Nat :=
  2 * decoded.1.length + if decoded.2 = [] then 0 else 1

/-- The same of a run of the decoder. -/
def runExtent (decoded : List Decoded × State) : Nat :=
  2 * decoded.1.length + if decoded.2 = .start then 0 else 1

theorem extent_append (text : Text) (decoded : Text × List UInt8) :
    extent (text ++ decoded.1, decoded.2) = 2 * text.length + extent decoded := by
  simp only [extent, List.length_append]
  omega

theorem runExtent_append (out : List Decoded) (decoded : List Decoded × State) :
    runExtent (out ++ decoded.1, decoded.2) = 2 * out.length + runExtent decoded := by
  simp only [runExtent, List.length_append]
  omega

theorem extent_decodeWhole (bytes : List UInt8) :
    extent (decodeWhole bytes) = runExtent (run .start bytes) := by
  have hkept : (decodeWhole bytes).2 = [] ↔ (run .start bytes).2 = .start := by
    have hproper : (run .start bytes).2.Proper := proper_run_start bytes
    rw [← hproper.bytesRead_eq_zero_iff, ← length_unfinished, List.length_eq_zero_iff]
    rfl
  rw [extent, runExtent, if_congr hkept rfl rfl, decodeWhole, List.length_map]

theorem first_of_tail {b : Nat} (hlow : 0x80 ≤ b) (hhigh : b ≤ 0xBF) : first b = ([.fault], .start) := by
  rw [first, if_neg (by omega), if_neg (by omega), if_neg (by omega), if_neg (by omega),
    if_neg (by omega), if_neg (by omega), if_neg (by omega), if_neg (by omega)]

/-- Given up, a character comes to more than if it is finished, as each of its other bytes is a fault
    of its own then; if it is broken off it comes to the same. -/
theorem runExtent_le {state : State} (hproper : state.Proper) (bytes : List UInt8) :
    runExtent (run state bytes) ≤ 2 + runExtent (run .start bytes) ∧
      (¬ state.IsBrokenOff bytes → runExtent (run state bytes) < 2 + runExtent (run .start bytes)) := by
  induction bytes generalizing state with
  | nil =>
    have hle : runExtent (run state []) ≤ 1 := by
      rw [run, runExtent]
      split <;> simp
    exact ⟨by omega, fun _ => by omega⟩
  | cons b bytes ih =>
    by_cases hbroken : state.IsBrokenOff (b :: bytes)
    · refine ⟨?_, absurd hbroken⟩
      by_cases hstart : state = .start
      · rw [hstart]
        omega
      · rw [run_of_isBrokenOff hbroken hstart]
        exact Nat.le_of_eq (runExtent_append [.fault] (run .start (b :: bytes)))
    · suffices hless : runExtent (run state (b :: bytes)) < 2 + runExtent (run .start (b :: bytes)) from
        ⟨Nat.le_of_lt hless, fun _ => hless⟩
      have haccepts : state.Accepts b.toNat := not_not.1 hbroken
      cases state with
      | start => cases haccepts
      | inside read code missing low high =>
        obtain ⟨hlow, hhigh⟩ := haccepts
        obtain ⟨-, hleast, hgreatest⟩ := hproper
        have hfault :
            run .start (b :: bytes) = (.fault :: (run .start bytes).1, (run .start bytes).2) := by
          rw [run_cons, step, first_of_tail (by omega) (by omega)]
          rfl
        have hgiven := runExtent_append [.fault] (run .start bytes)
        rw [List.singleton_append, ← hfault, List.length_singleton] at hgiven
        rw [run_cons]
        cases missing with
        | zero =>
          rw [step_inside_zero hlow hhigh, runExtent_append]
          dsimp only [List.length_singleton]
          omega
        | succ missing =>
          have hnext :
              (State.inside (read + 1) (code * 64 + (b.toNat - 0x80)) missing 0x80 0xBF).Proper :=
            ⟨Nat.le_add_left 1 read, Nat.le_refl _, Nat.le_refl _⟩
          have hrest := (ih hnext).1
          rw [step_inside_succ hlow hhigh, runExtent_append]
          dsimp only [List.length_nil]
          omega

/-- Whatever is read, too much may come of it, but not too little. -/
theorem extent_decodeWhole_append (pending bytes : List UInt8) :
    extent (decodeWhole (pending ++ bytes)) ≤ 2 * (decodeArrived pending).1.length +
        extent (decodeWhole ((decodeArrived pending).2 ++ bytes)) ∧
    (¬ (.fault ∈ (run .start pending).1 → (run .start pending).2.IsBrokenOff bytes) →
      extent (decodeWhole (pending ++ bytes)) < 2 * (decodeArrived pending).1.length +
        extent (decodeWhole ((decodeArrived pending).2 ++ bytes))) := by
  by_cases hspares : .fault ∈ (run .start pending).1 → (run .start pending).2.IsBrokenOff bytes
  · refine ⟨?_, absurd hspares⟩
    rw [decodeWhole_append_of_spares hspares, extent_append]
  · obtain ⟨hfault, hopen⟩ := Classical.not_imp.1 hspares
    suffices hless : extent (decodeWhole (pending ++ bytes)) < 2 * (decodeArrived pending).1.length +
        extent (decodeWhole ((decodeArrived pending).2 ++ bytes)) from
      ⟨Nat.le_of_lt hless, fun _ => hless⟩
    have hstart : (run .start pending).2 ≠ .start := by
      intro hstart
      rw [hstart] at hopen
      cases bytes with
      | nil => exact hopen rfl
      | cons b bytes => exact hopen id
    have hproper : (run .start pending).2.Proper := proper_run_start pending
    have hless := (runExtent_le hproper bytes).2 hopen
    have hlength : (decodeWhole pending).1.length = (run .start pending).1.length := List.length_map _
    rw [decodeArrived_of_fault hfault, if_neg hstart, extent_decodeWhole, extent_decodeWhole, run_append,
      runExtent_append, List.length_append, hlength, List.length_singleton, List.nil_append]
    omega

/-! ### All reads -/

theorem decodeReads_of_spares {kept : List UInt8} {reads : List (List UInt8)} (hkept : IsUnfinished kept)
    (hspares : SparesCharacters kept reads) :
    decodeReads kept reads = decodeWhole (kept ++ reads.flatten) := by
  induction reads generalizing kept with
  | nil => rw [decodeReads, List.flatten_nil, List.append_nil, decodeWhole_of_isUnfinished hkept]
  | cons read reads ih =>
    obtain ⟨hread, hreads⟩ := hspares
    rw [decodeReads, List.flatten_cons, ← List.append_assoc, decodeWhole_append_of_spares hread]
    dsimp only
    rw [ih (isUnfinished_decodeArrived _) hreads]

theorem extent_decodeReads {kept : List UInt8} (reads : List (List UInt8)) (hkept : IsUnfinished kept) :
    extent (decodeWhole (kept ++ reads.flatten)) ≤ extent (decodeReads kept reads) ∧
      (¬ SparesCharacters kept reads →
        extent (decodeWhole (kept ++ reads.flatten)) < extent (decodeReads kept reads)) := by
  induction reads generalizing kept with
  | nil =>
    rw [decodeReads, List.flatten_nil, List.append_nil, decodeWhole_of_isUnfinished hkept]
    exact ⟨Nat.le_refl _, absurd trivial⟩
  | cons read reads ih =>
    obtain ⟨hle, hlt⟩ := extent_decodeWhole_append (kept ++ read) reads.flatten
    obtain ⟨hrest, hrest'⟩ := ih (isUnfinished_decodeArrived (kept ++ read))
    rw [decodeReads, List.flatten_cons, ← List.append_assoc]
    dsimp only
    rw [extent_append]
    refine ⟨by omega, fun hnot => ?_⟩
    rcases not_and_or.1 hnot with hread | hreads
    · have := hlt hread
      omega
    · have := hrest' hreads
      omega

/-- Where no fault is found no character is given up. -/
theorem sparesCharacters_of_sound {kept : List UInt8} {reads : List (List UInt8)}
    (hsound : .fault ∉ (run .start (kept ++ reads.flatten)).1) : SparesCharacters kept reads := by
  induction reads generalizing kept with
  | nil => trivial
  | cons read reads ih =>
    rw [List.flatten_cons, ← List.append_assoc, run_append] at hsound
    have hread : .fault ∉ (run .start (kept ++ read)).1 := fun hmem =>
      hsound (List.mem_append_left _ hmem)
    refine ⟨fun hmem => absurd hmem hread, ih ?_⟩
    have hkept : (decodeArrived (kept ++ read)).2 = unfinished (kept ++ read) := by
      rw [decodeArrived_of_sound hread]
      rfl
    rw [hkept, run_append, run_unfinished]
    exact fun hmem => hsound (List.mem_append_right _ hmem)

/-- Bytes that arrive read by read come to what their stream stands for exactly if no read with a fault
    in it gives up a character that the stream goes on with or ends in. That is so wherever there is no
    fault; of the bytes of a text, all of the text arrives and nothing is kept. -/
theorem decodeReads_of_stream (reads : List (List UInt8)) :
    (decodeReads [] reads = decodeWhole reads.flatten ↔ SparesCharacters [] reads) ∧
    (.fault ∉ (run .start reads.flatten).1 → SparesCharacters [] reads) ∧
    ∀ t, reads.flatten = encode t → decodeReads [] reads = (t, []) := by
  have hspared (hspares : SparesCharacters [] reads) :
      decodeReads [] reads = decodeWhole reads.flatten :=
    decodeReads_of_spares isUnfinished_nil hspares
  refine ⟨⟨fun heq => ?_, hspared⟩, fun hsound => sparesCharacters_of_sound hsound, fun t ht => ?_⟩
  · by_contra hnot
    have hless := (extent_decodeReads reads isUnfinished_nil).2 hnot
    rw [heq] at hless
    exact Nat.lt_irrefl _ hless
  · have hsound : .fault ∉ (run .start reads.flatten).1 := by
      rw [ht, run_encode]
      simp
    have harrived := decodeArrived_encode t (.inl rfl)
    rw [hspared (sparesCharacters_of_sound hsound), ht, ← decodeArrived_of_sound (ht ▸ hsound)]
    rwa [List.append_nil] at harrived

/-- An `é` in two reads, a fault in the second of them, and a `€` in two reads. -/
theorem decodeReads_of_stream_fault_between :
    SparesCharacters [] [[0xC3], [0xA9, 0xFF], [0xE2, 0x82], [0xAC]] ∧
      decodeReads [] [[0xC3], [0xA9, 0xFF], [0xE2, 0x82], [0xAC]] =
        decodeWhole [0xC3, 0xA9, 0xFF, 0xE2, 0x82, 0xAC] ∧
      decodeWhole [0xC3, 0xA9, 0xFF, 0xE2, 0x82, 0xAC] = (['é', '\uFFFD', '€'], []) ∧
      decodeReads [] [[0xC3], [0xA9]] = (['é'], []) := by
  have heq : decodeReads [] [[0xC3], [0xA9, 0xFF], [0xE2, 0x82], [0xAC]] =
      decodeWhole [0xC3, 0xA9, 0xFF, 0xE2, 0x82, 0xAC] := by decide +kernel
  exact ⟨(decodeReads_of_stream _).1.1 heq, heq, by decide +kernel,
    (decodeReads_of_stream [[0xC3], [0xA9]]).2.2 ['é'] (by decide +kernel)⟩

/-- An `é` behind a fault is lost if a read ends in it. -/
theorem decodeReads_cut_behind_fault :
    decodeReads [] [[0xFF, 0xC3], [0xA9]] = (['\uFFFD', '\uFFFD', '\uFFFD'], []) ∧
      decodeReads [] [[0xFF], [0xC3, 0xA9]] = (['\uFFFD', 'é'], []) ∧
      ¬ ∀ reads others : List (List UInt8), reads.flatten = others.flatten →
        decodeReads [] reads = decodeReads [] others := by
  have hcut : decodeReads [] [[0xFF, 0xC3], [0xA9]] = (['\uFFFD', '\uFFFD', '\uFFFD'], []) := by
    decide +kernel
  have hwhole : decodeReads [] [[0xFF], [0xC3, 0xA9]] = (['\uFFFD', 'é'], []) := by decide +kernel
  refine ⟨hcut, hwhole, fun hsame => ?_⟩
  have heq := hsame [[0xFF, 0xC3], [0xA9]] [[0xFF], [0xC3, 0xA9]] rfl
  rw [hcut, hwhole] at heq
  revert heq
  decide

end DebugClient.Utf8
