import DebugClient.Proofs.Memory.Allocation

/-!
The stack is made to match a backtrace. The frames stay as far as their names, from the outermost on, are
those of the backtrace; only the frames behind them are left, and only the rest of the backtrace is
entered.
-/

namespace DebugClient.ProgramState

/-- Two lists begin with the same texts, so many of them. -/
def ShareFirst (count : Nat) (names others : List Text) : Prop :=
  ∃ common, common.length = count ∧ common <+: names ∧ common <+: others

/-- Behind the frames that stay, as many as are shared with the backtrace, the stack has been made anew.
    Nothing else has changed but the owners of the addresses of values that were listed there. -/
structure Synced (state : ProgramState) (backtrace : List StackFrame) (shared : Nat)
    (next : ProgramState) : Prop where
  sharedFirst : ShareFirst shared (state.frames.map (·.name)) (backtrace.reverse.map (·.function))
  longest : ∀ count, ShareFirst count (state.frames.map (·.name)) (backtrace.reverse.map (·.function)) →
    count ≤ shared
  names : next.frames.map (·.name) = backtrace.reverse.map (·.function)
  index : ∀ (i : Nat) (frame : Frame), next.frames[i]? = some frame → frame.index = i
  kept : next.frames.take shared = state.frames.take shared
  unused : ∀ frame ∈ next.frames.drop shared, frame.values = []
  values : next.values = state.values
  heap : next.heap = state.heap
  allocations : next.allocations = state.allocations
  /-- The addresses that have lost their owner are those of the values in the frames that are left. -/
  lost : ∀ address, (state.idAt? address).isSome ∧ next.idAt? address = none ↔
    ∃ frame ∈ state.frames.drop shared, ∃ id ∈ frame.values, state.addressOf? id = some address
  /-- No address has another owner than before. -/
  owners : ∀ address id, next.idAt? address = some id → state.idAt? address = some id

variable {state : ProgramState}

/-! ### The frames that are shared -/

theorem take_sharedFrames (frames : List Frame) (names : List Text) :
    (frames.take (sharedFrames frames names)).map (·.name) = names.take (sharedFrames frames names) := by
  fun_induction sharedFrames frames names with
  | case1 frame frames names ih => rw [List.take_succ_cons, List.map_cons, List.take_succ_cons, ih]
  | case2 => rfl
  | case3 => rfl

theorem sharedFrames_le (frames : List Frame) (names : List Text) :
    sharedFrames frames names ≤ frames.length := by
  fun_induction sharedFrames frames names with
  | case1 frame frames names ih => exact Nat.succ_le_succ ih
  | case2 => exact Nat.zero_le _
  | case3 => exact Nat.zero_le _

/-- The names of the shared frames are what the stack and the backtrace begin with. -/
theorem shareFirst_sharedFrames (frames : List Frame) (names : List Text) :
    ShareFirst (sharedFrames frames names) (frames.map (·.name)) names := by
  refine ⟨(frames.take (sharedFrames frames names)).map (·.name), ?_, ?_, ?_⟩
  · rw [List.length_map, List.length_take, Nat.min_eq_left (sharedFrames_le frames names)]
  · rw [List.map_take]
    exact List.take_prefix _ _
  · rw [take_sharedFrames]
    exact List.take_prefix _ _

/-- No more can be shared, as the first name that differs ends both. -/
theorem ShareFirst.le_sharedFrames {frames : List Frame} {names : List Text} {count : Nat}
    (hshare : ShareFirst count (frames.map (·.name)) names) : count ≤ sharedFrames frames names := by
  obtain ⟨common, rfl, hframes, hnames⟩ := hshare
  fun_induction sharedFrames frames names generalizing common with
  | case1 frame frames names ih =>
    cases common with
    | nil => exact Nat.zero_le _
    | cons name common =>
      obtain ⟨-, hframes⟩ := List.cons_prefix_cons.1 hframes
      obtain ⟨-, hnames⟩ := List.cons_prefix_cons.1 hnames
      exact Nat.succ_le_succ (ih common hframes hnames)
  | case2 frame frames name names hne =>
    cases common with
    | nil => exact Nat.le_refl _
    | cons first common =>
      obtain ⟨rfl, -⟩ := List.cons_prefix_cons.1 hframes
      obtain ⟨rfl, -⟩ := List.cons_prefix_cons.1 hnames
      exact absurd rfl hne
  | case3 frames names hnone =>
    cases frames with
    | nil => exact Nat.le_of_eq (congrArg List.length (List.prefix_nil.1 hframes))
    | cons frame frames =>
      cases names with
      | nil => exact Nat.le_of_eq (congrArg List.length (List.prefix_nil.1 hnames))
      | cons name names => exact absurd rfl (hnone frame frames name names rfl)

theorem sharedFrames_names (frames : List Frame) :
    sharedFrames frames (frames.map (·.name)) = frames.length := by
  induction frames with
  | nil => rfl
  | cons frame frames ih => rw [List.map_cons, sharedFrames, if_pos rfl, ih, List.length_cons]

/-! ### The stack behind a backtrace -/

theorem names_pushFrames (names : List Text) (state : ProgramState) :
    (names.foldl (fun state name => state.pushFrame name) state).frames.map (·.name) =
      state.frames.map (·.name) ++ names := by
  induction names generalizing state with
  | nil => simp
  | cons name names ih =>
    rw [List.foldl_cons, ih, pushFrame]
    simp

/-- Behind a backtrace the stack has the frames that it names. -/
theorem Sound.names_syncFrames (hsound : state.Sound) (backtrace : List StackFrame) :
    (state.syncFrames backtrace).frames.map (·.name) = backtrace.reverse.map (·.function) := by
  have hleft := hsound.leaves_popFrames
    (List.take_append_drop (sharedFrames state.frames (backtrace.reverse.map (·.function)))
      state.frames).symm
  rw [List.length_drop] at hleft
  rw [ProgramState.syncFrames, names_pushFrames, hleft.after, List.append_nil, take_sharedFrames,
    List.take_append_drop]

/-- A stack that has the frames already stays as it is. -/
theorem syncFrames_eq_self {backtrace : List StackFrame}
    (hnames : state.frames.map (·.name) = backtrace.reverse.map (·.function)) :
    state.syncFrames backtrace = state := by
  have hshared : sharedFrames state.frames (backtrace.reverse.map (·.function)) =
      state.frames.length := by
    rw [← hnames, sharedFrames_names]
  have hdrop : (backtrace.reverse.map (·.function)).drop state.frames.length = [] := by
    rw [← hnames]
    exact List.drop_eq_nil_iff.2 (Nat.le_of_eq (List.length_map _))
  simp only [syncFrames, hshared, Nat.sub_self, hdrop, List.foldl_nil, popFrames]

/-- The frames that are not shared are left, and no others. -/
theorem Sound.leaves_syncFrames (hsound : state.Sound) (backtrace : List StackFrame) :
    ∃ entered, state.Leaves
      (state.frames.take (sharedFrames state.frames (backtrace.reverse.map (·.function))))
      (state.frames.drop (sharedFrames state.frames (backtrace.reverse.map (·.function))))
      entered (state.syncFrames backtrace) := by
  have hleft := hsound.leaves_popFrames
    (List.take_append_drop (sharedFrames state.frames (backtrace.reverse.map (·.function)))
      state.frames).symm
  rw [List.length_drop] at hleft
  exact hleft.pushFrames _

/-- A listed value owns its address, and a frame that is left takes it away. -/
theorem Sound.lost_of_leaves {next : ProgramState} {kept left entered : List Frame}
    (hsound : state.Sound) (hleaves : state.Leaves kept left entered next) (address : Nat) :
    (state.idAt? address).isSome ∧ next.idAt? address = none ↔
      ∃ frame ∈ left, ∃ id ∈ frame.values, state.addressOf? id = some address := by
  constructor
  · rintro ⟨hsome, hnone⟩
    obtain ⟨id, hfind⟩ := Option.isSome_iff_exists.1 hsome
    have hlisted : ¬ ∀ frame ∈ left, id ∉ frame.values := by
      intro hunlisted
      cases hnone.symm.trans ((hleaves.owners address id).2 ⟨hfind, hunlisted⟩)
    push Not at hlisted
    obtain ⟨frame, hframe, hmem⟩ := hlisted
    exact ⟨frame, hframe, id, hmem, hsound.owners address id hfind⟩
  · rintro ⟨frame, hframe, id, hmem, hof⟩
    have hbefore : frame ∈ state.frames := by
      rw [hleaves.before]
      exact List.mem_append_right kept hframe
    have hfind : state.idAt? address = some id := hsound.listedOwn frame hbefore id hmem address hof
    refine ⟨Option.isSome_of_mem hfind, ?_⟩
    by_contra hsome
    obtain ⟨other, hother⟩ := Option.ne_none_iff_exists'.1 hsome
    obtain ⟨hsame, hunlisted⟩ := (hleaves.owners address other).1 hother
    cases hfind.symm.trans hsame
    exact hunlisted frame hframe hmem

theorem Sound.synced_syncFrames (hsound : state.Sound) (backtrace : List StackFrame) :
    state.Synced backtrace (sharedFrames state.frames (backtrace.reverse.map (·.function)))
      (state.syncFrames backtrace) := by
  obtain ⟨entered, hleaves⟩ := hsound.leaves_syncFrames backtrace
  have hlength := List.length_take_of_le
    (sharedFrames_le state.frames (backtrace.reverse.map (·.function)))
  refine ⟨shareFirst_sharedFrames _ _, fun count hshare => hshare.le_sharedFrames,
    hsound.names_syncFrames backtrace, (hsound.perform (.syncFrames backtrace)).index, ?_, ?_,
    hleaves.values, hleaves.heap, allocations_syncFrames backtrace state,
    hsound.lost_of_leaves hleaves, ?_⟩
  · rw [hleaves.after, List.take_left' hlength]
  · rw [hleaves.after, List.drop_left' hlength]
    exact hleaves.unused
  · intro address id hfind
    exact ((hleaves.owners address id).1 hfind).1

/-- Whatever has been performed, a backtrace makes the stack match with the least change, and the same
    backtrace again changes nothing. -/
theorem synced_and_settled_performAll (operations : List Operation) (backtrace : List StackFrame) :
    let state := performAll operations {}
    let next := state.syncFrames backtrace
    (∃ shared, state.Synced backtrace shared next) ∧ next.syncFrames backtrace = next :=
  have hsound := sound_empty.performAll operations
  ⟨⟨_, hsound.synced_syncFrames backtrace⟩, syncFrames_eq_self (hsound.names_syncFrames backtrace)⟩

end DebugClient.ProgramState
