import DebugClient.Memory.Observation
import DebugClient.Proofs.Memory.Sighting
import DebugClient.Proofs.Memory.Syncing

/-!
Seeing the same values again. Where all that is seen at one place agrees, that changes nothing. A
variable that is seen twice at one place, with different data, is assigned anew each time; only where
another variable is seen at the same place as well is it forgotten in between.
-/

namespace DebugClient
namespace ProgramState

/-- Sights of one place differ in their data only where different variables are seen there. -/
def Agree (sights : List Value) : Prop :=
  ∀ v ∈ sights, ∀ w ∈ sights, v.place = w.place → v.data ≠ w.data →
    ∃ u ∈ sights, u.place = v.place ∧ u.name ≠ v.name

instance (sights : List Value) : Decidable (Agree sights) := by
  unfold Agree
  infer_instance

/-! ### One place -/

section
variable {known : Option Value} {k seen : Value} {sights : List Value} {location : Location}

/-- What has been known of one variable is forgotten where another one is seen. -/
theorem seenAll_congr {k' : Value} (hname : k'.name = k.name) (hlocation : k'.location = k.location)
    (hother : ∃ u ∈ sights, u.name ≠ k.name) :
    seenAll (some k) sights = seenAll (some k') sights := by
  induction sights generalizing k k' with
  | nil =>
    obtain ⟨u, hu, -⟩ := hother
    cases hu
  | cons v sights ih =>
    show seenAll (some (seenAs (some k) v)) sights = seenAll (some (seenAs (some k') v)) sights
    by_cases hsame : k.name = v.name ∧ k.location = v.location
    · apply ih
      · rw [name_seenAs, name_seenAs]
      · rw [location_seenAs, location_seenAs]
      · obtain ⟨u, hu, hne⟩ := hother
        rw [name_seenAs, ← hsame.1]
        exact ⟨u, List.mem_of_ne_of_mem (fun heq => hne (by rw [heq, hsame.1])) hu, hne⟩
    · have hsame' : ¬ (k'.name = v.name ∧ k'.location = v.location) := by
        rwa [hname, hlocation]
      rw [seenAs, seenAs, if_neg hsame, if_neg hsame']

/-- Where different variables are seen it makes no difference what has been known. -/
theorem seenAll_of_names {u w : Value} (hlocation : ∀ v ∈ sights, v.location = location)
    (hu : u ∈ sights) (hw : w ∈ sights) (hne : u.name ≠ w.name) (known other : Option Value) :
    seenAll known sights = seenAll other sights := by
  cases sights with
  | nil => cases hu
  | cons v sights =>
    show seenAll (some (seenAs known v)) sights = seenAll (some (seenAs other v)) sights
    apply seenAll_congr
    · rw [name_seenAs, name_seenAs]
    · rw [location_seenAs, location_seenAs]
    · rw [name_seenAs]
      by_cases hfirst : u.name = v.name
      · refine ⟨w, List.mem_of_ne_of_mem ?_ hw, fun heq => hne (hfirst.trans heq.symm)⟩
        rintro rfl
        exact hne hfirst
      · refine ⟨u, List.mem_of_ne_of_mem ?_ hu, hfirst⟩
        rintro rfl
        exact hfirst rfl

theorem updated_eq_self (hdata : k.data = seen.data) (htype : k.type.isEmpty → seen.type.isEmpty) :
    updated k seen = k := by
  unfold updated
  rw [if_pos hdata]
  dsimp only
  split
  · next hempty =>
    have hsame : seen.type = k.type := by
      rw [List.isEmpty_iff.1 hempty, List.isEmpty_iff.1 (htype hempty)]
    rw [hsame]
    cases k
    rfl
  · rfl

/-- Sights that say no more than is known change nothing. -/
theorem seenAll_eq_self (hsame : ∀ v ∈ sights, k.name = v.name ∧ k.location = v.location ∧
    k.data = v.data ∧ (k.type.isEmpty → v.type.isEmpty)) : seenAll (some k) sights = some k := by
  induction sights with
  | nil => rfl
  | cons v sights ih =>
    obtain ⟨⟨hname, hlocation, hdata, htype⟩, hrest⟩ := List.forall_mem_cons.1 hsame
    show seenAll (some (seenAs (some k) v)) sights = some k
    rw [seenAs_of_same hname hlocation, updated_eq_self hdata htype]
    exact ih hrest

/-- Behind sights that agree, all they say is known. -/
theorem exists_seenAll_of_agree
    (hsame : ∀ v ∈ sights, k.name = v.name ∧ k.location = v.location ∧ k.data = v.data) :
    ∃ k', seenAll (some k) sights = some k' ∧ k'.name = k.name ∧ k'.location = k.location ∧
      k'.data = k.data ∧
      (k'.type.isEmpty → k.type.isEmpty ∧ ∀ v ∈ sights, v.type.isEmpty) := by
  induction sights generalizing k with
  | nil => exact ⟨k, rfl, rfl, rfl, rfl, fun hempty => ⟨hempty, nofun⟩⟩
  | cons v sights ih =>
    obtain ⟨⟨hname, hlocation, hdata⟩, hrest⟩ := List.forall_mem_cons.1 hsame
    have hdata' : (updated k v).data = k.data := (data_updated k v).trans hdata.symm
    obtain ⟨k', hall, hname', hlocation', hlast, hempty⟩ := ih (k := updated k v) (by
      intro w hw
      rw [name_updated, location_updated, hdata']
      exact hrest w hw)
    rw [name_updated] at hname'
    rw [location_updated] at hlocation'
    refine ⟨k', ?_, hname', hlocation', hlast.trans hdata', ?_⟩
    · show seenAll (some (seenAs (some k) v)) sights = some k'
      rw [seenAs_of_same hname hlocation, hall]
    · intro hnone
      obtain ⟨htype, hothers⟩ := hempty hnone
      rw [type_updated] at htype
      split at htype
      · next hknown => exact ⟨hknown, List.forall_mem_cons.2 ⟨htype, hothers⟩⟩
      · next hknown => exact absurd htype hknown

/-- If the history has not grown, the sights have brought no other data. -/
theorem length_history_seenAll (hsame : ∀ v ∈ sights, k.name = v.name ∧ k.location = v.location) :
    ∃ k', seenAll (some k) sights = some k' ∧ k'.name = k.name ∧ k'.location = k.location ∧
      k.history.length ≤ k'.history.length ∧
      (k'.history.length ≤ k.history.length → ∀ v ∈ sights, v.data = k.data) := by
  induction sights generalizing k with
  | nil => exact ⟨k, rfl, rfl, rfl, Nat.le_refl _, fun _ => nofun⟩
  | cons v sights ih =>
    obtain ⟨⟨hname, hlocation⟩, hrest⟩ := List.forall_mem_cons.1 hsame
    obtain ⟨k', hall, hname', hlocation', hgrown, hequal⟩ := ih (k := updated k v) (by
      intro w hw
      rw [name_updated, location_updated]
      exact hrest w hw)
    rw [name_updated] at hname'
    rw [location_updated] at hlocation'
    have hhistory := history_updated k v
    refine ⟨k', ?_, hname', hlocation', ?_, ?_⟩
    · show seenAll (some (seenAs (some k) v)) sights = some k'
      rw [seenAs_of_same hname hlocation, hall]
    · split at hhistory
      · rwa [hhistory] at hgrown
      · rw [hhistory, List.length_cons] at hgrown
        omega
    · intro hshort
      split at hhistory
      · next hdata =>
        rw [hhistory, data_updated, ← hdata] at hequal
        exact List.forall_mem_cons.2 ⟨hdata.symm, hequal hshort⟩
      · rw [hhistory, List.length_cons] at hgrown
        omega

/-- Seen twice in the same order, one variable ends as after the first time if all its sights agree. -/
theorem seenAll_seenAll_iff_of_one {v : Value} {rest : List Value}
    (hone : ∀ w ∈ v :: rest, (seenAs known v).name = w.name ∧ (seenAs known v).location = w.location) :
    seenAll (seenAll known (v :: rest)) (v :: rest) = seenAll known (v :: rest) ↔
      ∀ u ∈ v :: rest, ∀ w ∈ v :: rest, u.data = w.data := by
  let k := seenAs known v
  have hfirst : seenAll known (v :: rest) = seenAll (some k) rest := rfl
  constructor
  · intro hagain u hu w hw
    obtain ⟨k', hall, hname, hplace, -, -⟩ :=
      length_history_seenAll fun w hw => hone w (List.mem_cons_of_mem v hw)
    obtain ⟨k'', hall', -, -, -, hequal⟩ := length_history_seenAll (k := k') fun w hw => by
      rw [hname, hplace]
      exact hone w hw
    rw [hfirst, hall, hall'] at hagain
    cases hagain
    have hlast := hequal (Nat.le_refl _)
    exact (hlast u hu).trans (hlast w hw).symm
  · intro hagree
    have hdata : ∀ w ∈ v :: rest, k.data = w.data := by
      intro w hw
      rw [data_seenAs]
      exact hagree v List.mem_cons_self w hw
    obtain ⟨k', hall, hname, hplace, hlast, hempty⟩ := exists_seenAll_of_agree (k := k)
      fun w hw => by
        have hmem := List.mem_cons_of_mem v hw
        exact ⟨(hone w hmem).1, (hone w hmem).2, hdata w hmem⟩
    rw [hfirst, hall]
    apply seenAll_eq_self
    intro w hw
    rw [hname, hplace, hlast]
    refine ⟨(hone w hw).1, (hone w hw).2, hdata w hw, ?_⟩
    intro hnone
    obtain ⟨htype, hothers⟩ := hempty hnone
    rcases List.mem_cons.1 hw with rfl | hmem
    · exact isEmpty_type_of_seenAs htype
    · exact hothers w hmem

/-- Seeing the same again at one place changes nothing exactly if the data agrees, or different
    variables are seen there. -/
theorem seenAll_seenAll_iff (hne : sights ≠ []) (hlocation : ∀ v ∈ sights, v.location = location)
    (known : Option Value) :
    seenAll (seenAll known sights) sights = seenAll known sights ↔
      ∀ v ∈ sights, ∀ w ∈ sights, v.data ≠ w.data → ∃ u ∈ sights, u.name ≠ v.name := by
  by_cases hnames : ∃ u ∈ sights, ∃ w ∈ sights, u.name ≠ w.name
  · obtain ⟨u, hu, w, hw, hdiffer⟩ := hnames
    refine iff_of_true (seenAll_of_names hlocation hu hw hdiffer _ _) ?_
    intro v _ _ _ _
    by_cases hname : u.name = v.name
    · exact ⟨w, hw, fun hsame => hdiffer (hname.trans hsame.symm)⟩
    · exact ⟨u, hu, hname⟩
  · have hone : ∀ u ∈ sights, ∀ w ∈ sights, u.name = w.name := by
      intro u hu w hw
      by_contra hdiffer
      exact hnames ⟨u, hu, w, hw, hdiffer⟩
    obtain ⟨v, rest, rfl⟩ := List.exists_cons_of_ne_nil hne
    have hk : ∀ w ∈ v :: rest,
        (seenAs known v).name = w.name ∧ (seenAs known v).location = w.location := by
      intro w hw
      rw [name_seenAs, location_seenAs, hlocation w hw, hlocation v List.mem_cons_self]
      exact ⟨hone v List.mem_cons_self w hw, rfl⟩
    rw [seenAll_seenAll_iff_of_one hk]
    constructor
    · intro hagree u hu w hw hdata
      exact absurd (hagree u hu w hw) hdata
    · intro hother u hu w hw
      by_contra hdata
      obtain ⟨x, hx, hname⟩ := hother u hu w hw hdata
      exact hname (hone x hx u hu)

end

variable {state next : ProgramState} {id frame address : Nat} {v w : Value} {sights : List Value}

/-! ### Seeing the same again -/

/-- All that is seen is known as local of the frame. -/
def AllKnown (frame : Nat) (sights : List Value) (state : ProgramState) : Prop :=
  ∀ v ∈ sights, ∃ known, state.known? v = some known ∧ known.location = .stack frame

/-- A frame that lists a value adopts it without a change, and the others do not have it. -/
theorem Coherent.map_adopt_of_listed (hcoherent : state.Coherent) {current : Frame}
    (hcurrent : state.frames[frame]? = some current) (hlisted : id ∈ current.values) :
    state.frames.map (Frame.adopt id (.stack frame)) = state.frames := by
  have hindex := hcoherent.index frame current hcurrent
  have hplace := hcoherent.located current (List.mem_of_getElem? hcurrent) id hlisted
  rw [hindex] at hplace
  refine (List.map_congr_left ?_).trans (List.map_id _)
  intro other hother
  by_cases hsame : other.index = frame
  · obtain ⟨i, hi⟩ := List.mem_iff_getElem?.1 hother
    have hnumber := hcoherent.index i other hi
    rw [← hnumber, hsame, hcurrent] at hi
    cases hi
    exact adopt_of_listed (by rw [hindex]) hlisted
  · apply adopt_of_unlisted
    · rw [Ne, Location.stack.injEq]
      exact fun heq => hsame heq.symm
    · intro hlisted'
      rw [hcoherent.located other hother id hlisted', Option.some.injEq, Location.stack.injEq] at hplace
      exact hsame hplace

/-- The address of a value on the stack is not one of the heap. -/
theorem Coherent.erase_heap_of_listed (hcoherent : state.Coherent) {current : Frame}
    (hcurrent : state.frames[frame]? = some current) (hlisted : id ∈ current.values)
    (hown : state.addressOf? id = some address) : state.heap.erase address = state.heap := by
  have hmem := List.mem_of_getElem? hcurrent
  apply AddressMap.erase_of_find?_eq_none
  rw [Option.eq_none_iff_forall_ne_some]
  intro other hother
  obtain ⟨howner, hheap⟩ := (hcoherent.heap address other).1 hother
  have howns := hcoherent.listedOwn current hmem id hlisted address hown
  rw [howner] at howns
  cases howns
  rw [hcoherent.located current hmem id hlisted] at hheap
  cases hheap

/-- A local that is changed in its place stays where it is listed. -/
theorem Coherent.attach_modifyValue (hcoherent : state.Coherent) {known : Value} {change : Value → Value}
    {current : Frame} (hknown : state.values[id]? = some known)
    (haddress : (change known).address = known.address)
    (hlocation : (change known).location = .stack frame)
    (hcurrent : state.frames[frame]? = some current) (hlisted : id ∈ current.values) :
    (state.modifyValue id change).attach id = state.modifyValue id change := by
  have hvalue : (state.modifyValue id change).values[id]? = some (change known) := by
    simp [ProgramState.modifyValue, Array.getElem?_modify, hknown]
  have hframes : state.frames.map (Frame.adopt id (change known).location) = state.frames := by
    rw [hlocation]
    exact hcoherent.map_adopt_of_listed hcurrent hlisted
  have hsame : ∀ heap frames, heap = state.heap → frames = state.frames →
      ({ state.modifyValue id change with heap, frames } : ProgramState) =
        state.modifyValue id change := by
    rintro _ _ rfl rfl
    rfl
  rw [attach_of_value hvalue]
  refine hsame _ _ ?_ hframes
  have hplace : (change known).location ≠ .heap := by simp [hlocation]
  rw [haddress]
  cases hown : known.address with
  | none => rfl
  | some address =>
    dsimp only
    rw [if_neg hplace]
    apply hcoherent.erase_heap_of_listed hcurrent hlisted
    rw [addressOf?, hknown, Option.bind_some, hown]

/-- Where something is known, seeing it again changes no more than the value. -/
theorem Coherent.observe_of_known {known : Value} (hcoherent : state.Coherent)
    (hlocation : v.location = .stack frame) (hknown : state.known? v = some known)
    (hplace : known.location = .stack frame) :
    ∃ id change, state.findExisting? v = some id ∧
      (state.observe v).2 = state.modifyValue id change := by
  obtain ⟨id, hfind, hvalue⟩ := Option.bind_eq_some_iff.1 hknown
  have hlisted : ∃ current, state.frames[frame]? = some current ∧ id ∈ current.values := by
    cases haddress : v.address with
    | none =>
      obtain ⟨current, -, hcurrent, hlisted, -⟩ :=
        hcoherent.sound.exists_known_of_name haddress hlocation hfind
      exact ⟨current, hcurrent, hlisted⟩
    | some address =>
      rw [findExisting?_of_address haddress] at hfind
      exact hcoherent.listed address id frame hfind
        (by rw [locationOf?, hvalue, Option.map_some, hplace])
  obtain ⟨current, hcurrent, hlisted⟩ := hlisted
  by_cases hsame : known.name = v.name ∧ known.location = v.location
  · refine ⟨id, fun known => updated known v, hfind, ?_⟩
    rw [observe_of_same hfind hvalue hsame]
    exact hcoherent.attach_modifyValue hvalue (address_updated known v)
      ((location_updated known v).trans hplace) hcurrent hlisted
  · refine ⟨id, fun _ => v, hfind, ?_⟩
    rw [observe_of_other hfind hvalue hsame]
    cases haddress : v.address with
    | none =>
      obtain ⟨-, other, -, -, hother, hname, -, hthere⟩ :=
        hcoherent.sound.exists_known_of_name haddress hlocation hfind
      rw [hvalue] at hother
      cases hother
      exact absurd ⟨hname, hthere.trans hlocation.symm⟩ hsame
    | some address =>
      obtain ⟨other, hother, hown⟩ := hcoherent.sound.exists_known_of_address haddress hfind
      rw [hvalue] at hother
      cases hother
      rw [findExisting?_of_address haddress] at hfind
      have hrecord : state.recordValue v = (id, (state.modifyValue id fun _ => v).attach id) := by
        rw [ProgramState.recordValue, haddress, Option.bind_some, hfind]
      rw [hrecord]
      exact hcoherent.attach_modifyValue hvalue (haddress.trans hown.symm) hlocation hcurrent hlisted

/-- Another state in which no more than the values of these sights differs. -/
structure Differs (sights : List Value) (state next : ProgramState) : Prop where
  eq : next = { state with values := next.values }
  found : ∀ v ∈ sights, next.findExisting? v = state.findExisting? v
  other : ∀ id, (∀ v ∈ sights, state.findExisting? v ≠ some id) → next.values[id]? = state.values[id]?

/-- Seeing again what is known changes no more than these values. -/
theorem Clear.differs_observeAll (hsights : SightsOf frame sights) {seen : List Value}
    (hseen : seen ⊆ sights) (hclear : state.Clear frame sights) (hlt : frame < state.frames.length)
    (hknown : state.AllKnown frame sights) : Differs sights state (state.observeAll seen) := by
  induction seen generalizing state with
  | nil => exact ⟨rfl, fun _ _ => rfl, fun _ _ => rfl⟩
  | cons w seen ih =>
    obtain ⟨hw, hrest⟩ := List.cons_subset.1 hseen
    obtain ⟨id, next, hobserve, hsighted⟩ := hclear.coherent.sound.exists_sighted w
    obtain ⟨known, hvalue, hplace⟩ := hknown w hw
    obtain ⟨found, change, hfind, hmodify⟩ :=
      hclear.coherent.observe_of_known (hsights.location w hw) hvalue hplace
    have hmatched : id = found := by
      rcases hsighted.matched with hsame | ⟨hnew, -⟩
      · exact Option.some.inj (hsame.symm.trans hfind)
      · rw [hnew] at hfind
        cases hfind
    rw [hobserve] at hmodify
    have hnext : state.observeAll (w :: seen) = next.observeAll seen := by
      rw [ProgramState.observeAll, List.foldl_cons, hobserve]
      rfl
    have hsame : ∀ v ∈ sights, next.findExisting? v = state.findExisting? v := by
      intro v hv
      rw [hclear.findExisting?_of_sighted hsights hv hw hsighted hlt]
      split
      · next hequal =>
        rw [findExisting?_congr hequal ((hsights.location v hv).trans (hsights.location w hw).symm),
          hfind,
          hmatched]
      · rfl
    have hknown' : next.AllKnown frame sights := by
      intro v hv
      rw [hclear.known?_of_sighted hsights hv hw hsighted hlt]
      split
      · exact ⟨_, rfl, (location_seenAs _ w).trans (hsights.location w hw)⟩
      · exact hknown v hv
    have hlt' : frame < next.frames.length := by
      rwa [hsighted.settles.frames, List.length_map]
    obtain ⟨heq, hfound, hother⟩ := ih hrest (hclear.of_sighted hsights hw hsighted hlt) hlt' hknown'
    rw [hnext]
    refine ⟨?_, ?_, ?_⟩
    · dsimp only at hmodify
      rw [heq, hmodify]
      rfl
    · intro v hv
      rw [hfound v hv, hsame v hv]
    · intro other hnever
      rw [hother other fun v hv => by rw [hsame v hv]; exact hnever v hv, hsighted.settles.other]
      rintro rfl
      exact hnever w hw (hfind.trans (by rw [hmatched]))

theorem exists_seenAll {sights : List Value} (hne : sights ≠ []) (known : Option Value) :
    ∃ k, seenAll known sights = some k ∧ ∃ v ∈ sights, k.location = v.location := by
  obtain ⟨earlier, v, rfl⟩ := (List.eq_nil_or_concat sights).resolve_left hne
  refine ⟨seenAs (seenAll known earlier) v, ?_, v, by simp, location_seenAs _ v⟩
  rw [List.concat_eq_append, seenAll, List.foldl_append]
  rfl

/-- Where all is known, the state is as before if the same is known of every sight. -/
theorem Clear.observeAll_eq_self (hsights : SightsOf frame sights) (hclear : state.Clear frame sights)
    (hlt : frame < state.frames.length) (hall : state.AllKnown frame sights)
    (hsame : ∀ v ∈ sights, (state.observeAll sights).known? v = state.known? v) :
    state.observeAll sights = state := by
  obtain ⟨heq, hfound, hother⟩ :=
    hclear.differs_observeAll hsights (List.Subset.refl sights) hlt hall
  have hvalues : (state.observeAll sights).values = state.values := by
    apply Array.ext_getElem?
    intro id
    by_cases hmatched : ∃ v ∈ sights, state.findExisting? v = some id
    · obtain ⟨v, hv, hfind⟩ := hmatched
      have hvalue := hsame v hv
      rwa [known?, known?, hfound v hv, hfind, Option.bind_some, Option.bind_some] at hvalue
    · exact hother id fun v hv hfind => hmatched ⟨v, hv, hfind⟩
  rw [heq, hvalues]

/-- Sights agree if those of each place do. -/
theorem agree_iff : Agree sights ↔ ∀ v ∈ sights, ∀ x ∈ sights.filter (·.place = v.place),
    ∀ y ∈ sights.filter (·.place = v.place), x.data ≠ y.data →
      ∃ u ∈ sights.filter (·.place = v.place), u.name ≠ x.name := by
  constructor
  · intro hagree v hv x hx y hy hdata
    obtain ⟨hx, hxplace⟩ := List.mem_filter.1 hx
    obtain ⟨hy, hyplace⟩ := List.mem_filter.1 hy
    have hxplace := of_decide_eq_true hxplace
    have hyplace := of_decide_eq_true hyplace
    obtain ⟨u, hu, hplace, hname⟩ := hagree x hx y hy (hxplace.trans hyplace.symm) hdata
    exact ⟨u, List.mem_filter.2 ⟨hu, decide_eq_true (hplace.trans hxplace)⟩, hname⟩
  · intro hplaces v hv w hw hplace hdata
    obtain ⟨u, hu, hname⟩ := hplaces v hv v (List.mem_filter.2 ⟨hv, by simp⟩) w
      (List.mem_filter.2 ⟨hw, by simp [hplace]⟩) hdata
    obtain ⟨hmem, hthere⟩ := List.mem_filter.1 hu
    exact ⟨u, hmem, of_decide_eq_true hthere, hname⟩

/-- Where these sights have been noted, noting them once more changes nothing exactly if they agree. -/
theorem observeAll_eq_self_iff {first : ProgramState} (hsights : SightsOf frame sights)
    (hclear : first.Clear frame sights) (hlt : frame < first.frames.length)
    (hagain : state.Clear frame sights) (hlt' : frame < state.frames.length)
    (hknown : ∀ v ∈ sights, state.known? v = (first.observeAll sights).known? v) :
    state.observeAll sights = state ↔ Agree sights := by
  have hfirst (v) (hv : v ∈ sights) : state.known? v =
      seenAll (first.known? v) (sights.filter (·.place = v.place)) := by
    rw [hknown v hv]
    exact (hclear.observeAll hsights (List.Subset.refl sights) hlt).2.2 v hv
  have hplaces (v) (hv : v ∈ sights) : sights.filter (·.place = v.place) ≠ [] :=
    List.ne_nil_of_mem (List.mem_filter.2 ⟨hv, by simp⟩)
  have hlocations (v : Value) : ∀ w ∈ sights.filter (·.place = v.place), w.location = .stack frame :=
    fun w hw => hsights.location w (List.mem_of_mem_filter hw)
  have hall : state.AllKnown frame sights := by
    intro v hv
    obtain ⟨k, hsome, w, hw, hlocation⟩ := exists_seenAll (hplaces v hv) (first.known? v)
    exact ⟨k, (hfirst v hv).trans hsome, hlocation.trans (hlocations v w hw)⟩
  have hagain' (v) (hv : v ∈ sights) : (state.observeAll sights).known? v =
      seenAll (state.known? v) (sights.filter (·.place = v.place)) :=
    (hagain.observeAll hsights (List.Subset.refl sights) hlt').2.2 v hv
  have hequal : state.observeAll sights = state ↔
      ∀ v ∈ sights, (state.observeAll sights).known? v = state.known? v := by
    constructor
    · intro hsame v _
      rw [hsame]
    · exact hagain.observeAll_eq_self hsights hlt' hall
  rw [hequal, agree_iff]
  refine forall₂_congr fun v hv => ?_
  rw [hagain' v hv, hfirst v hv, seenAll_seenAll_iff (hplaces v hv) (hlocations v)]

/-! ### The call stack -/

theorem name_adopt (id : Nat) (location : Location) (frame : Frame) :
    (Frame.adopt id location frame).name = frame.name := by
  unfold Frame.adopt
  split
  · split <;> rfl
  · rfl

theorem names_attach (id : Nat) (state : ProgramState) :
    (state.attach id).frames.map (·.name) = state.frames.map (·.name) := by
  unfold attach
  split
  · rfl
  · simp only [List.map_map, Function.comp_def, name_adopt]

theorem names_recordValue (value : Value) (state : ProgramState) :
    (state.recordValue value).2.frames.map (·.name) = state.frames.map (·.name) := by
  unfold recordValue
  split <;> exact names_attach _ _

theorem names_observe (value : Value) (state : ProgramState) :
    (state.observe value).2.frames.map (·.name) = state.frames.map (·.name) := by
  unfold observe
  split
  · exact names_recordValue value state
  · split
    · exact names_recordValue value state
    · split
      · exact names_attach _ _
      · exact names_recordValue value state

theorem names_observeAll (sights : List Value) (state : ProgramState) :
    (state.observeAll sights).frames.map (·.name) = state.frames.map (·.name) := by
  induction sights generalizing state with
  | nil => rfl
  | cons v sights ih => exact (ih _).trans (names_observe v state)

theorem names_applyMemlog (event : MemlogEvent) (state : ProgramState) :
    (state.applyMemlog event).2.frames.map (·.name) = state.frames.map (·.name) := by
  rcases applyMemlog_cases event state with heq | ⟨address, id, data, -, -, heq⟩ |
    ⟨allocations, value, -, -, -, heq⟩
  · rw [heq]
  · rw [heq]
    rfl
  · rw [heq]
    exact names_recordValue value _

theorem names_foldl_applyMemlog (events : List MemlogEvent) (state : ProgramState) :
    (events.foldl (fun state event => (state.applyMemlog event).2) state).frames.map (·.name) =
      state.frames.map (·.name) := by
  induction events generalizing state with
  | nil => rfl
  | cons event events ih => exact (ih _).trans (names_applyMemlog event state)

theorem Coherent.names_syncFrames (hcoherent : state.Coherent) (backtrace : List StackFrame) :
    (state.syncFrames backtrace).frames.map (·.name) = backtrace.reverse.map (·.function) :=
  hcoherent.sound.names_syncFrames backtrace

/-! ### The memory log -/

theorem Apart.congr (hapart : state.Apart frame sights)
    (hsame : ∀ known ∈ next.frameValues frame, ∃ before ∈ state.frameValues frame,
      before.name = known.name ∧ before.slot = known.slot ∧ before.address = known.address) :
    next.Apart frame sights := by
  intro known hknown hslot v hv hnone hname w hw haddress
  obtain ⟨before, hbefore, hname', hslot', haddress'⟩ := hsame known hknown
  rw [← haddress']
  exact hapart before hbefore (hslot'.trans hslot) v hv hnone (hname'.trans hname) w hw haddress

/-- The memory log brings no locals. -/
theorem Clear.applyMemlog (hclear : state.Clear frame sights) (event : MemlogEvent) :
    (state.applyMemlog event).2.Clear frame sights := by
  refine ⟨hclear.coherent.applyMemlog event, ?_⟩
  rcases applyMemlog_cases event state with heq | ⟨address, id, data, -, -, heq⟩ |
    ⟨allocations, value, hlocation, -, -, heq⟩
  · rw [heq]
    exact hclear.apart
  · rw [heq]
    apply hclear.apart.congr
    intro known hmem
    obtain ⟨current, hcurrent, other, hlisted, hknown⟩ := mem_frameValues_iff.1 hmem
    rw [modifyValue, Array.getElem?_modify] at hknown
    split at hknown
    · obtain ⟨before, hbefore, hchange⟩ := Option.map_eq_some_iff.1 hknown
      refine ⟨before, mem_frameValues_iff.2 ⟨current, hcurrent, other, hlisted, hbefore⟩, ?_⟩
      rw [← hchange]
      split <;> exact ⟨rfl, rfl, rfl⟩
    · exact ⟨known, mem_frameValues_iff.2 ⟨current, hcurrent, other, hlisted, hknown⟩, rfl, rfl, rfl⟩
  · rw [heq]
    have hcoherent := hclear.coherent.with_allocations allocations
    obtain ⟨id, next, hrecord, hsettles, -⟩ := settles_recordValue hcoherent.owners value
    rw [hrecord]
    apply hclear.apart.congr
    intro known hmem
    obtain ⟨current, hcurrent, other, hlisted, hknown⟩ := mem_frameValues_iff.1 hmem
    dsimp only at hcurrent hknown
    rw [hsettles.frames, List.getElem?_map] at hcurrent
    obtain ⟨before, hbefore, rfl⟩ := Option.map_eq_some_iff.1 hcurrent
    rcases mem_adopt.1 hlisted with ⟨hlisted, hne⟩ | ⟨-, hstack⟩
    · rw [hsettles.other other hne] at hknown
      exact ⟨known, mem_frameValues_iff.2 ⟨before, hbefore, other, hlisted, hknown⟩, rfl, rfl, rfl⟩
    · rw [hlocation] at hstack
      cases hstack

theorem Clear.foldl_applyMemlog (hclear : state.Clear frame sights) (events : List MemlogEvent) :
    (events.foldl (fun state event => (state.applyMemlog event).2) state).Clear frame sights := by
  induction events generalizing state with
  | nil => exact hclear
  | cons event events ih => exact ih (hclear.applyMemlog event)

end ProgramState

namespace Observation
open ProgramState

/-- The values that a variable consists of have its name and live in its frame. All of them have an
    address if the variable has one, and only then they may be members of an array. -/
theorem of_mem_values {observation : Observation} {v : Value} (hmem : v ∈ observation.values) :
    v.name = observation.name ∧ v.location = .stack observation.frame ∧
      (v.address = none ↔ observation.address = none) ∧ (v.address = none → v.slot = none) := by
  have hwhole : ∀ v ∈ [observation.wholeValue], v.name = observation.name ∧
      v.location = .stack observation.frame ∧ (v.address = none ↔ observation.address = none) ∧
      (v.address = none → v.slot = none) := by
    intro v hv
    rw [List.mem_singleton.1 hv]
    exact ⟨rfl, rfl, Iff.rfl, fun _ => rfl⟩
  unfold values at hmem
  split at hmem
  · next elements start size _ haddress _ =>
    dsimp only at hmem
    split at hmem
    · obtain ⟨⟨element, index⟩, -, rfl⟩ := List.mem_map.1 hmem
      refine ⟨rfl, rfl, ?_, nofun⟩
      rw [haddress]
      exact iff_of_false nofun nofun
    · exact hwhole v hmem
  · exact hwhole v hmem

/-- The values of variables of one frame, each of which has an address or has none. -/
theorem sightsOf_values {observations : List Observation} {frame : Nat}
    (hframe : ∀ observation ∈ observations, observation.frame = frame)
    (haddress : ∀ observation ∈ observations, ∀ other ∈ observations,
      observation.name = other.name → observation.address = other.address) :
    SightsOf frame (observations.flatMap (·.values)) := by
  constructor
  · intro v hv
    obtain ⟨observation, hmem, hvalue⟩ := List.mem_flatMap.1 hv
    rw [(of_mem_values hvalue).2.1, hframe observation hmem]
  · intro v hv
    obtain ⟨observation, hmem, hvalue⟩ := List.mem_flatMap.1 hv
    exact (of_mem_values hvalue).2.2.2
  · intro v hv w hw hname
    obtain ⟨observation, hmem, hvalue⟩ := List.mem_flatMap.1 hv
    obtain ⟨other, hother, hvalue'⟩ := List.mem_flatMap.1 hw
    obtain ⟨hv, -, hvaddress, -⟩ := of_mem_values hvalue
    obtain ⟨hw, -, hwaddress, -⟩ := of_mem_values hvalue'
    rw [hvaddress, hwaddress, haddress observation hmem other hother (hv.symm.trans (hname.trans hw))]

end Observation
end DebugClient
