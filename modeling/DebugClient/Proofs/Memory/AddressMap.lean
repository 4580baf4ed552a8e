import Mathlib.Data.List.Nodup
import DebugClient.Memory.AddressMap

/-!
Looking addresses up. What an address leads to changes only where an entry is put in or taken out,
and the entries of a map are exactly what can be found in it.
-/

namespace DebugClient.AddressMap

variable {α : Type} {map : AddressMap α} {address : Nat} {a : α}

theorem lookup_cons_eq_ite (first other : Nat) (a : α) (entries : List (Nat × α)) :
    ((first, a) :: entries).lookup other =
      if other = first then some a else entries.lookup other := by
  rw [List.lookup_cons]
  by_cases heq : other = first
  · simp [heq]
  · have hne : (other == first) = false := by simpa using heq
    simp [heq, hne]

theorem lookup_place (address other : Nat) (a : α) (entries : List (Nat × α)) :
    (place address a entries).lookup other =
      if other = address then some a else entries.lookup other := by
  fun_induction place address a entries with
  | case1 => rw [lookup_cons_eq_ite]
  | case2 first b entries hlt => rw [lookup_cons_eq_ite]
  | case3 b entries hlt =>
    rw [lookup_cons_eq_ite, lookup_cons_eq_ite]
    by_cases heq : other = address
    · rw [if_pos heq, if_pos heq]
    · rw [if_neg heq, if_neg heq, if_neg heq]
  | case4 first b entries hlt hne ih =>
    rw [lookup_cons_eq_ite, lookup_cons_eq_ite, ih]
    by_cases hfirst : other = first
    · have hother : other ≠ address := by omega
      rw [if_pos hfirst, if_neg hother, if_pos hfirst]
    · rw [if_neg hfirst, if_neg hfirst]

/-- Behind an insertion only the address put in leads elsewhere. -/
theorem find?_insert (map : AddressMap α) (address other : Nat) (a : α) :
    (map.insert address a).find? other = if other = address then some a else map.find? other :=
  lookup_place address other a map.entries

theorem lookup_filter_ne (address other : Nat) (entries : List (Nat × α)) :
    (entries.filter fun entry => entry.1 ≠ address).lookup other =
      if other = address then none else entries.lookup other := by
  induction entries with
  | nil => simp
  | cons entry entries ih =>
    obtain ⟨first, b⟩ := entry
    by_cases hfirst : first = address
    · rw [List.filter_cons_of_neg (by simpa using hfirst), ih, lookup_cons_eq_ite, hfirst]
      by_cases hother : other = address
      · rw [if_pos hother, if_pos hother]
      · rw [if_neg hother, if_neg hother, if_neg hother]
    · rw [List.filter_cons_of_pos (by simpa using hfirst), lookup_cons_eq_ite, ih,
        lookup_cons_eq_ite]
      by_cases hother : other = first
      · have hkept : other ≠ address := fun h => hfirst (hother.symm.trans h)
        rw [if_pos hother, if_neg hkept, if_pos hother]
      · rw [if_neg hother, if_neg hother]

theorem find?_erase (map : AddressMap α) (address other : Nat) :
    (map.erase address).find? other = if other = address then none else map.find? other :=
  lookup_filter_ne address other map.entries

/-- As each address has at most one entry, what is found is what has been entered. -/
theorem find?_eq_some_iff : map.find? address = some a ↔ (address, a) ∈ map.entries := by
  obtain ⟨entries, hascending⟩ := map
  rw [find?]
  dsimp only
  induction entries with
  | nil => simp
  | cons entry entries ih =>
    obtain ⟨first, b⟩ := entry
    obtain ⟨hfirst, hrest⟩ := List.pairwise_cons.1 hascending
    rw [lookup_cons_eq_ite, List.mem_cons]
    by_cases heq : address = first
    · have hnew : (address, a) ∉ entries := by
        intro hmem
        have hlt : first < address := hfirst _ hmem
        omega
      simp [heq, heq ▸ hnew, eq_comm]
    · rw [if_neg heq, ih hrest]
      simp [heq]

theorem erase_of_find?_eq_none (hnone : map.find? address = none) : map.erase address = map := by
  have hkept : map.entries.filter (fun entry => entry.1 ≠ address) = map.entries := by
    rw [List.filter_eq_self]
    rintro ⟨other, b⟩ hmem
    rw [decide_eq_true_eq]
    rintro rfl
    rw [find?_eq_some_iff.2 hmem] at hnone
    cases hnone
  simp only [erase, hkept]

theorem mem_values_iff : a ∈ map.values ↔ ∃ address, map.find? address = some a := by
  simp only [values, List.mem_map, find?_eq_some_iff, Prod.exists, exists_eq_right]

/-- A map that leads to each of its values from one address only lists no value twice. -/
theorem nodup_values (hsingle : ∀ address other a, map.find? address = some a →
    map.find? other = some a → address = other) : map.values.Nodup := by
  have hentries : map.entries.Nodup := by
    refine map.ascending.imp ?_
    intro first second hlt heq
    rw [heq] at hlt
    exact Nat.lt_irrefl _ hlt
  apply hentries.map_on
  rintro ⟨address, a⟩ hfirst ⟨other, b⟩ hsecond heq
  obtain rfl : a = b := heq
  rw [hsingle address other a (find?_eq_some_iff.2 hfirst) (find?_eq_some_iff.2 hsecond)]

end DebugClient.AddressMap
