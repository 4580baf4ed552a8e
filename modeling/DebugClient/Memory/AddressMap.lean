import DebugClient.Memory.Value

/-!
Finite maps from addresses, kept in ascending order of the addresses.
-/

namespace DebugClient

/-- A map from addresses. Each address has at most one entry, and as the order is fixed, two maps
    with the same entries are equal. -/
structure AddressMap (α : Type) where
  entries : List (Nat × α)
  ascending : entries.Pairwise fun a b => a.1 < b.1
  deriving DecidableEq, Repr

namespace AddressMap
variable {α : Type}

def empty : AddressMap α := ⟨[], .nil⟩

instance : Inhabited (AddressMap α) := ⟨empty⟩

/-- Put an entry in its place, instead of any entry with the same address. -/
def place (address : Nat) (a : α) : List (Nat × α) → List (Nat × α)
  | [] => [(address, a)]
  | (other, b) :: entries =>
    if address < other then (address, a) :: (other, b) :: entries
    else if address = other then (address, a) :: entries
    else (other, b) :: place address a entries

theorem mem_place {address : Nat} {a : α} {entries : List (Nat × α)} {entry : Nat × α}
    (hmem : entry ∈ place address a entries) : entry = (address, a) ∨ entry ∈ entries := by
  fun_induction place address a entries with
  | case1 => exact .inl (List.mem_singleton.1 hmem)
  | case2 other b entries hlt => exact List.mem_cons.1 hmem
  | case3 b entries hlt =>
    exact (List.mem_cons.1 hmem).imp_right (List.mem_cons_of_mem _)
  | case4 other b entries hlt hne ih =>
    rcases List.mem_cons.1 hmem with rfl | hrest
    · exact .inr List.mem_cons_self
    · exact (ih hrest).imp_right (List.mem_cons_of_mem _)

theorem ascending_place {address : Nat} {a : α} {entries : List (Nat × α)}
    (hentries : entries.Pairwise fun a b => a.1 < b.1) :
    (place address a entries).Pairwise fun a b => a.1 < b.1 := by
  fun_induction place address a entries with
  | case1 => simp
  | case2 other b entries hlt =>
    refine List.pairwise_cons.2 ⟨fun entry hentry => ?_, hentries⟩
    rcases List.mem_cons.1 hentry with rfl | hrest
    · exact hlt
    · exact Nat.lt_trans hlt ((List.pairwise_cons.1 hentries).1 entry hrest)
  | case3 b entries hlt => exact List.pairwise_cons.2 (List.pairwise_cons.1 hentries)
  | case4 other b entries hlt hne ih =>
    obtain ⟨hfirst, hrest⟩ := List.pairwise_cons.1 hentries
    refine List.pairwise_cons.2 ⟨fun entry hentry => ?_, ih hrest⟩
    rcases mem_place hentry with rfl | hmem
    · dsimp only
      omega
    · exact hfirst entry hmem

def insert (address : Nat) (a : α) (map : AddressMap α) : AddressMap α :=
  ⟨place address a map.entries, ascending_place map.ascending⟩

def erase (address : Nat) (map : AddressMap α) : AddressMap α :=
  ⟨map.entries.filter fun entry => entry.1 ≠ address, map.ascending.filter _⟩

def find? (map : AddressMap α) (address : Nat) : Option α := map.entries.lookup address

/-- The entry with the greatest address that is not above the given one. -/
def floor? (map : AddressMap α) (address : Nat) : Option (Nat × α) :=
  (map.entries.filter fun entry => entry.1 ≤ address).getLast?

def values (map : AddressMap α) : List α := map.entries.map (·.2)

end AddressMap
end DebugClient
