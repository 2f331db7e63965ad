import Orchestration.Proofs.Bounds
import Orchestration.Proofs.Tables

/-! Canonical values. Bringing a value into order changes nothing a second time, and leaves it
nested no deeper, with no other numbers in it. A record keeps values in this form. -/
namespace Orchestration

namespace Json

theorem canonicalItems_eq (items : List Json) : canonicalItems items = items.map canonical := by
  induction items with
  | nil => rfl
  | cons j rest ih => rw [canonicalItems, ih, List.map_cons]

theorem canonicalMembers_eq (members : List (String × Json)) :
    canonicalMembers members = members.map fun m => (m.1, m.2.canonical) := by
  induction members with
  | nil => rfl
  | cons m rest ih => rw [canonicalMembers, ih, List.map_cons]

theorem Fits.arr {items : List Json} {k : Nat} (fits : (Json.arr items).Fits k) :
    ∃ l, k = l + 1 ∧ ∀ j ∈ items, j.Fits l := by
  obtain ⟨l, rfl⟩ : ∃ l, k = l + 1 := by
    have deep := fits.depth
    rw [Json.depth] at deep
    exact ⟨k - 1, by omega⟩
  exact ⟨l, rfl, fits_arr.mp fits⟩

theorem Fits.obj {members : List (String × Json)} {k : Nat} (fits : (Json.obj members).Fits k) :
    ∃ l, k = l + 1 ∧ ∀ m ∈ members, m.2.Fits l := by
  obtain ⟨l, rfl⟩ : ∃ l, k = l + 1 := by
    have deep := fits.depth
    rw [Json.depth] at deep
    exact ⟨k - 1, by omega⟩
  exact ⟨l, rfl, fits_obj.mp fits⟩

/-- A table whose values are canonical already, brought into order, is canonical. -/
theorem canonical_obj {members : List (String × Json)}
    (inner : ∀ m ∈ members, m.2.canonical.canonical = m.2.canonical) :
    (Json.obj members).canonical.canonical = (Json.obj members).canonical := by
  have fixed : canonicalMembers (Table.ofList (canonicalMembers members)) =
      Table.ofList (canonicalMembers members) := by
    rw [canonicalMembers_eq]
    conv_rhs => rw [← List.map_id (Table.ofList (canonicalMembers members))]
    apply List.map_congr_left
    intro e member
    have origin := Table.mem_ofList member
    rw [canonicalMembers_eq] at origin
    obtain ⟨m, inside, rfl⟩ := List.mem_map.mp origin
    simp [inner m inside]
  simp only [canonical]
  rw [fixed, Table.ofList_eq_self (Table.sorted_ofList _)]

mutual

theorem canonical_canonical : (j : Json) → j.canonical.canonical = j.canonical
  | .null => rfl
  | .bool _ => rfl
  | .num _ => rfl
  | .str _ => rfl
  | .arr items => by
    have inner := canonical_items items
    simp only [canonical, canonicalItems_eq, List.map_map]
    congr 1
    exact List.map_congr_left inner
  | .obj members => canonical_obj (canonical_members members)

theorem canonical_items : (items : List Json) → ∀ j ∈ items, j.canonical.canonical = j.canonical
  | [] => by simp
  | j :: rest => List.forall_mem_cons.mpr ⟨canonical_canonical j, canonical_items rest⟩

theorem canonical_members : (members : List (String × Json)) →
    ∀ m ∈ members, m.2.canonical.canonical = m.2.canonical
  | [] => by simp
  | (_, j) :: rest => List.forall_mem_cons.mpr ⟨canonical_canonical j, canonical_members rest⟩

end

mutual

theorem Fits.canonical : (j : Json) → {k : Nat} → j.Fits k → j.canonical.Fits k
  | .null, _, fits => fits
  | .bool _, _, fits => fits
  | .num _, _, fits => fits
  | .str _, _, fits => fits
  | .arr items, k, fits => by
    obtain ⟨l, rfl, inner⟩ := fits.arr
    rw [Json.canonical, canonicalItems_eq, fits_arr]
    intro j member
    obtain ⟨i, inside, rfl⟩ := List.mem_map.mp member
    exact Fits.canonical_items items inner i inside
  | .obj members, k, fits => by
    obtain ⟨l, rfl, inner⟩ := fits.obj
    rw [Json.canonical, canonicalMembers_eq, fits_obj]
    intro m member
    obtain ⟨i, inside, rfl⟩ := List.mem_map.mp (Table.mem_ofList member)
    exact Fits.canonical_members members inner i inside

theorem Fits.canonical_items : (items : List Json) → {l : Nat} → (∀ j ∈ items, j.Fits l) →
    ∀ j ∈ items, j.canonical.Fits l
  | [], _, _ => by simp
  | j :: rest, _, inner => by
    obtain ⟨first, more⟩ := List.forall_mem_cons.mp inner
    exact List.forall_mem_cons.mpr ⟨Fits.canonical j first, Fits.canonical_items rest more⟩

theorem Fits.canonical_members : (members : List (String × Json)) → {l : Nat} →
    (∀ m ∈ members, m.2.Fits l) → ∀ m ∈ members, m.2.canonical.Fits l
  | [], _, _ => by simp
  | (_, j) :: rest, _, inner => by
    obtain ⟨first, more⟩ := List.forall_mem_cons.mp inner
    exact List.forall_mem_cons.mpr ⟨Fits.canonical j first, Fits.canonical_members rest more⟩

end

def Clean (j : Json) : Prop := ∀ n ∈ j.numbers, n.Sound

structure Proper (j : Json) : Prop where
  canonical : j.canonical = j
  clean : j.Clean

theorem Fits.proper {j : Json} {k : Nat} (fits : j.Fits k) : j.canonical.Proper :=
  ⟨canonical_canonical j, (Fits.canonical j fits).numbers⟩

end Json

end Orchestration
