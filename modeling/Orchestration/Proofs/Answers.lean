import Mathlib.Data.List.Nodup
import Orchestration.Store.Filter

/-! What a query answers to logs that come in different orders. Time and iteration of the logs
answered are the same at each position; the logs are the same, unless the limit parts some that
share time and iteration; and so is their order, if no two of those that match do. -/
namespace Orchestration

def DecisionLog.place (l : DecisionLog) : Timestamp × Nat := (l.timestamp, l.iteration)

namespace DecisionFilter

def Precedes (p q : Timestamp × Nat) : Prop := p.1.lt q.1 = true ∨ p.1 = q.1 ∧ p.2 ≤ q.2

theorem ordered_iff (a b : DecisionLog) : ordered a b = true ↔ Precedes a.place b.place := by
  simp [ordered, Precedes, DecisionLog.place]

theorem Precedes.trans {p q r : Timestamp × Nat} (first : Precedes p q) (second : Precedes q r) :
    Precedes p r := by
  unfold Precedes at *
  rcases first with less | ⟨same, le⟩ <;> rcases second with more | ⟨equal, ge⟩
  · left
    rw [Timestamp.lt_iff] at *
    omega
  · exact .inl (equal ▸ less)
  · exact .inl (same ▸ more)
  · exact .inr ⟨same.trans equal, Nat.le_trans le ge⟩

theorem Precedes.total (p q : Timestamp × Nat) : Precedes p q ∨ Precedes q p := by
  unfold Precedes
  rw [Timestamp.lt_iff, Timestamp.lt_iff]
  obtain ⟨⟨s, n⟩, i⟩ := p
  obtain ⟨⟨s', n'⟩, i'⟩ := q
  simp only [Timestamp.mk.injEq]
  omega

theorem Precedes.antisymm {p q : Timestamp × Nat} (first : Precedes p q) (second : Precedes q p) :
    p = q := by
  unfold Precedes at *
  rw [Timestamp.lt_iff] at *
  obtain ⟨⟨s, n⟩, i⟩ := p
  obtain ⟨⟨s', n'⟩, i'⟩ := q
  simp only [Timestamp.mk.injEq, Prod.mk.injEq] at *
  omega

theorem ordered_trans (a b c : DecisionLog) (first : ordered a b = true)
    (second : ordered b c = true) : ordered a c = true := by
  rw [ordered_iff] at *
  exact first.trans second

theorem ordered_total (a b : DecisionLog) : (ordered a b || ordered b a) = true := by
  rw [Bool.or_eq_true, ordered_iff, ordered_iff]
  exact Precedes.total _ _

theorem sorted_mergeSort (logs : List DecisionLog) :
    (logs.mergeSort ordered).Pairwise fun a b => ordered a b = true :=
  List.pairwise_mergeSort ordered_trans ordered_total logs

/-- Among the logs that a limit lets through and those that it holds back are two that share
time and iteration. -/
def Parts (f : DecisionFilter) (found : List DecisionLog) : Prop :=
  ∃ n, f.limit = some n ∧ ∃ a ∈ (found.mergeSort ordered).take n,
    ∃ b ∈ (found.mergeSort ordered).drop n, a.place = b.place

structure Alike (f : DecisionFilter) (found a b : List DecisionLog) : Prop where
  places : a.map DecisionLog.place = b.map DecisionLog.place
  logs : ¬ f.Parts found → a.Perm b
  order : (found.map DecisionLog.place).Nodup → a = b

theorem Alike.both {f : DecisionFilter} {found c a b : List DecisionLog} (first : f.Alike found c a)
    (second : f.Alike found c b) : f.Alike found a b where
  places := first.places.symm.trans second.places
  logs whole := (first.logs whole).symm.trans (second.logs whole)
  order apart := (first.order apart).symm.trans (second.order apart)

theorem mergeSort_pair {α : Type} (le : α → α → Bool) (a b : α) :
    [a, b].mergeSort le = if le a b then [a, b] else [b, a] := by
  simp [List.mergeSort, List.MergeSort.Internal.splitInTwo, List.merge]

/-- Of two logs of one session that share time and iteration, a limit of one lets the first
through. -/
theorem apply_one {a b : DecisionLog} (tied : a.place = b.place) (same : a.session = b.session) :
    apply { ofSession a.session with limit := some 1 } [a, b] = [a] := by
  have before : ordered a b = true := (ordered_iff a b).mpr (tied ▸ .inr ⟨rfl, Nat.le_refl _⟩)
  simp [apply, DecisionFilter.matches, ofSession, any, same, mergeSort_pair, before, truncate]

section Order

variable {found found' : List DecisionLog} (same : found.Perm found')
include same

theorem sorted_perm : (found.mergeSort ordered).Perm (found'.mergeSort ordered) :=
  (List.mergeSort_perm _ _).trans (same.trans (List.mergeSort_perm _ _).symm)

theorem sorted_places : (found.mergeSort ordered).map DecisionLog.place =
    (found'.mergeSort ordered).map DecisionLog.place := by
  have inOrder (logs : List DecisionLog) :
      ((logs.mergeSort ordered).map DecisionLog.place).Pairwise Precedes :=
    List.pairwise_map.mpr ((sorted_mergeSort logs).imp fun le => (ordered_iff _ _).mp le)
  exact ((sorted_perm same).map _).eq_of_pairwise (fun p q _ _ => Precedes.antisymm)
    (inOrder found) (inOrder found')

theorem sorted_eq (apart : (found.map DecisionLog.place).Nodup) :
    found.mergeSort ordered = found'.mergeSort ordered := by
  refine (sorted_perm same).eq_of_pairwise ?_ (sorted_mergeSort found) (sorted_mergeSort found')
  intro a b first second le ge
  have inFound : a ∈ found := List.mem_mergeSort.mp first
  have other : b ∈ found := same.mem_iff.mpr (List.mem_mergeSort.mp second)
  have place : a.place = b.place :=
    ((ordered_iff a b).mp le).antisymm ((ordered_iff b a).mp ge)
  exact List.inj_on_of_nodup_map apart inFound other place

theorem take_perm {n : Nat} (whole : ∀ a ∈ (found.mergeSort ordered).take n,
    ∀ b ∈ (found.mergeSort ordered).drop n, a.place ≠ b.place) :
    ((found.mergeSort ordered).take n).Perm ((found'.mergeSort ordered).take n) := by
  have places := sorted_places same
  have perm := sorted_perm same
  generalize found.mergeSort ordered = a at *
  generalize found'.mergeSort ordered = b at *
  -- what is let through is told from what is not by time and iteration
  let through (l : DecisionLog) : Bool := decide (l.place ∈ (a.take n).map DecisionLog.place)
  have cut (c : List DecisionLog) (same : a.map DecisionLog.place = c.map DecisionLog.place) :
      c.take n = c.filter through := by
    have front : ∀ l ∈ c.take n, through l = true := by
      intro l member
      refine decide_eq_true ?_
      rw [List.map_take, same, ← List.map_take]
      exact List.mem_map_of_mem member
    have back : ∀ l ∈ c.drop n, ¬ through l = true := by
      intro l member passes
      obtain ⟨x, early, eq⟩ := List.mem_map.mp (of_decide_eq_true passes)
      have late : l.place ∈ (a.drop n).map DecisionLog.place := by
        rw [List.map_drop, same, ← List.map_drop]
        exact List.mem_map_of_mem member
      obtain ⟨y, held, eq'⟩ := List.mem_map.mp late
      exact whole x early y held (eq.trans eq'.symm)
    conv_rhs => rw [← List.take_append_drop n c]
    rw [List.filter_append, List.filter_eq_self.mpr front, List.filter_eq_nil_iff.mpr back,
      List.append_nil]
  rw [cut a rfl, cut b places]
  exact perm.filter _

/-- The same logs in another order are answered alike. -/
theorem alike (f : DecisionFilter) :
    f.Alike found (f.truncate (found.mergeSort ordered)) (f.truncate (found'.mergeSort ordered)) := by
  refine ⟨?_, fun whole => ?_, fun apart => ?_⟩
  · unfold truncate
    split
    · exact sorted_places same
    · rw [List.map_take, List.map_take, sorted_places same]
  · unfold truncate
    split
    · exact sorted_perm same
    · rename_i n limit
      exact take_perm same fun a early b late eq => whole ⟨n, limit, a, early, b, late, eq⟩
  · rw [sorted_eq same apart]

end Order

/-- So is what puts them in order in some other way. -/
theorem alike_sorted (f : DecisionFilter) {found sorted : List DecisionLog}
    (perm : sorted.Perm found) (inOrder : sorted.Pairwise fun a b => ordered a b = true) :
    f.Alike found (f.truncate (found.mergeSort ordered)) (f.truncate sorted) := by
  have same := alike perm.symm f
  rwa [List.mergeSort_of_pairwise inOrder] at same

end DecisionFilter
end Orchestration
