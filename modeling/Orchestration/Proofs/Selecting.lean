import Mathlib.Tactic.MkIffOfInductiveProp
import Orchestration.Proofs.Answers
import Orchestration.Proofs.Sorting

/-! What a filter selects. It lets through the logs that meet all that it sets, puts them in order
of time and iteration, where equals stay as they came, and cuts the rest off last. So a limit takes
the first of what there would be without it, and a selection is not changed by being made again. -/
namespace Orchestration.DecisionFilter

variable {f : DecisionFilter} {logs : List DecisionLog}

/-- A log that a filter lets through. Its time may be either bound itself. -/
@[mk_iff]
structure Admits (f : DecisionFilter) (l : DecisionLog) : Prop where
  session : ∀ session, f.session = some session → l.session = session
  outcome : ∀ outcome, f.outcome = some outcome → l.outcome = outcome
  action : ∀ action, f.action = some action → l.decision.action = action
  earliest : ∀ t, f.earliest = some t → l.timestamp.lt t = false
  latest : ∀ t, f.latest = some t → t.lt l.timestamp = false

theorem matches_iff (f : DecisionFilter) (l : DecisionLog) : f.matches l = true ↔ f.Admits l := by
  rw [admits_iff]
  simp only [DecisionFilter.matches, Bool.and_eq_true, Option.all_eq_true, beq_iff_eq,
    Timestamp.le_eq_not_lt, Bool.not_eq_true', and_assoc]

def unlimited (f : DecisionFilter) : DecisionFilter := { f with limit := none }

theorem truncate_prefix (f : DecisionFilter) (logs : List DecisionLog) : f.truncate logs <+: logs := by
  unfold truncate
  split
  · exact List.prefix_rfl
  · exact List.take_prefix _ _

theorem truncate_truncate (f : DecisionFilter) (logs : List DecisionLog) :
    f.truncate (f.truncate logs) = f.truncate logs := by
  unfold truncate
  split
  · rfl
  · rw [List.take_take, Nat.min_self]

theorem apply_prefix (f : DecisionFilter) (logs : List DecisionLog) :
    f.apply logs <+: f.unlimited.apply logs := f.truncate_prefix _

theorem apply_ordered (f : DecisionFilter) (logs : List DecisionLog) :
    (f.apply logs).Pairwise fun a b => ordered a b = true :=
  (sorted_mergeSort _).sublist (f.truncate_prefix _).sublist

theorem matches_of_mem_apply {l : DecisionLog} (member : l ∈ f.apply logs) : f.matches l = true := by
  have inside := (f.truncate_prefix _).subset member
  exact (List.mem_filter.mp (List.mem_mergeSort.mp inside)).2

/-- Logs that share time and iteration are found as they came. -/
theorem unlimited_tied (f : DecisionFilter) (logs : List DecisionLog) (p : Timestamp × Nat) :
    (f.unlimited.apply logs).filter (·.place = p) = (logs.filter f.matches).filter (·.place = p) := by
  -- Among logs of one place any two are in order, so the sort leaves them where they are.
  refine filter_mergeSort_of_tied ordered_trans ordered_total ?_ (logs.filter f.matches)
  intro a b left right
  have one : a.place = p := of_decide_eq_true left
  have two : b.place = p := of_decide_eq_true right
  rw [ordered_iff, one, two]
  exact .inr ⟨rfl, Nat.le_refl _⟩

/-- A selection is in order and all of it is let through, so there is nothing to do again. -/
theorem apply_apply (f : DecisionFilter) (logs : List DecisionLog) :
    f.apply (f.apply logs) = f.apply logs := by
  have all : (f.apply logs).filter f.matches = f.apply logs :=
    List.filter_eq_self.mpr fun _ => matches_of_mem_apply
  have inOrder : (f.apply logs).mergeSort ordered = f.apply logs :=
    List.mergeSort_of_pairwise (f.apply_ordered logs)
  calc f.apply (f.apply logs)
      = f.truncate (((f.apply logs).filter f.matches).mergeSort ordered) := rfl
    _ = f.truncate (f.apply logs) := by rw [all, inOrder]
    _ = f.apply logs := f.truncate_truncate _

theorem apply_eq_of_perm {others : List DecisionLog} (same : others.Perm logs)
    (apart : ((logs.filter f.matches).map DecisionLog.place).Nodup) :
    f.apply others = f.apply logs := by
  have found := same.symm.filter f.matches
  rw [apply, apply, sorted_eq found apart]

/-- A selection is in order of time, then of iteration, and where both are shared in the order of
the logs selected from. Without a limit it holds the logs that are let through and no others; with
one, the first of these in that order. It is the same when it is made again of its own logs, and
when those it is made of come in another order, if no two let through share time and iteration. -/
theorem selection_spec (f : DecisionFilter) (logs : List DecisionLog) :
    let found := f.apply logs
    let admitted := logs.filter f.matches
    (∀ l, l ∈ admitted ↔ l ∈ logs ∧ f.Admits l) ∧
    found.Pairwise (fun a b => Precedes a.place b.place) ∧
    (∀ p, found.filter (·.place = p) <+: admitted.filter (·.place = p)) ∧
    (f.limit = none → found.Perm admitted) ∧
    (∀ n, f.limit = some n → found = (f.unlimited.apply logs).take n) ∧
    f.apply found = found ∧
    ((admitted.map DecisionLog.place).Nodup → ∀ others, others.Perm logs → f.apply others = found) := by
  intro found admitted
  refine ⟨fun l => ?_, ?_, fun p => ?_, fun limit => ?_, fun n limit => ?_, f.apply_apply logs,
    fun apart others same => apply_eq_of_perm same apart⟩
  · rw [List.mem_filter, matches_iff]
  · exact (f.apply_ordered logs).imp fun le => (ordered_iff _ _).mp le
  · rw [← f.unlimited_tied logs p]
    exact (f.apply_prefix logs).filter _
  · have whole : found = admitted.mergeSort ordered := by
      change f.truncate _ = _
      rw [truncate, limit]
    rw [whole]
    exact List.mergeSort_perm _ _
  · change f.truncate _ = _
    rw [truncate, limit]
    rfl

def takenAt (seconds : Int) (iteration : Nat) : DecisionLog :=
  ⟨"s", iteration, .decision, [], none, .of .retry none, .partial, ⟨seconds, 0⟩, none, []⟩

theorem earlier_selected :
    let first : DecisionFilter := { any with limit := some 1 }
    let batch := [takenAt 9 1, takenAt 5 0]
    first.limit = some 1 ∧ ((batch.filter first.matches).map DecisionLog.place).Nodup ∧
      batch.reverse.Perm batch ∧ first.apply batch = [takenAt 5 0] ∧
      first.apply batch.reverse = [takenAt 5 0] := by
  intro first batch
  obtain ⟨-, -, -, -, limited, -, moved⟩ := selection_spec first batch
  have apart : ((batch.filter first.matches).map DecisionLog.place).Nodup := by decide
  have all : batch.filter first.matches = batch := rfl
  have turned : first.unlimited.apply batch = [takenAt 5 0, takenAt 9 1] := by
    change (batch.filter first.matches).mergeSort ordered = _
    rw [all, mergeSort_pair, if_neg (by decide)]
  have found : first.apply batch = [takenAt 5 0] := by
    rw [limited 1 rfl, turned]
    rfl
  refine ⟨rfl, apart, batch.reverse_perm, found, ?_⟩
  rw [moved apart _ batch.reverse_perm, found]

end Orchestration.DecisionFilter
