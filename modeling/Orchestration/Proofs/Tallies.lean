import Orchestration.Proofs.Magnitudes
import Orchestration.Proofs.Round

/-! What a summary makes of the observations of a round. Every one of them is counted once, in
whatever form it came, and their issues are all passed on. The turn in which they come makes no
difference to what is counted. -/
namespace Orchestration

def Observation.declared? : Observation → Option Binary64
  | typed r => r.confidence
  | raw record => (Table.get? record "confidence").bind Json.float?

theorem Observation.normalize_confidence (o : Observation) :
    o.normalize.confidence = o.declared?.map Binary64.clampUnit := by
  cases o <;> rfl

namespace Summary

def counted (s : Summary) : TaskStatus → Nat
  | .success => s.successes
  | .partial => s.partials
  | .failed => s.failures

structure Accounts (s : Summary) (observations : List Observation) : Prop where
  findings : s.findings = observations.map (·.normalize)
  total : s.total = observations.length
  counted : ∀ status, s.counted status = observations.countP (·.normalize.status = status)
  all : s.successes + s.failures + s.partials = s.total
  issues : s.issues = observations.flatMap (·.normalize.issues)
  undeclared : observations.filterMap (·.declared?) = [] → s.lowestConfidence = .zero
  lowest : observations.filterMap (·.declared?) ≠ [] →
    Binary64.IsLowest ((observations.filterMap (·.declared?)).map .clampUnit) s.lowestConfidence
  bounded : s.lowestConfidence = .nan ∨
    Binary64.zero.le s.lowestConfidence = true ∧ s.lowestConfidence.le .one = true

/-- Two summaries differ in nothing but the turn of findings and issues, and maybe in the sign of
a zero. -/
structure Reordered (s t : Summary) : Prop where
  findings : t.findings.Perm s.findings
  issues : t.issues.Perm s.issues
  total : t.total = s.total
  counted : ∀ status, t.counted status = s.counted status
  successRate : t.successRate = s.successRate
  blocking : t.blocking = s.blocking
  lowest : t.lowestConfidence = s.lowestConfidence ∨
    t.lowestConfidence.place? = some 0 ∧ s.lowestConfidence.place? = some 0

variable (observations : List Observation) (policy : FanInPolicy)

theorem counted_fanIn (status : TaskStatus) :
    (fanIn observations policy).counted status =
      observations.countP (·.normalize.status = status) := by
  have count (findings : List Finding) (status : TaskStatus) :
      (ofFindings findings policy).counted status = findings.countP (·.status = status) := by
    cases status <;> exact List.countP_eq_length_filter.symm
  cases observations with
  | nil => cases status <;> rfl
  | cons o rest => exact (count _ status).trans List.countP_map

theorem countP_statuses (observations : List Observation) :
    observations.countP (·.normalize.status = .success) +
      observations.countP (·.normalize.status = .failed) +
      observations.countP (·.normalize.status = .partial) = observations.length := by
  induction observations with
  | nil => rfl
  | cons o rest ih => cases ended : o.normalize.status <;> simp [ended] <;> omega

theorem confidences (observations : List Observation) :
    (observations.map (·.normalize)).filterMap (·.confidence) =
      (observations.filterMap (·.declared?)).map .clampUnit := by
  rw [List.filterMap_map, List.map_filterMap]
  exact List.filterMap_congr fun o _ => o.normalize_confidence

theorem isLowest_lowest {cs : List Binary64} (some : cs ≠ []) :
    Binary64.IsLowest cs (lowest cs) := by
  cases cs with
  | nil => exact absurd rfl some
  | cons c rest => exact Binary64.isLowest_foldl rest c

theorem lowestConfidence_fanIn :
    (fanIn observations policy).lowestConfidence =
      lowest ((observations.filterMap (·.declared?)).map .clampUnit) := by
  rw [← confidences]
  cases observations <;> rfl

theorem bounded_lowest (cs : List Binary64) : lowest (cs.map .clampUnit) = .nan ∨
    Binary64.zero.le (lowest (cs.map .clampUnit)) = true ∧
      (lowest (cs.map .clampUnit)).le .one = true := by
  cases cs with
  | nil => decide +kernel
  | cons c rest =>
    have some : (c :: rest).map Binary64.clampUnit ≠ [] := List.cons_ne_nil _ _
    obtain ⟨d, _, clamped⟩ := List.mem_map.mp (isLowest_lowest some).among
    rw [← clamped]
    exact d.clampUnit_bounded

theorem accounts_fanIn : (fanIn observations policy).Accounts observations where
  findings := findings_fanIn observations policy
  total := total_fanIn observations policy
  counted := counted_fanIn observations policy
  all := by
    rw [total_fanIn, ← countP_statuses, ← counted_fanIn observations policy,
      ← counted_fanIn observations policy, ← counted_fanIn observations policy]
    rfl
  issues := by
    cases observations with
    | nil => rfl
    | cons o rest => exact List.flatMap_map ..
  undeclared none := by
    rw [lowestConfidence_fanIn, none]
    rfl
  lowest some := by
    rw [lowestConfidence_fanIn]
    exact isLowest_lowest (by simpa using some)
  bounded := by
    rw [lowestConfidence_fanIn]
    exact bounded_lowest _

/-! ### The turn of the observations -/

theorem judged_fanIn : (fanIn observations policy).successRate =
      (if observations.length = 0 then .zero
        else rate (observations.countP (·.normalize.status = .success)) observations.length) ∧
    (fanIn observations policy).blocking = (decide (observations.length = 0) ||
      policy.mode.blocks (fanIn observations policy).successRate policy.threshold) := by
  cases observations with
  | nil => exact ⟨rfl, rfl⟩
  | cons o rest =>
    have counted := counted_fanIn (o :: rest) policy .success
    refine ⟨?_, rfl⟩
    rw [if_neg (by simp), ← counted]
    exact congrArg (rate _) (List.length_map _)

theorem reordered_fanIn {observations other : List Observation} (same : other.Perm observations)
    (policy : FanInPolicy) : (fanIn observations policy).Reordered (fanIn other policy) := by
  have first := accounts_fanIn observations policy
  have second := accounts_fanIn other policy
  obtain ⟨rate, verdict⟩ := judged_fanIn observations policy
  obtain ⟨rate', verdict'⟩ := judged_fanIn other policy
  have rates : (fanIn other policy).successRate = (fanIn observations policy).successRate := by
    rw [rate', rate, same.length_eq, same.countP_eq]
  have declared := same.filterMap (·.declared?)
  refine ⟨?_, ?_, ?_, fun status => ?_, rates, ?_, ?_⟩
  · rw [first.findings, second.findings]
    exact same.map _
  · rw [first.issues, second.issues]
    exact same.flatMap_right _
  · rw [first.total, second.total, same.length_eq]
  · rw [first.counted, second.counted, same.countP_eq]
  · rw [verdict', verdict, rates, same.length_eq]
  · by_cases none : observations.filterMap (·.declared?) = []
    · left
      rw [first.undeclared none, second.undeclared (List.perm_nil.mp (none ▸ declared))]
    · have places := Binary64.IsLowest.place?_eq (fun c => (declared.map _).mem_iff)
        (second.lowest fun gone => none (List.perm_nil.mp (gone ▸ declared.symm)))
        (first.lowest none)
      exact (Binary64.eq_of_place? places).imp_right fun zero => ⟨zero, places ▸ zero⟩

/-- Each observation is found in the summary in its place, and counted once; its issues are
passed on; and the lowest confidence is that of one that declared it, if any did. Counts of two
rounds add up, and nothing depends on the turn in which the observations come but that of what is
told of them. -/
theorem fanIn_accounts :
    (fanIn observations policy).Accounts observations ∧
    (∀ more, (fanIn (observations ++ more) policy).total =
        (fanIn observations policy).total + (fanIn more policy).total ∧
      ∀ status, (fanIn (observations ++ more) policy).counted status =
        (fanIn observations policy).counted status + (fanIn more policy).counted status) ∧
    ∀ other, other.Perm observations →
      (fanIn observations policy).Reordered (fanIn other policy) := by
  refine ⟨accounts_fanIn observations policy, fun more => ⟨?_, fun status => ?_⟩,
    fun other same => reordered_fanIn same policy⟩
  · simp only [total_fanIn, List.length_append]
  · simp only [counted_fanIn, List.countP_append]

/-- One confidence is out of bounds, one is no number, and one record says little. -/
theorem mixed_accounts :
    let half : Binary64 := .ofDecimal false 5 (-1)
    let typed (status : TaskStatus) (confidence : Binary64) : Observation :=
      .typed { TaskResult.bare "s" "t" "w" status ⟨0, 0⟩ with confidence := some confidence }
    let loose : Observation := .raw [("issues", .arr [.str "late", .null]), ("status", .str "odd")]
    let told : Observation := .raw [("confidence", .ofFloat half), ("status", .str "success")]
    let observations := [typed .partial (.infinite false), loose, typed .success .nan, told]
    let s := fanIn observations .default
    s.Accounts observations ∧ s.Reordered (fanIn observations.reverse .default) ∧
      (s.successes, s.failures, s.partials) = (2, 1, 1) ∧ s.issues.length = 1 ∧
      s.lowestConfidence = half := by
  intro half typed loose told observations s
  obtain ⟨accounts, _, reordered⟩ := fanIn_accounts observations .default
  exact ⟨accounts, reordered _ observations.reverse_perm, by decide +kernel⟩

end Summary
end Orchestration
