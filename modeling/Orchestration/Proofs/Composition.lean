import Mathlib.Data.List.Sort
import Orchestration.Proofs.Evaluation

/-! Policies with a rule more, or with their rules in another order. A further rule, wherever it is
put and whatever its priority, takes nothing from what is forbidden and lets nothing through that
was; one that does not apply changes nothing at all. The order in which rules are declared counts
among those of one priority only, and never for capabilities. -/
namespace Orchestration.Policy

variable {p q : Policy} {view : Json}

theorem evaluateView_congr (defaults : p.defaults = q.defaults)
    (ranked : p.ranked view = q.ranked view) : p.evaluateView view = q.evaluateView view := by
  unfold evaluateView
  rw [defaults, ranked]

/-! ### A rule more -/

theorem Grants.mono (rules : p.rules ⊆ q.rules) {defaults : List String}
    {named : Rule → Option (List String)} {capability : String}
    (granted : p.Grants view defaults named capability) :
    q.Grants view defaults named capability := by
  apply granted.imp_right
  rintro ⟨r, declared, rest⟩
  exact ⟨r, rules declared, rest⟩

theorem forbid_mono (defaults : p.defaults = q.defaults) (rules : p.rules ⊆ q.rules) :
    (p.evaluateView view).forbid ⊆ (q.evaluateView view).forbid := by
  intro capability forbidden
  rw [(q.evaluateView_means view).forbid, ← defaults]
  apply Grants.mono rules
  rwa [← (p.evaluateView_means view).forbid]

theorem not_allowed (forbidden : capability ∈ (p.evaluateView view).forbid) :
    capability ∉ (p.evaluateView view).allow := by
  intro allowed
  exact (((p.evaluateView_means view).allow capability).mp allowed).2 forbidden

/-- A rule that does not apply is not even ranked. -/
theorem ranked_skip {before after : List Rule} {rule : Rule} (others : p.rules = before ++ after)
    (all : q.rules = before ++ rule :: after) (idle : ¬rule.Applies view) :
    q.ranked view = p.ranked view := by
  have unmatched : ¬rule.matches view = true := mt (rule.matches_iff view).mp idle
  unfold ranked
  rw [others, all, List.filter_append, List.filter_append]
  simp [unmatched]

/-! ### Another order -/

theorem ranked_perm (same : p.rules.Perm q.rules) : (p.ranked view).Perm (q.ranked view) := by
  have matching := same.filter (·.matches view)
  exact (List.mergeSort_perm _ _).trans (matching.trans (List.mergeSort_perm _ _).symm)

/-- Where no two rules have one priority there is but one way to rank them. -/
theorem ranked_eq_of_perm (same : p.rules.Perm q.rules)
    (distinct : (p.rules.map (·.priority)).Nodup) : p.ranked view = q.ranked view := by
  have ranks := p.ranked_ranks view
  have ranks' := q.ranked_ranks view
  apply (ranked_perm same).eq_of_pairwise _ ranks.priority ranks'.priority
  intro a b first second above below
  have declared := ((ranks.mem_iff a).mp first).1
  have declared' := same.mem_iff.mpr ((ranks'.mem_iff b).mp second).1
  exact List.inj_on_of_nodup_map distinct declared declared' (Int.le_antisymm below above)

theorem grants_of_perm (same : p.rules.Perm q.rules) (defaults : List String)
    (named : Rule → Option (List String)) (capability : String) :
    p.Grants view defaults named capability ↔ q.Grants view defaults named capability :=
  ⟨.mono same.subset, .mono same.symm.subset⟩

theorem forbid_of_perm (defaults : p.defaults = q.defaults) (same : p.rules.Perm q.rules) :
    (p.evaluateView view).forbid = (q.evaluateView view).forbid := by
  have means := p.evaluateView_means view
  have means' := q.evaluateView_means view
  apply Table.increasing_unique means.forbid_increasing means'.forbid_increasing
  intro capability
  rw [means.forbid, means'.forbid, defaults, grants_of_perm same]

theorem allow_of_perm (defaults : p.defaults = q.defaults) (same : p.rules.Perm q.rules) :
    (p.evaluateView view).allow = (q.evaluateView view).allow := by
  have means := p.evaluateView_means view
  have means' := q.evaluateView_means view
  apply Table.increasing_unique means.allow_increasing means'.allow_increasing
  intro capability
  rw [means.allow, means'.allow, forbid_of_perm defaults same, defaults, grants_of_perm same]

def withRules (p : Policy) (rules : List Rule) : Policy := { p with rules := rules }

/-- A further rule forbids at most more and never allows what was forbidden, one that does not apply
is as good as absent, and the order of declaration matters only between rules of one priority,
and there not to capabilities. -/
theorem rules_compose (p : Policy) (before after : List Rule) (rule : Rule) (c : PolicyContext) :
    let less := (p.withRules (before ++ after)).evaluate c
    let more := (p.withRules (before ++ rule :: after)).evaluate c
    (∀ capability ∈ less.forbid, capability ∈ more.forbid ∧ capability ∉ more.allow) ∧
      (¬rule.Applies c.toJson → more = less) ∧
      ∀ rules, rules.Perm p.rules →
        ((p.rules.map (·.priority)).Nodup → (p.withRules rules).evaluate c = p.evaluate c) ∧
          ((p.withRules rules).evaluate c).allow = (p.evaluate c).allow ∧
          ((p.withRules rules).evaluate c).forbid = (p.evaluate c).forbid := by
  intro less more
  have defaults (rules others : List Rule) :
      (p.withRules rules).defaults = (p.withRules others).defaults := rfl
  refine ⟨fun capability forbidden => ?_, fun idle => ?_, fun rules same => ⟨fun distinct => ?_, ?_⟩⟩
  · have fewer : (p.withRules (before ++ after)).rules ⊆
        (p.withRules (before ++ rule :: after)).rules := by
      intro r member
      simp only [withRules, List.mem_append, List.mem_cons] at member ⊢
      exact member.imp_right .inr
    have still : capability ∈ more.forbid := forbid_mono (defaults _ _) fewer forbidden
    exact ⟨still, not_allowed still⟩
  · exact evaluateView_congr rfl (ranked_skip rfl rfl idle)
  · have order : (p.withRules p.rules).rules.Perm (p.withRules rules).rules := same.symm
    exact (evaluateView_congr (defaults _ _) (ranked_eq_of_perm order distinct)).symm
  · exact ⟨allow_of_perm rfl same, forbid_of_perm rfl same⟩

def touching : List Rule :=
  [⟨"grant", 500, [], { RuleEffect.none with allow := some ["deploy", "read"] }⟩,
    ⟨"stop", 7, [("retry_count", .gt .zero)], { RuleEffect.none with forbid := some ["read"] }⟩,
    ⟨"revoke", 1, [], { RuleEffect.none with forbid := some ["deploy"] }⟩]

/-- The rule that waits stops nothing at first, and the other two may be declared in any order. -/
theorem touching_compose :
    let p : Policy := ⟨none, .none, touching⟩
    let others : Policy := ⟨none, .none, touching.eraseIdx 1⟩
    (p.evaluate .empty).allow = ["read"] ∧ (p.evaluate .empty).forbid = ["deploy"] ∧
      (∀ capability ∈ (others.evaluate .empty).forbid, capability ∉ (p.evaluate .empty).allow) ∧
      p.evaluate .empty = others.evaluate .empty ∧
      (p.withRules touching.reverse).evaluate .empty = p.evaluate .empty := by
  intro p others
  obtain ⟨safe, idle, reordered⟩ := rules_compose p [touching[0]] [touching[2]] touching[1] .empty
  have waits : ¬touching[1].Applies PolicyContext.empty.toJson := by decide +kernel
  have hits : p.ranked PolicyContext.empty.toJson = [touching[0], touching[2]] := by
    have matching : p.rules.filter (·.matches PolicyContext.empty.toJson) =
        [touching[0], touching[2]] := rfl
    rw [ranked, matching]
    exact List.mergeSort_of_pairwise (by decide)
  refine ⟨?_, ?_, fun capability member => ?_, idle waits, ?_⟩
  · rw [evaluate, evaluateView, hits]
    rfl
  · rw [evaluate, evaluateView, hits]
    rfl
  · exact (safe capability member).2
  · exact (reordered touching.reverse touching.reverse_perm).1 (by decide)

end Orchestration.Policy
