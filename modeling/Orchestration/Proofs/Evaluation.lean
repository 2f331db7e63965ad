import Orchestration.Policy.Evaluate
import Orchestration.Proofs.Sorting
import Orchestration.Proofs.Tables

/-! What a policy comes to in a context, said without the way it is computed. A rule applies if
each of its paths leads to a value that satisfies its condition. The rules that apply are ranked,
the first one to assert a thing settles it, and what any of them forbids is not allowed. There is
exactly one effective policy that answers this description, and evaluation gives it. -/
namespace Orchestration

def Rule.Applies (r : Rule) (view : Json) : Prop :=
  ∀ path c, (path, c) ∈ r.conditions → ∃ v, Path.resolve view path = some v ∧ c.holds v = true

theorem Condition.matches_iff (c : Condition) (found : Option Json) :
    c.matches found = true ↔ ∃ v, found = some v ∧ c.holds v = true := by
  cases found <;> simp [Condition.matches]

theorem Rule.matches_iff (r : Rule) (view : Json) : r.matches view = true ↔ r.Applies view := by
  simp [Rule.matches, Rule.Applies, Condition.matches_iff]

namespace Policy

instance (r : Rule) (view : Json) : Decidable (r.Applies view) :=
  decidable_of_iff _ (r.matches_iff view)

structure Ranks (p : Policy) (view : Json) (hits : List Rule) : Prop where
  priority : hits.Pairwise fun a b => b.priority ≤ a.priority
  declared : ∀ n, hits.filter (·.priority = n) =
    p.rules.filter fun r => r.priority = n ∧ r.Applies view

/-- The first of these rules to assert anything asserts `x`, or none asserts anything. -/
def Settles {α : Type} (assert : Rule → Option α) (hits : List Rule) : Option α → Prop
  | none => ∀ r ∈ hits, assert r = none
  | some x => ∃ before r after, hits = before ++ r :: after ∧ (∀ q ∈ before, assert q = none) ∧
      assert r = some x

def Grants (p : Policy) (view : Json) (defaults : List String)
    (named : Rule → Option (List String)) (capability : String) : Prop :=
  capability ∈ defaults ∨
    ∃ r ∈ p.rules, r.Applies view ∧ ∃ list, named r = some list ∧ capability ∈ list

structure Means (p : Policy) (view : Json) (hits : List Rule) (e : EffectivePolicy) : Prop where
  ranks : p.Ranks view hits
  names : e.hits = hits.map (·.name)
  decision : Settles (·.effect.decision) hits e.decision
  retry : Settles (·.effect.retry) hits e.retry
  fanIn : Settles (·.effect.fanIn) hits e.fanIn
  forbid_increasing : e.forbid.Pairwise (· < ·)
  forbid : ∀ c, c ∈ e.forbid ↔ p.Grants view p.defaults.forbid (·.effect.forbid) c
  allow_increasing : e.allow.Pairwise (· < ·)
  allow : ∀ c, c ∈ e.allow ↔ p.Grants view p.defaults.allow (·.effect.allow) c ∧ c ∉ e.forbid

section Ranking

variable {p : Policy} {view : Json} {hits others : List Rule}

theorem Ranks.mem_iff (ranks : p.Ranks view hits) (r : Rule) :
    r ∈ hits ↔ r ∈ p.rules ∧ r.Applies view := by
  have same : r ∈ hits.filter (·.priority = r.priority) ↔
      r ∈ p.rules.filter fun q => q.priority = r.priority ∧ q.Applies view := by
    rw [ranks.declared]
  simpa using same

theorem mem_iff_of_priorities
    (same : ∀ n, hits.filter (·.priority = n) = others.filter (·.priority = n)) (r : Rule) :
    r ∈ hits ↔ r ∈ others := by
  have one : r ∈ hits.filter (·.priority = r.priority) ↔
      r ∈ others.filter (·.priority = r.priority) := by rw [same]
  simpa using one

/-- Lists in falling order of priority that agree on each priority are equal. -/
theorem eq_of_ranked {hits others : List Rule}
    (falling : hits.Pairwise fun a b => b.priority ≤ a.priority)
    (falling' : others.Pairwise fun a b => b.priority ≤ a.priority)
    (same : ∀ n, hits.filter (·.priority = n) = others.filter (·.priority = n)) :
    hits = others := by
  have mem := mem_iff_of_priorities same
  induction hits generalizing others with
  | nil =>
    apply (List.eq_nil_iff_forall_not_mem.mpr _).symm
    intro r member
    exact List.not_mem_nil ((mem r).mpr member)
  | cons a rest ih =>
    cases others with
    | nil => exact absurd ((mem a).mp List.mem_cons_self) List.not_mem_nil
    | cons b more =>
      obtain ⟨first, later⟩ := List.pairwise_cons.mp falling
      obtain ⟨first', later'⟩ := List.pairwise_cons.mp falling'
      have le : a.priority ≤ b.priority := by
        rcases List.mem_cons.mp ((mem a).mp List.mem_cons_self) with rfl | member
        · exact Int.le_refl _
        · exact first' a member
      have ge : b.priority ≤ a.priority := by
        rcases List.mem_cons.mp ((mem b).mpr List.mem_cons_self) with rfl | member
        · exact Int.le_refl _
        · exact first b member
      have equal : b.priority = a.priority := Int.le_antisymm ge le
      have heads := same a.priority
      simp only [List.filter_cons, equal, decide_true, if_true, List.cons.injEq] at heads
      obtain ⟨rfl, _⟩ := heads
      have tails (n : Int) : rest.filter (·.priority = n) = more.filter (·.priority = n) := by
        have both := same n
        by_cases here : a.priority = n
        · simpa [List.filter_cons, here] using both
        · simpa [List.filter_cons, here] using both
      rw [ih later later' tails (mem_iff_of_priorities tails)]

theorem Ranks.unique (ranks : p.Ranks view hits) (other : p.Ranks view others) :
    hits = others := by
  apply eq_of_ranked ranks.priority other.priority
  intro n
  rw [ranks.declared, other.declared]

/-- Sorting by priority ranks the rules, because it leaves equal ones in their order. -/
theorem ranked_ranks (p : Policy) (view : Json) : p.Ranks view (p.ranked view) := by
  have trans (a b c : Rule) (first : decide (b.priority ≤ a.priority) = true)
      (second : decide (c.priority ≤ b.priority) = true) :
      decide (c.priority ≤ a.priority) = true := by
    simp only [decide_eq_true_eq] at *
    omega
  have total (a b : Rule) :
      (decide (b.priority ≤ a.priority) || decide (a.priority ≤ b.priority)) = true := by
    simp only [Bool.or_eq_true, decide_eq_true_eq]
    omega
  constructor
  · exact (List.pairwise_mergeSort trans total _).imp fun le => of_decide_eq_true le
  · intro n
    let matching := p.rules.filter (·.matches view)
    have declared : (p.rules.filter fun r => r.priority = n ∧ r.Applies view) =
        matching.filter (·.priority = n) := by
      rw [List.filter_filter]
      apply List.filter_congr
      intro r _
      rw [Bool.eq_iff_iff, Bool.and_eq_true, r.matches_iff view, decide_eq_true_eq,
        decide_eq_true_eq]
    -- those of one priority are equals to the sort, so it keeps them as they are
    have tied (a b : Rule) (left : decide (a.priority = n) = true)
        (right : decide (b.priority = n) = true) : decide (b.priority ≤ a.priority) = true := by
      simp only [decide_eq_true_eq] at *
      omega
    rw [declared]
    exact filter_mergeSort_of_tied trans total tied matching

end Ranking

theorem settles_findSome? {α : Type} (assert : Rule → Option α) (hits : List Rule)
    (x : Option α) : Settles assert hits x ↔ hits.findSome? assert = x := by
  cases x with
  | none => simp [Settles]
  | some x =>
    rw [List.findSome?_eq_some_iff]
    constructor
    · rintro ⟨before, r, after, split, none, asserts⟩
      exact ⟨before, r, after, split, asserts, none⟩
    · rintro ⟨before, r, after, split, asserts, none⟩
      exact ⟨before, r, after, split, none, asserts⟩

/-- What settles a thing is asserted by a rule of the policy. -/
theorem Settles.declared {α : Type} {assert : Rule → Option α} {p : Policy} {view : Json}
    {hits : List Rule} {x : α} (settles : Settles assert hits (some x))
    (ranks : p.Ranks view hits) : ∃ r ∈ p.rules, r.Applies view ∧ assert r = some x := by
  obtain ⟨before, r, after, rfl, _, asserts⟩ := settles
  obtain ⟨declared, applies⟩ := (ranks.mem_iff r).mp (by simp)
  exact ⟨r, declared, applies, asserts⟩

section Meaning

variable {p : Policy} {view : Json} {hits : List Rule} {e e' : EffectivePolicy}

theorem Ranks.grants (ranks : p.Ranks view hits) (defaults : List String)
    (named : Rule → Option (List String)) (capability : String) :
    capability ∈ Table.distinct (defaults ++ hits.flatMap fun r => (named r).getD []) ↔
      p.Grants view defaults named capability := by
  rw [Table.mem_distinct, List.mem_append, List.mem_flatMap]
  apply or_congr_right
  constructor
  · rintro ⟨r, member, inside⟩
    obtain ⟨declared, applies⟩ := (ranks.mem_iff r).mp member
    cases given : named r with
    | none =>
      rw [given] at inside
      exact absurd inside List.not_mem_nil
    | some list =>
      rw [given] at inside
      exact ⟨r, declared, applies, list, given, inside⟩
  · rintro ⟨r, declared, applies, list, given, inside⟩
    exact ⟨r, (ranks.mem_iff r).mpr ⟨declared, applies⟩, by simpa [given] using inside⟩

theorem evaluateView_means (p : Policy) (view : Json) :
    p.Means view (p.ranked view) (p.evaluateView view) := by
  have ranks := p.ranked_ranks view
  constructor
  · exact ranks
  · rfl
  · exact (settles_findSome? _ _ _).mpr rfl
  · exact (settles_findSome? _ _ _).mpr rfl
  · exact (settles_findSome? _ _ _).mpr rfl
  · exact Table.distinct_increasing _
  · intro c
    exact ranks.grants p.defaults.forbid (·.effect.forbid) c
  · exact (Table.distinct_increasing _).filter _
  · intro c
    rw [← ranks.grants p.defaults.allow (·.effect.allow) c]
    simp [evaluateView, List.mem_filter]

theorem Means.unique {others : List Rule} (means : p.Means view hits e)
    (other : p.Means view others e') : e = e' := by
  obtain rfl := means.ranks.unique other.ranks
  have forbid : e.forbid = e'.forbid := by
    apply Table.increasing_unique means.forbid_increasing other.forbid_increasing
    intro c
    rw [means.forbid, other.forbid]
  have allow : e.allow = e'.allow := by
    apply Table.increasing_unique means.allow_increasing other.allow_increasing
    intro c
    rw [means.allow, other.allow, forbid]
  have settled {α : Type} {assert : Rule → Option α} {x y : Option α}
      (one : Settles assert hits x) (two : Settles assert hits y) : x = y := by
    rw [settles_findSome?] at one two
    exact one.symm.trans two
  cases e
  cases e'
  simp only [EffectivePolicy.mk.injEq]
  exact ⟨settled means.decision other.decision, allow, forbid, settled means.retry other.retry,
    settled means.fanIn other.fanIn, means.names.trans other.names.symm⟩

/-- Evaluation gives the one effective policy that the rules which apply mean; nothing is both
allowed and forbidden in it. -/
theorem evaluate_eq_iff_means (p : Policy) (c : PolicyContext) :
    (∀ e, p.evaluate c = e ↔ ∃ hits, p.Means c.toJson hits e) ∧
      (p.evaluate c).allow.Disjoint (p.evaluate c).forbid := by
  have means := p.evaluateView_means c.toJson
  constructor
  · intro e
    constructor
    · rintro rfl
      exact ⟨_, means⟩
    · rintro ⟨hits, other⟩
      exact means.unique other
  · intro capability allowed
    exact ((means.allow capability).mp allowed).2

end Meaning
end Policy
end Orchestration
