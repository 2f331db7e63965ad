import Mathlib.Data.List.Nodup
import Orchestration.Proofs.Evaluation
import Orchestration.Proofs.Alarms
import Orchestration.Proofs.Capabilities
import Orchestration.Proofs.Steps

/-! The budget of retries. A retry is decided on only while the iteration is below the number
of retries that are allowed there; beyond that it becomes an escalation, which is what is logged,
stored and acted on. Iterations grow, so a run under a policy that allows nowhere more than
some number of retries holds no more of them. -/
namespace Orchestration

variable {η σ : Type}

namespace Verdict

/-- A decision that is not overruled is no retry beyond the budget. -/
theorem withinBudget_cases (d : Decision) (retry : Option RetryPolicy) (iteration : Nat) :
    (withinBudget d retry iteration = d ∧ (d.action = .retry → ∀ limit,
      retry.bind (·.maxRetry) = some limit → iteration < limit)) ∨
    ∃ limit, d.action = .retry ∧ retry.bind (·.maxRetry) = some limit ∧ limit ≤ iteration ∧
      withinBudget d retry iteration = .of .escalate (some (budgetReason limit)) := by
  unfold withinBudget
  split
  · rename_i limit action declared
    split
    · rename_i beyond
      exact .inr ⟨limit, action, declared, beyond, rfl⟩
    · rename_i inside
      refine .inl ⟨rfl, fun _ other same => ?_⟩
      rw [declared] at same
      cases same
      omega
  · rename_i other
    exact .inl ⟨rfl, fun action limit declared => absurd declared (other limit action)⟩

theorem withinBudget_retry {d : Decision} {retry : Option RetryPolicy} {iteration limit : Nat}
    (retries : (withinBudget d retry iteration).action = .retry)
    (declared : retry.bind (·.maxRetry) = some limit) : iteration < limit := by
  obtain ⟨same, inside⟩ | ⟨_, _, _, _, eq⟩ := withinBudget_cases d retry iteration
  · rw [same] at retries
    exact inside retries limit declared
  · rw [eq] at retries
    cases retries

theorem withinBudget_beyond {d : Decision} {retry : Option RetryPolicy} {iteration limit : Nat}
    (retries : d.action = .retry) (declared : retry.bind (·.maxRetry) = some limit)
    (beyond : limit ≤ iteration) :
    withinBudget d retry iteration = .of .escalate (some (budgetReason limit)) := by
  obtain ⟨_, inside⟩ | ⟨other, _, same, _, eq⟩ := withinBudget_cases d retry iteration
  · have := inside retries limit declared
    omega
  · rw [declared] at same
    cases same
    exact eq

end Verdict

/-- The number of retries that are allowed where the policy comes to this, if it says one: that
of the first rule which speaks of retries, else the default. -/
def PolicyEngine.retryLimit (engine : PolicyEngine) (effective : EffectivePolicy) : Option Nat :=
  (effective.retry <|> engine.current.bind (·.defaults.retry)).bind (·.maxRetry)

namespace Policy

/-- Wherever the policy speaks of retries it allows some number of them at most, and it speaks
of them by default. -/
structure Budgets (p : Policy) (k : Nat) : Prop where
  default : ∃ retry, p.defaults.retry = some retry ∧ ∃ limit ≤ k, retry.maxRetry = some limit
  rules : ∀ rule ∈ p.rules, ∀ retry, rule.effect.retry = some retry →
    ∃ limit ≤ k, retry.maxRetry = some limit

theorem Budgets.retryLimit {p : Policy} {k : Nat} (budgets : p.Budgets k)
    {engine : PolicyEngine} (current : engine.current = some p) (c : PolicyContext) :
    ∃ limit ≤ k, engine.retryLimit (engine.evaluate c) = some limit := by
  have means := p.evaluateView_means c.toJson
  simp only [PolicyEngine.retryLimit, PolicyEngine.evaluate, current, Option.bind_some]
  cases asserted : (p.evaluate c).retry with
  | none =>
    obtain ⟨retry, default, limit, least, declared⟩ := budgets.default
    exact ⟨limit, least, by simp [default, declared]⟩
  | some retry =>
    have settles := means.retry
    change Settles _ _ (p.evaluate c).retry at settles
    rw [asserted] at settles
    obtain ⟨rule, declared, _, effect⟩ := settles.declared means.ranks
    obtain ⟨limit, least, same⟩ := budgets.rules rule declared retry effect
    exact ⟨limit, least, by simpa using same⟩

end Policy

/-- Numbers below a bound, in increasing order, are no more than the bound. -/
theorem length_le_of_increasing {numbers : List Nat} {k : Nat}
    (increasing : numbers.Pairwise (· < ·)) (below : ∀ n ∈ numbers, n < k) :
    numbers.length ≤ k := by
  have distinct : numbers.Nodup := increasing.imp Nat.ne_of_lt
  have inside : numbers ⊆ List.range k := fun n member => List.mem_range.mpr (below n member)
  simpa using (distinct.subperm inside).length_le

def State.retries (c : State) : Bool := c.phase = .decision ∧ c.action? = some .retry

theorem Course.iterations_increasing {session : String} {limit : Nat} {history : List State}
    (course : Course session limit history) (keep : State → Bool) {phase : Phase}
    (ofPhase : ∀ c ∈ history, keep c = true → c.phase = phase) :
    ((history.filter keep).map (·.iteration)).Pairwise (· < ·) := by
  rw [List.pairwise_map]
  refine (course.increasing.filter keep).imp_of_mem fun {a b} first second less => ?_
  obtain ⟨inside, kept⟩ := List.mem_filter.mp first
  obtain ⟨inside', kept'⟩ := List.mem_filter.mp second
  rw [StateKey.placeLt_iff] at less
  change a.iteration < b.iteration ∨ a.iteration = b.iteration ∧
    a.phase.ordinal < b.phase.ordinal at less
  rw [ofPhase a inside kept, ofPhase b inside' kept'] at less
  omega

/-- A run is over by this decision, taken with this history behind it: the decision was logged
and is the last state, or one of its records was refused, and it was that which stopped the run. -/
inductive Services.EndsBy (s : Services η σ) (history : List State) (d : State) :
    Standing η σ → Prop
  | kept (w : World η σ) (r : Run) (after : r.history = history ++ [d])
    (written : ∀ rec ∈ d.writes, .stored rec ∈ w.journal) : s.EndsBy history d (.on w r)
  | refused (w : World η σ) (r : Run) (rec : Record) (cause : Interruption)
    (after : r.history = history) (own : rec ∈ d.writes)
    (failed : (s.keep rec w).failure? = some cause) :
    s.EndsBy history d ⟨w.note (.refused rec cause), r, some cause⟩

namespace Services

theorem EndsBy.result {s : Services η σ} {history : List State} {d : State} {e : Standing η σ}
    (ended : s.EndsBy history d e) (phase : d.phase = .decision) (plain : d.isMarked = false)
    {reason : Option String} (escalates : d.decision = some (.of .escalate reason)) :
    (resultOf e).success = false ∧ (e.stopped = none →
      (resultOf e).error = some ("Escalated: " ++ reason.getD "no reason given")) := by
  cases ended with
  | refused => exact ⟨rfl, nofun⟩
  | kept w r after =>
    have final : r.history.getLast? = some d := by simp [after]
    have latest : RunResult.latest (·.decision) r.history = some (.of .escalate reason) := by
      simp [RunResult.latest, after, escalates]
    have result : resultOf (.on w r) = RunResult.inFull r.session r.history := rfl
    rw [result, inFull_last final, phase]
    refine ⟨rfl, fun _ => ?_⟩
    rw [latest, RunResult.stopText_escalated phase plain]
    rfl

variable {s : Services η σ} {w v : World η σ} {r t : Run}

/-- A decision to escalate is where the run ends. -/
theorem Passes.endsBy (passed : s.Passes w r .decision v t) (fits : s.config.Fits)
    (new : r.iteration = 0)
    (escalates : (Verdict.of s.config v.engine t).decision.action = .escalate) :
    s.EndsBy t.history (s.decision (.of s.config v.engine t) v t).state (s.drive w r) := by
  let d := s.decision (.of s.config v.engine t) v t
  have rule := @Passes.drive_holds η σ s w v r t _ passed fits new
    (fun phase u q => phase = .decision ∧ v = u ∧ t = q) (s.EndsBy t.history d.state)
  refine rule ⟨rfl, rfl, rfl⟩ ?_
  rintro _ _ _ ⟨rfl, rfl, rfl⟩
  refine s.step_rule (d := d) rfl ?_ (fun _ _ _ follows => by cases follows) fun u wrote _ => ?_
  · intro done rec left u cause order wrote failed
    exact .refused u _ rec cause rfl (by rw [order]; simp) failed
  · have halts : s.settle (.of s.config v.engine t) u (d.run.stored d.state) =
        .ended (.on u (d.run.stored d.state)) := by
      simp [settle, Verdict.exhausts, Decision.transition, escalates, Action.loops]
    rw [halts]
    exact .kept _ _ rfl wrote.mem_journal.2

variable (s)

/-- No retry goes beyond the budget. A decision to retry is taken only while the iteration is
below the number of retries allowed by the policy it was taken under, which is stored with it; a
run under a policy that allows no more than some number of them anywhere holds no more; and a
retry beyond the budget is an escalation, with which the run is over, without success and not for
want of iterations. -/
theorem retries_within_budget (valid : s.config.validate = .ok ()) (fits : s.config.Fits)
    (command : String) (context : Table Json) (session : Option String) (w : World η σ) :
    let start := s.begin command context session w
    let e := s.outcome command context session w
    let result := (s.execute command context session w).1
    (∀ c ∈ result.history, c.retries = true → ∃ v t, s.Passes start.1 start.2 .decision v t ∧
      t.iteration = c.iteration ∧
      let effective := w.engine.evaluate (t.policyContext s.config)
      Table.get? c.metadata "effective_policy" = some effective.toJson ∧
      ∀ limit, w.engine.retryLimit effective = some limit → c.iteration < limit) ∧
    (∀ p k, w.engine.current = some p → p.Budgets k →
      (result.history.filter State.retries).length ≤ k) ∧
    ∀ v t limit, s.Passes start.1 start.2 .decision v t →
      let effective := w.engine.evaluate (t.policyContext s.config)
      (Verdict.asserted effective t.observed).action = .retry →
      w.engine.retryLimit effective = some limit → limit ≤ t.iteration →
      ∃ d : State, d.phase = .decision ∧ d.iteration = t.iteration ∧
        d.decision = some (.of .escalate (some (Verdict.budgetReason limit))) ∧
        d.isMarked = false ∧ s.EndsBy t.history d e ∧ result.success = false ∧
        (e.stopped = none → result.error = some ("Escalated: " ++ Verdict.budgetReason limit)) := by
  intro start e result
  obtain ⟨empty, new, _, _⟩ := s.begin_blank command context session w
  have engine : start.1.engine = w.engine := by cases session <;> rfl
  have same : result.history = e.run.history := (resultOf_history e).2
  have course := (s.outcome_ends valid fits command context session w).closing.1
  have drawn : s.Drawn start.1 start.2 e.run.history := drive_drawn fits empty new
  have kept : ∀ c ∈ e.run.history, c.retries = true →
      ∃ v t, s.Passes start.1 start.2 .decision v t ∧ t.iteration = c.iteration ∧
      let effective := w.engine.evaluate (t.policyContext s.config)
      Table.get? c.metadata "effective_policy" = some effective.toJson ∧
      ∀ limit, w.engine.retryLimit effective = some limit → c.iteration < limit := by
    intro c member retries
    obtain ⟨phase, action⟩ := of_decide_eq_true retries
    obtain ⟨v, t, d, passed, drafted, rfl⟩ := drawn.of_mem member (by simp [phase])
    rw [phase] at passed drafted
    cases drafted
    have unchanged : v.engine = w.engine := (passed.engine fits).trans engine
    have retried : (Verdict.of s.config v.engine t).decision.action = .retry :=
      Option.some.inj action
    rw [← unchanged]
    exact ⟨v, t, passed, rfl, Verdict.state_policy .., fun limit declared =>
      Verdict.withinBudget_retry retried declared⟩
  refine ⟨by rw [same]; exact kept, fun p k current budgets => ?_, ?_⟩
  · rw [same]
    have ofPhase : ∀ c ∈ e.run.history, c.retries = true → c.phase = .decision :=
      fun c _ retries => (of_decide_eq_true retries).1
    have few := length_le_of_increasing (course.iterations_increasing State.retries ofPhase)
      (k := k) fun n member => ?_
    · simpa using few
    · obtain ⟨c, found, rfl⟩ := List.mem_map.mp member
      obtain ⟨inside, retries⟩ := List.mem_filter.mp found
      obtain ⟨v, t, _, _, _, within⟩ := kept c inside retries
      obtain ⟨limit, least, declared⟩ := budgets.retryLimit current (t.policyContext s.config)
      have below := within limit declared
      omega
  · intro v t limit passed effective asserts declared beyond
    have overruled : (Verdict.of s.config v.engine t).decision =
        .of .escalate (some (Verdict.budgetReason limit)) := by
      have unchanged : v.engine = w.engine := (passed.engine fits).trans engine
      rw [unchanged]
      exact Verdict.withinBudget_beyond asserts declared beyond
    have ended := passed.endsBy fits new (by rw [overruled]; rfl)
    have plain : (s.decision (.of s.config v.engine t) v t).state.isMarked = false := by
      rw [s.isMarked_decision, Verdict.exhausts, overruled]
      rfl
    exact ⟨_, rfl, rfl, congrArg some overruled, plain, ended,
      ended.result rfl plain (congrArg some overruled)⟩

def sparing : Policy :=
  { Policy.empty with defaults := { PolicyDefaults.none with retry := some ⟨some 1, .zero⟩ } }

def spared : World Empty Unit :=
  { World.initial () with engine := PolicyEngine.empty.set sparing }

def overdrawn (limit : Nat) : Station Empty Unit → Bool
  | .enter .decision v t =>
    let effective := v.engine.evaluate (t.policyContext alone.config)
    decide ((Verdict.asserted effective t.observed).action = .retry ∧
      v.engine.retryLimit effective = some limit ∧ limit ≤ t.iteration)
  | _ => false

theorem sparing_within_budget :
    let result := (alone.execute "go" [] (some "s") spared).1
    alone.config.Fits ∧ sparing.Budgets 1 ∧ (∃ c ∈ result.history, c.retries = true) ∧
      (result.history.filter State.retries).length ≤ 1 ∧
      result.error = some ("Escalated: " ++ Verdict.budgetReason 1) := by
  intro result
  let start := alone.begin "go" [] (some "s") spared
  have budgets : sparing.Budgets 1 := ⟨⟨_, rfl, 1, Nat.le_refl 1, rfl⟩, fun _ member => by cases member⟩
  have general := alone.retries_within_budget alone_valid alone_fits "go" [] (some "s") spared
  obtain ⟨_, few, ends⟩ := general
  have retried : (result.history.any State.retries) = true := by decide +kernel
  -- the second decision is a retry again, and one too many
  have again : overdrawn 1 (alone.advance 7 (.enter .awareness start.1 start.2)) = true := by
    decide +kernel
  have ended : (alone.outcome "go" [] (some "s") spared).stopped.isNone = true := by decide +kernel
  unfold overdrawn at again
  split at again
  · rename_i v t reached
    have passed : alone.Passes start.1 start.2 .decision v t := ⟨7, reached⟩
    have engine : v.engine = spared.engine := passed.engine alone_fits
    rw [engine] at again
    obtain ⟨asserts, declared, beyond⟩ := of_decide_eq_true again
    obtain ⟨_, _, _, _, _, _, _, error⟩ := ends v t 1 passed asserts declared beyond
    have one := few sparing 1 rfl budgets
    have text := error (Option.isNone_iff_eq_none.mp ended)
    exact ⟨alone_fits, budgets, List.any_eq_true.mp retried, one, text⟩
  · cases again

end Services
end Orchestration
