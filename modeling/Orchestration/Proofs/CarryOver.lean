import Orchestration.Proofs.Capabilities
import Orchestration.Proofs.Delegating
import Orchestration.Proofs.Round

/-! What a round is judged by. The run holds a fan-in, and a decision replaces it if the policy
states one as it is evaluated there. So the fan-in of a round can be told from the decisions
before it, by a search back to the latest that states one; how those decisions were made, and
where the loop went after them, is nothing to it. -/
namespace Orchestration

variable {η σ : Type}

/-- The fan-in after some decisions, the latest of them last, if this one was there first. -/
def EffectivePolicy.fanInAfter (first : FanInPolicy) (taken : List EffectivePolicy) :
    FanInPolicy :=
  (taken.reverse.findSome? (·.fanIn)).getD first

theorem EffectivePolicy.fanInAfter_concat (first : FanInPolicy) (taken : List EffectivePolicy)
    (e : EffectivePolicy) :
    fanInAfter first (taken ++ [e]) = e.fanIn.getD (fanInAfter first taken) := by
  unfold fanInAfter
  rw [List.reverse_append, List.reverse_singleton, List.singleton_append, List.findSome?_cons]
  cases e.fanIn <;> rfl

theorem Summary.blocking_fanIn {observations : List Observation} {policy : FanInPolicy}
    (some : (fanIn observations policy).findings ≠ []) :
    (fanIn observations policy).blocking =
      policy.mode.blocks (fanIn observations policy).successRate policy.threshold := by
  cases observations with
  | nil => exact absurd rfl some
  | cons o rest => rfl

namespace Services

section Carried

variable {s : Services η σ} {w v : World η σ} {r t : Run} {phase : Phase}

def Judging (s : Services η σ) (w : World η σ) (r t : Run) : Prop :=
  ∃ taken : List EffectivePolicy, taken.length = t.iteration ∧
    (∀ i e, taken[i]? = some e → s.Evaluates w r t.history i e) ∧
    t.fanIn = EffectivePolicy.fanInAfter r.fanIn taken

theorem Judging.stored (judging : s.Judging w r t) {q : Run} {c : State}
    (iteration : q.iteration = t.iteration) (fanIn : q.fanIn = t.fanIn)
    (history : q.history = t.history) : s.Judging w r (q.stored c) := by
  obtain ⟨taken, count, evaluated, force⟩ := judging
  refine ⟨taken, count.trans iteration.symm, fun i e at_ => ?_, fanIn.trans force⟩
  change s.Evaluates w r (q.history ++ [c]) i e
  rw [history]
  exact (evaluated i e at_).append c

/-- A decision adds what the policy came to, wherever the loop goes on from it. -/
theorem Judging.decided (judging : s.Judging w r t) (passed : s.Passes w r .decision v t) :
    let d := s.decision (.of s.config v.engine t) v t
    s.Judging w r { d.run.stored d.state with iteration := t.iteration + 1 } := by
  intro d
  obtain ⟨taken, count, evaluated, force⟩ := judging
  let e := (Verdict.of s.config v.engine t).effective
  have latest : s.Evaluates w r (t.history ++ [d.state]) taken.length e := by
    rw [count]
    exact passed.evaluates
  refine ⟨taken ++ [e], ?_, ?_, ?_⟩
  · rw [List.length_append, count]
    rfl
  · exact evaluates_concat (fun i p at_ => (evaluated i p at_).append d.state) latest
  · rw [EffectivePolicy.fanInAfter_concat, ← force]
    rfl

theorem Passes.judging (passed : s.Passes w r phase v t) (fits : s.config.Fits)
    (new : r.iteration = 0) : s.Judging w r t := by
  have first : s.Judging w r r := ⟨[], new.symm, by simp, rfl⟩
  refine passed.induction (P := fun _ _ q => s.Judging w r q) first ?_
  intro phase u q entered judging
  cases drafted : s.draft? phase u q with
  | none =>
    cases phase <;> cases drafted
    trivial
  | some d =>
    refine s.step_rule drafted (fun _ _ _ _ _ _ _ _ => trivial) (fun _ next _ follows => ?_)
      fun _ _ decides => ?_
    · have kept : d.run.fanIn = q.fanIn := by
        cases phase <;> cases drafted <;> first | rfl | cases follows
      have continues := draft_continues drafted
      exact judging.stored continues.iteration kept continues.history
    · subst decides
      cases drafted
      have next := judging.decided entered
      exact s.settle_rule fits _ trivial (fun _ _ => next) (fun _ _ => next)
        (fun _ _ _ => trivial) fun _ _ => trivial

/-- An observation is made of some delegations. -/
theorem Passes.delegations_ne_nil (passed : s.Passes w r .observation v t)
    (fits : s.config.Fits) : t.delegations ≠ [] := by
  have planned := (passed.planned fits (by decide)).2
  have some := (Plan.accept_eq_ok planned).2.1
  obtain ⟨last, u, q, d, follows, _, drafted, _, rfl⟩ := passed.entered fits (by decide)
  obtain rfl : last = .delegation := by cases last <;> cases follows; rfl
  cases drafted
  have steps := s.delegateAll_steps { q with pause := 0 } q.plan (s.backOff u q.pause)
  have counted := congrArg List.length steps
  rw [List.length_map, List.length_map] at counted
  intro none
  exact some (List.length_eq_zero_iff.mp (counted.symm.trans (congrArg List.length none)))

end Carried

variable (s : Services η σ)

/-- The summary of some delegations is blocking as the fan-in of the run has it. -/
theorem summarize_judged {v : World η σ} {t : Run} (some : t.delegations ≠ []) :
    ((s.summarize v t).1.findings ≠ [] ∧ (s.summarize v t).1.blocking =
      t.fanIn.mode.blocks (s.summarize v t).1.successRate t.fanIn.threshold) ∨
    (s.summarize v t).1 = .empty ∧ (s.prefill t.session t.delegations v).2.canWait
      (s.config.observationTimeout * 1000) = false := by
  rcases s.summarize_round v t with round | beyond
  · left
    have found : (s.summarize v t).1.findings ≠ [] := by
      have asked := s.inquiries_delegations t.session t.delegations v
      have inquired : s.inquiries t.session t.delegations v ≠ [] := by
        intro none
        rw [none] at asked
        exact some asked.symm
      obtain ⟨q, member⟩ := List.exists_mem_of_ne_nil _ inquired
      obtain ⟨f, inside, -⟩ := round.answered q member
      exact List.ne_nil_of_mem inside
    refine ⟨found, ?_⟩
    obtain ⟨none, -⟩ | ⟨results, eq⟩ | ⟨eq, -⟩ := s.summarize_cases v t
    · exact absurd none some
    · rw [eq] at found ⊢
      exact Summary.blocking_fanIn found
    · rw [eq] at found
      exact absurd rfl found
  · exact .inr beyond

/-- Each observation is judged by the fan-in that the latest decision before it to state one
stated, and by the first of the run if none has: that of the defaults of the policy, else that of
the settings. It is told with the observation. Only where the clock could not tell how long to
wait is nothing judged. -/
theorem observations_judged_by_latest_fanIn (fits : s.config.Fits) (command : String)
    (context : Table Json) (session : Option String) (w : World η σ) :
    let start := s.begin command context session w
    let history := (s.execute command context session w).1.history
    let first := (w.engine.current.bind (·.defaults.fanIn)).getD s.config.fanIn
    ∀ c ∈ history, c.phase = .observation →
      ∃ taken : List EffectivePolicy, taken.length = c.iteration ∧
        (∀ i e, taken[i]? = some e → s.Evaluates start.1 start.2 history i e) ∧
        let latest := EffectivePolicy.fanInAfter first taken
        Table.get? c.metadata fanInKey = some latest.toJson ∧
        ∃ v t summary, s.Passes start.1 start.2 .observation v t ∧
          (s.observation v t).state = c ∧ c.observations = some summary ∧
          (summary.findings ≠ [] ∧
              summary.blocking = latest.mode.blocks summary.successRate latest.threshold ∨
            summary = .empty ∧ (s.prefill t.session t.delegations v).2.canWait
              (s.config.observationTimeout * 1000) = false) := by
  intro start history first c member phase
  obtain ⟨empty, new, _, _⟩ := s.begin_blank command context session w
  have same : history = (s.drive start.1 start.2).run.history := (resultOf_history _).2
  have drawn : s.Drawn start.1 start.2 history := same ▸ drive_drawn fits empty new
  obtain ⟨v, t, d, passed, drafted, rfl⟩ := drawn.of_mem member (by simp [phase])
  rw [phase] at passed drafted
  cases drafted
  obtain ⟨taken, count, evaluated, force⟩ := passed.judging fits new
  have begun : start.2.fanIn = first := by cases session <;> rfl
  rw [begun] at force
  refine ⟨taken, count, fun i e at_ => ?_, ?_, v, t, _, passed, rfl, rfl, ?_⟩
  · rw [same]
    exact (evaluated i e at_).mono (passed.history_prefix fits new).subset
  · rw [← force]
    rfl
  · rw [← force]
    exact s.summarize_judged (passed.delegations_ne_nil fits)

def onceStated : World Empty Unit :=
  let effect : RuleEffect := { RuleEffect.none with fanIn := some ⟨.any, .zero⟩ }
  let rule : Rule := ⟨"first", Rule.defaultPriority, [("retry_count", .lt .one)], effect⟩
  let defaults : PolicyDefaults := { PolicyDefaults.none with fanIn := some ⟨.quorum, .one⟩ }
  let policy : Policy := { Policy.empty with defaults := defaults, rules := [rule] }
  { World.initial () with engine := PolicyEngine.empty.set policy }

def thrice : Services Empty Unit :=
  { alone with config := { alone.config with maxIterations := 3 } }

theorem thrice_fits : thrice.config.Fits :=
  { alone_fits with maxIterations := by decide }

theorem onceStated_judged :
    thrice.config.Fits ∧
      ∃ c ∈ (thrice.execute "go" [] (some "s") onceStated).1.history,
        c.phase = .observation ∧ c.iteration = 2 ∧
        ∃ taken : List EffectivePolicy, taken.length = 2 ∧ Table.get? c.metadata fanInKey =
          some (EffectivePolicy.fanInAfter ⟨.quorum, .one⟩ taken).toJson := by
  let history := (thrice.execute "go" [] (some "s") onceStated).1.history
  obtain ⟨c, member, phase, two⟩ : ∃ c ∈ history, c.phase = .observation ∧ c.iteration = 2 := by
    decide +kernel
  obtain ⟨taken, count, _, told, _⟩ := thrice.observations_judged_by_latest_fanIn thrice_fits "go" []
    (some "s") onceStated c member phase
  exact ⟨thrice_fits, c, member, phase, two, taken, count.trans two, told⟩

/-! The fan-in of the first decision is still in force two rounds later. -/
example :
    ((thrice.execute "go" [] (some "s") onceStated).1.history.filter (·.phase = .observation)).map
      (fun c => (c.iteration, (Table.get? c.metadata fanInKey).bind FanInPolicy.of?)) =
    [(0, some ⟨.quorum, .one⟩), (1, some ⟨.any, .zero⟩), (2, some ⟨.any, .zero⟩)] := by
  decide +kernel

end Services
end Orchestration
