import Orchestration.Proofs.Evaluation
import Orchestration.Proofs.Observed
import Orchestration.Proofs.Steps

/-! Rounds in which everything succeeds. The fan-in in force is one that was stated somewhere: in
the settings, among the defaults of the policy or by one of its rules. Where no rule decides, a
unanimous round completes the session under any fan-in but a quorum beyond one, and such a quorum
the settings cannot state. -/
namespace Orchestration

variable {η σ : Type}

inductive FanInPolicy.Stated (config : LoopConfig) (engine : PolicyEngine) (fanIn : FanInPolicy) :
    Prop
  | setting (same : config.fanIn = fanIn)
  | default {p : Policy} (current : engine.current = some p)
    (stated : p.defaults.fanIn = some fanIn)
  | rule {p : Policy} {rule : Rule} (current : engine.current = some p) (declared : rule ∈ p.rules)
    (stated : rule.effect.fanIn = some fanIn)

namespace PolicyEngine

theorem stated_of_evaluate {engine : PolicyEngine} {c : PolicyContext} {fanIn : FanInPolicy}
    (asserted : (engine.evaluate c).fanIn = some fanIn) (config : LoopConfig) :
    fanIn.Stated config engine := by
  unfold evaluate at asserted
  cases current : engine.current with
  | none =>
    rw [current] at asserted
    cases asserted
  | some p =>
    rw [current] at asserted
    have means := p.evaluateView_means c.toJson
    have settles := means.fanIn
    change (p.evaluateView c.toJson).fanIn = some fanIn at asserted
    rw [asserted] at settles
    obtain ⟨rule, declared, _, stated⟩ := settles.declared means.ranks
    exact .rule current declared stated

/-- Nothing is decided by policy exactly where no rule that applies decides. -/
theorem evaluate_undecided {engine : PolicyEngine} {c : PolicyContext} :
    (engine.evaluate c).decision = none ↔ ∀ p, engine.current = some p →
      ∀ rule ∈ p.rules, rule.Applies c.toJson → rule.effect.decision = none := by
  unfold evaluate
  cases current : engine.current with
  | none =>
    refine ⟨fun _ p same => ?_, fun _ => rfl⟩
    cases same
  | some p =>
    have means := p.evaluateView_means c.toJson
    have settles := means.decision
    change (p.evaluateView c.toJson).decision = none ↔ _
    constructor
    · intro undecided q same rule declared applies
      cases same
      rw [undecided] at settles
      exact settles rule ((means.ranks.mem_iff rule).mpr ⟨declared, applies⟩)
    · intro silent
      cases decided : (p.evaluateView c.toJson).decision with
      | none => rfl
      | some d =>
        rw [decided] at settles
        obtain ⟨rule, declared, applies, asserts⟩ := settles.declared means.ranks
        rw [silent p rfl rule declared applies] at asserts
        cases asserts

end PolicyEngine

theorem Verdict.complete_iff_clean {config : LoopConfig} {engine : PolicyEngine} {r : Run}
    (free : (Verdict.of config engine r).effective.decision = none) :
    (Verdict.of config engine r).decision.action = .complete ↔ r.observed.isClean = true := by
  refine ⟨clean_of_complete free, fun clean => ?_⟩
  change (engine.evaluate (r.policyContext config)).decision = none at free
  have asserted : asserted (engine.evaluate (r.policyContext config)) r.observed =
      .of .complete (some "All delegated tasks succeeded") := by
    unfold Verdict.asserted Summary.fallback
    rw [free, if_pos clean]
  change (withinBudget (Verdict.asserted _ r.observed) _ r.iteration).action = .complete
  rw [asserted]
  rfl

structure Summary.Unanimous (s : Summary) : Prop where
  some : s.findings ≠ []
  counted : s.findings.length < twoTo 64
  succeeded : ∀ f ∈ s.findings, f.status = .success

instance (s : Summary) : Decidable s.Unanimous :=
  decidable_of_iff (s.findings.isEmpty = false ∧ s.findings.length < twoTo 64 ∧
      ∀ f ∈ s.findings, f.status = .success)
    ⟨fun ⟨any, counted, succeeded⟩ => ⟨by simpa using any, counted, succeeded⟩,
      fun ⟨any, counted, succeeded⟩ => ⟨by simpa using any, counted, succeeded⟩⟩

theorem Summary.Unanimous.isClean_iff {observations : List Observation} {policy : FanInPolicy}
    (unanimous : (fanIn observations policy).Unanimous) (known : policy.mode ≠ .unrecognized) :
    (fanIn observations policy).isClean = true ↔
      (policy.mode = .quorum → Binary64.one.lt policy.threshold = false) := by
  obtain ⟨some, counted, succeeded⟩ := unanimous
  rw [findings_fanIn] at some counted succeeded
  have few : observations.length < twoTo 1023 := by
    rw [List.length_map] at counted
    exact counted.trans (twoTo_lt (by decide))
  rw [isClean_of_success policy (by simpa using some) few (by simpa using succeeded),
    blocks_one known]
  cases Binary64.one.lt policy.threshold <;> simp

namespace Services

variable {s : Services η σ} {w v : World η σ} {r t : Run} {phase : Phase}

theorem draft_fanIn {d : Draft η σ} (drafted : s.draft? phase v t = some d) :
    d.run.fanIn = t.fanIn ∨
      (v.engine.evaluate (t.policyContext s.config)).fanIn = some d.run.fanIn := by
  cases phase <;> cases drafted
  case decision =>
    change (v.engine.evaluate _).fanIn.getD t.fanIn = t.fanIn ∨
      (v.engine.evaluate _).fanIn = some ((v.engine.evaluate _).fanIn.getD t.fanIn)
    cases (v.engine.evaluate (t.policyContext s.config)).fanIn with
    | none => exact .inl rfl
    | some fanIn => exact .inr rfl
  all_goals exact .inl rfl

/-- A run goes by a fan-in that the settings or its policy state, if it began with one. -/
theorem Passes.fanIn_stated (passed : s.Passes w r phase v t) (fits : s.config.Fits)
    (first : r.fanIn.Stated s.config w.engine) : t.fanIn.Stated s.config w.engine := by
  refine Passes.induction (P := fun _ _ q => q.fanIn.Stated s.config w.engine) first ?_ passed
  intro phase u q entered stated
  cases drafted : s.draft? phase u q with
  | none =>
    cases phase <;> cases drafted
    trivial
  | some d =>
    have next : (d.run.stored d.state).fanIn.Stated s.config w.engine := by
      change d.run.fanIn.Stated s.config w.engine
      obtain kept | asserted := draft_fanIn drafted
      · rwa [kept]
      · rw [entered.engine fits] at asserted
        exact PolicyEngine.stated_of_evaluate asserted s.config
    refine s.step_rule drafted (fun _ _ _ _ _ _ _ _ => trivial) (fun _ _ _ _ => next) ?_
    exact fun _ _ _ => s.settle_rule fits _ trivial (fun _ _ => next) (fun _ _ => next)
      (fun _ _ _ => trivial) fun _ _ => trivial

/-- A decision is entered from the observation of its iteration, once that is stored. -/
theorem Passes.observed (passed : s.Passes w r .decision v t) (fits : s.config.Fits) :
    ∃ u q, s.Passes w r .observation u q ∧
      t = (s.observation u q).run.stored (s.observation u q).state := by
  obtain ⟨last, u, q, d, follows, entered, drafted, _, eq⟩ := passed.entered fits (by decide)
  obtain rfl : last = .observation := by cases last <;> cases follows; rfl
  cases drafted
  exact ⟨u, q, entered, eq⟩

variable (s)

theorem initialFanIn_stated (w : World η σ) :
    (s.initialFanIn w).Stated s.config w.engine := by
  unfold initialFanIn
  cases current : w.engine.current with
  | none => exact .setting rfl
  | some p =>
    cases stated : p.defaults.fanIn with
    | none => exact .setting (by simp [stated])
    | some fanIn => exact .default current (by simp [stated])

theorem summarize_unanimous {w : World η σ} {r : Run}
    (unanimous : (s.summarize w r).1.Unanimous) (known : r.fanIn.mode ≠ .unrecognized) :
    (s.summarize w r).1.isClean = true ↔
      (r.fanIn.mode = .quorum → Binary64.one.lt r.fanIn.threshold = false) := by
  obtain ⟨_, eq⟩ | ⟨results, eq⟩ | ⟨eq, _⟩ := s.summarize_cases w r
  · rw [eq] at unanimous
    exact absurd rfl unanimous.some
  · rw [eq] at unanimous ⊢
    exact unanimous.isClean_iff known
  · rw [eq] at unanimous
    exact absurd rfl unanimous.some

/-- A unanimous round completes the session unless too much was asked of it. The fan-in in force
is the one stored with the observations, and the settings or the policy state it. Where no rule
that applies decides, and the mode of the fan-in is a known one, a decision on observations that
are all successes is to complete exactly if the fan-in is no quorum beyond one; so it is under
the fan-in of the settings, of which validation demands as much. -/
theorem unanimous_round_completes (valid : s.config.validate = .ok ()) (fits : s.config.Fits)
    (command : String) (context : Table Json) (session : Option String) (w : World η σ) :
    let start := s.begin command context session w
    let history := (s.execute command context session w).1.history
    ∀ c ∈ history, c.phase = .decision → ∀ summary, c.observations = some summary →
      summary.Unanimous → ∃ fanIn : FanInPolicy, fanIn.Stated s.config w.engine ∧
        (∃ o ∈ history, o.phase = .observation ∧ o.iteration = c.iteration ∧
          o.observations = some summary ∧ Table.get? o.metadata fanInKey = some fanIn.toJson) ∧
        ∃ v t, s.Passes start.1 start.2 .decision v t ∧ t.iteration = c.iteration ∧
          t.observed = summary ∧ t.fanIn = fanIn ∧
          ((∀ p, w.engine.current = some p → ∀ rule ∈ p.rules,
              rule.Applies (t.policyContext s.config).toJson → rule.effect.decision = none) →
            fanIn.mode ≠ .unrecognized →
            (c.action? = some .complete ↔
              (fanIn.mode = .quorum → Binary64.one.lt fanIn.threshold = false)) ∧
            (fanIn = s.config.fanIn → c.action? = some .complete)) := by
  intro start history c member phase summary observed unanimous
  obtain ⟨empty, new, _, _⟩ := s.begin_blank command context session w
  have engine : start.1.engine = w.engine := by cases session <;> rfl
  have same : history = (s.drive start.1 start.2).run.history := (resultOf_history _).2
  have drawn : s.Drawn start.1 start.2 history := same ▸ drive_drawn fits empty new
  obtain ⟨v, t, d, passed, drafted, rfl⟩ := drawn.of_mem member (by simp [phase])
  rw [phase] at passed drafted
  cases drafted
  obtain ⟨u, q, entered, eq⟩ := passed.observed fits
  obtain rfl : t.observed = summary := Option.some.inj observed
  have sees : t.observed = (s.summarize u q).1 := by rw [eq]; rfl
  have fanIn : t.fanIn = q.fanIn := by rw [eq]; rfl
  have stated : t.fanIn.Stated s.config w.engine := by
    rw [← engine]
    refine passed.fanIn_stated fits ?_
    cases session <;> exact s.initialFanIn_stated _
  have stored : (s.observation u q).state ∈ history := by
    have latest : (s.observation u q).state ∈ t.history := by simp [eq, Run.stored]
    rw [same]
    exact (passed.history_prefix fits new).subset latest
  refine ⟨t.fanIn, stated, ⟨_, stored, rfl, ?_, ?_, ?_⟩, v, t, passed, rfl, rfl, rfl, ?_⟩
  · rw [eq]
    rfl
  · rw [sees]
    rfl
  · rw [fanIn]
    rfl
  intro silent known
  have free : (Verdict.of s.config v.engine t).effective.decision = none := by
    rw [passed.engine fits, engine]
    exact PolicyEngine.evaluate_undecided.mpr silent
  have completes : (Verdict.of s.config v.engine t).decision.action = .complete ↔
      (t.fanIn.mode = .quorum → Binary64.one.lt t.fanIn.threshold = false) := by
    rw [Verdict.complete_iff_clean free, sees, fanIn]
    rw [sees] at unanimous
    rw [fanIn] at known
    exact s.summarize_unanimous unanimous known
  have acted : (s.decision (.of s.config v.engine t) v t).state.action? =
      some (Verdict.of s.config v.engine t).decision.action := rfl
  rw [acted, Option.some.injEq]
  refine ⟨completes, fun own => completes.mpr fun _ => ?_⟩
  rw [own]
  exact Binary64.lt_eq_false_of_le (LoopConfig.of_valid valid).2

def agreed : Services Empty Unit :=
  { paired (·.task) (fun _ => .success) with config := { alone.config with maxIterations := 1 } }

def quorumOf (threshold : Binary64) : Policy :=
  { Policy.empty with defaults := { PolicyDefaults.none with fanIn := some ⟨.quorum, threshold⟩ } }

def polled (threshold : Binary64) : World Empty Unit :=
  { World.initial () with engine := PolicyEngine.empty.set (quorumOf threshold) }

theorem agreed_fits : agreed.config.Fits :=
  ⟨by decide, by decide, by decide, by decide⟩

theorem agreed_valid : agreed.config.validate = .ok () := by
  have inside : (Binary64.zero.le agreed.config.fanIn.threshold &&
      agreed.config.fanIn.threshold.le .one) = true := by decide +kernel
  unfold LoopConfig.validate
  rw [if_neg (by decide), if_neg (by decide), if_pos inside]

def unanimously? (action : Action) (history : List State) : Option State :=
  history.find? fun c => c.phase = .decision ∧ c.action? = some action ∧
    (c.observations.getD .empty).Unanimous

theorem unanimously?_some {action : Action} {history : List State}
    (found : (unanimously? action history).isSome = true) : ∃ c ∈ history, c.phase = .decision ∧
      (∃ summary, c.observations = some summary ∧ summary.Unanimous) ∧ c.action? = some action := by
  obtain ⟨c, found⟩ := Option.isSome_iff_exists.mp found
  unfold unanimously? at found
  have member := List.mem_of_find?_eq_some found
  have holds := List.find?_some found
  obtain ⟨phase, acted, unanimous⟩ := of_decide_eq_true holds
  cases observed : c.observations with
  | none =>
    rw [observed] at unanimous
    exact absurd rfl unanimous.some
  | some summary =>
    rw [observed] at unanimous
    exact ⟨c, member, phase, ⟨summary, observed, unanimous⟩, acted⟩

theorem agreed_completes :
    let history := (agreed.execute "go" [] (some "s") (polled .one)).1.history
    agreed.config.validate = .ok () ∧ agreed.config.Fits ∧
      ∃ c ∈ history, c.phase = .decision ∧ (∃ summary, c.observations = some summary ∧
        summary.Unanimous) ∧ c.action? = some .complete := by
  intro history
  let start := agreed.begin "go" [] (some "s") (polled .one)
  have found : (unanimously? .complete history).isSome = true := by decide +kernel
  obtain ⟨c, member, phase, ⟨summary, observed, unanimous⟩, _⟩ := unanimously?_some found
  obtain ⟨fanIn, stated, _, v, t, _, _, _, _, completes⟩ := agreed.unanimous_round_completes
    agreed_valid agreed_fits "go" [] (some "s") (polled .one) c member phase summary observed
    unanimous
  have silent : ∀ p, (polled .one).engine.current = some p → ∀ rule ∈ p.rules,
      rule.Applies (t.policyContext agreed.config).toJson → rule.effect.decision = none := by
    intro p same rule declared
    cases same
    cases declared
  have asked : fanIn = agreed.config.fanIn ∨ fanIn = ⟨.quorum, .one⟩ := by
    cases stated with
    | setting same => exact .inl same.symm
    | default current stated =>
      cases current
      exact .inr (Option.some.inj stated).symm
    | rule current declared =>
      cases current
      cases declared
  have known : fanIn.mode ≠ .unrecognized := by
    rcases asked with rfl | rfl <;> decide
  refine ⟨agreed_valid, agreed_fits, c, member, phase, ⟨summary, observed, unanimous⟩, ?_⟩
  rcases asked with own | rfl
  · exact (completes silent known).2 own
  · exact (completes silent known).1.mpr fun _ => Binary64.lt_irrefl _

def fanInAlone? : Except PolicyFault Policy → Option FanInPolicy
  | .ok ⟨none, ⟨none, some fanIn, [], []⟩, []⟩ => some fanIn
  | _ => none

theorem fanInAlone?_eq_some {read : Except PolicyFault Policy} {fanIn : FanInPolicy}
    (alone : fanInAlone? read = some fanIn) :
    read = .ok { Policy.empty with
      defaults := { PolicyDefaults.none with fanIn := some fanIn } } := by
  unfold fanInAlone? at alone
  split at alone
  · cases alone
    rfl
  · cases alone

def quorumText (threshold : String) : String :=
  "defaults:\n  fan_in:\n    mode: quorum\n    threshold: " ++ threshold

/-- A policy may ask for twice as many successes as there are tasks. Then a round in which all
of them succeed is to be tried again, although no rule decides. -/
theorem quorum_of_two_unmet :
    let history := (agreed.execute "go" [] (some "s") (polled (.ofNat 2))).1.history
    agreed.config.validate = .ok () ∧ agreed.config.Fits ∧
      Policy.parseText .yaml (quorumText "2") = .ok (quorumOf (.ofNat 2)) ∧
      ∃ c ∈ history, c.phase = .decision ∧ (∃ summary, c.observations = some summary ∧
        summary.Unanimous) ∧ c.action? = some .retry := by
  intro history
  have read : fanInAlone? (Policy.parseText .yaml (quorumText "2")) = some ⟨.quorum, .ofNat 2⟩ := by
    decide +kernel
  have found : (unanimously? .retry history).isSome = true := by decide +kernel
  exact ⟨agreed_valid, agreed_fits, fanInAlone?_eq_some read, unanimously?_some found⟩

end Services
end Orchestration
