import Orchestration.Proofs.Execution
import Orchestration.Proofs.Round

/-! What a run makes of the tasks it has handed on. The summary with a stored observation is
that of a round about the delegations stored before it in the same iteration, and the decision
after it is taken on the same summary. Where no rule decides, the session is complete only
after a round of successes. -/
namespace Orchestration

variable {η σ : Type}

theorem Verdict.clean_of_complete {config : LoopConfig} {engine : PolicyEngine} {r : Run}
    (free : (Verdict.of config engine r).effective.decision = none)
    (complete : (Verdict.of config engine r).decision.action = .complete) :
    r.observed.isClean = true := by
  change (engine.evaluate (r.policyContext config)).decision = none at free
  have asserted : asserted (engine.evaluate (r.policyContext config)) r.observed =
      r.observed.fallback := by
    unfold Verdict.asserted
    rw [free]
  change (withinBudget (Verdict.asserted _ r.observed) _ r.iteration).action = .complete at complete
  rw [asserted] at complete
  cases clean : r.observed.isClean with
  | true => rfl
  | false =>
    unfold Summary.fallback at complete
    rw [clean, if_neg Bool.false_ne_true] at complete
    unfold withinBudget at complete
    cases blocking : r.observed.blocking <;> simp only [blocking] at complete
    · cases complete
    · split at complete
      · split at complete <;> cases complete
      · cases complete

namespace Services

variable (s : Services η σ)

def Gathered (w : World η σ) (r : Run) (history : List State) (iteration : Nat)
    (summary : Summary) : Prop :=
  ∃ v t, s.Passes w r .observation v t ∧ (s.summarize v t).1 = summary ∧
    ∃ b ∈ history, b.phase = .delegation ∧ b.iteration = iteration ∧
      b.delegations = some t.delegations

/-- The stored observations and decisions rest on what was gathered in their iterations. -/
structure Grounded (w : World η σ) (r : Run) (history : List State) (c : State) : Prop where
  observed : c.phase = .observation → ∃ summary, c.observations = some summary ∧
    s.Gathered w r history c.iteration summary
  decided : c.phase = .decision → ∃ v t, s.Passes w r .decision v t ∧
    c.observations = some t.observed ∧
    c.decision = some (Verdict.of s.config v.engine t).decision ∧
    s.Gathered w r history c.iteration t.observed

def Rests (w : World η σ) (r : Run) (phase : Phase) (t : Run) : Prop :=
  (∀ c ∈ t.history, s.Grounded w r t.history c) ∧
    match phase with
    | .observation => ∃ b ∈ t.history, b.phase = .delegation ∧ b.iteration = t.iteration ∧
        b.delegations = some t.delegations
    | .decision => s.Gathered w r t.history t.iteration t.observed
    | _ => True

variable {s} {w : World η σ} {r : Run} {history : List State}

theorem Gathered.append {iteration : Nat} {summary : Summary}
    (gathered : s.Gathered w r history iteration summary) (c : State) :
    s.Gathered w r (history ++ [c]) iteration summary := by
  obtain ⟨v, t, passed, same, b, stored, delegated⟩ := gathered
  exact ⟨v, t, passed, same, b, List.mem_append_left _ stored, delegated⟩

theorem Grounded.append {c : State} (grounded : s.Grounded w r history c) (d : State) :
    s.Grounded w r (history ++ [d]) c where
  observed phase := by
    obtain ⟨summary, observations, gathered⟩ := grounded.observed phase
    exact ⟨summary, observations, gathered.append d⟩
  decided phase := by
    obtain ⟨v, t, passed, observations, decision, gathered⟩ := grounded.decided phase
    exact ⟨v, t, passed, observations, decision, gathered.append d⟩

theorem grounded_concat {d : State} (all : ∀ c ∈ history, s.Grounded w r history c)
    (last : s.Grounded w r history d) :
    ∀ c ∈ history ++ [d], s.Grounded w r (history ++ [d]) c := by
  intro c member
  rcases List.mem_append.mp member with earlier | now
  · exact (all c earlier).append d
  · rw [List.mem_singleton.mp now]
    exact last.append d

theorem Grounded.of_other {c : State} {phase : Phase} (ofPhase : c.phase = phase)
    (unobserved : phase ≠ .observation) (undecided : phase ≠ .decision) :
    s.Grounded w r history c :=
  ⟨fun observed => absurd (ofPhase.symm.trans observed) unobserved,
    fun decided => absurd (ofPhase.symm.trans decided) undecided⟩

theorem Grounded.gathered {c : State} (grounded : s.Grounded w r history c)
    (stage : c.phase = .observation ∨ c.phase = .decision) :
    ∃ summary, c.observations = some summary ∧ s.Gathered w r history c.iteration summary ∧
      (c.phase = .decision → ∃ u p, s.Passes w r .decision u p ∧ p.observed = summary ∧
        c.decision = some (Verdict.of s.config u.engine p).decision) := by
  rcases stage with observed | decided
  · obtain ⟨summary, observations, gathered⟩ := grounded.observed observed
    refine ⟨summary, observations, gathered, fun decided => ?_⟩
    rw [observed] at decided
    cases decided
  · obtain ⟨u, p, passed, observations, decision, gathered⟩ := grounded.decided decided
    exact ⟨p.observed, observations, gathered, fun _ => ⟨u, p, passed, rfl, decision⟩⟩

variable (s)

theorem step_rests (fits : s.config.Fits) {phase : Phase} {v : World η σ} {t : Run}
    (passed : s.Passes w r phase v t) (rests : s.Rests w r phase t) :
    (s.step phase v t).Holds (fun phase _ t => s.Rests w r phase t)
      fun e => ∀ c ∈ e.run.history, s.Grounded w r e.run.history c := by
  obtain ⟨all, here⟩ := rests
  cases phase with
  | awareness =>
    refine s.persist_goOn_holds (fun _ _ => ⟨?_, trivial⟩) fun _ _ => all
    exact grounded_concat all (.of_other (rfl : _ = Phase.awareness) (by decide) (by decide))
  | planning =>
    refine s.persist_goOn_holds (fun _ _ => ⟨?_, trivial⟩) fun _ _ => all
    exact grounded_concat all (.of_other (rfl : _ = Phase.planning) (by decide) (by decide))
  | delegation =>
    refine s.persist_goOn_holds (fun _ _ => ⟨?_, ?_⟩) fun _ _ => all
    · exact grounded_concat all (.of_other (rfl : _ = Phase.delegation) (by decide) (by decide))
    · exact ⟨_, List.mem_append_right _ (List.mem_singleton.mpr rfl), rfl, rfl, rfl⟩
  | observation =>
    have gathered : s.Gathered w r t.history t.iteration (s.summarize v t).1 :=
      ⟨v, t, passed, rfl, here⟩
    refine s.persist_goOn_holds (fun _ _ => ⟨?_, gathered.append _⟩) fun _ _ => all
    exact grounded_concat all ⟨fun _ => ⟨_, rfl, gathered⟩, nofun⟩
  | decision =>
    have decided : s.Grounded w r t.history (s.decision (.of s.config v.engine t) v t).state :=
      ⟨nofun, fun _ => ⟨v, t, passed, rfl, rfl, here⟩⟩
    have stored := grounded_concat all decided
    refine s.step_decision_holds rfl rfl (fun _ _ => ?_) fun _ _ => all
    refine s.persist_goOn_holds (fun _ _ => ?_) fun _ _ => all
    obtain ⟨_, _, eq⟩ | ⟨_, _, eq⟩ | ⟨_, _, eq⟩ | ⟨_, eq⟩ | ⟨_, eq⟩ :=
      s.settle_cases fits _ _ _ <;> rw [eq]
    · exact stored
    · exact ⟨stored, trivial⟩
    · exact ⟨stored, trivial⟩
    · obtain ⟨_, _, eq⟩ | ⟨_, _, eq⟩ := s.persist_cases (completion _ _ _) <;> rw [eq]
      · exact grounded_concat stored (.of_other (rfl : _ = Phase.complete) (by decide) (by decide))
      · exact stored
    · exact stored
  | complete => exact all

theorem drive_grounded (fits : s.config.Fits) {w : World η σ} {r : Run} (empty : r.history = [])
    (new : r.iteration = 0) : ∀ c ∈ (s.drive w r).run.history,
      s.Grounded w r (s.drive w r).run.history c := by
  have rule := @drive_holds_along η σ s fits (fun phase _ t => s.Rests w r phase t)
    (fun e => ∀ c ∈ e.run.history, s.Grounded w r e.run.history c) w r
  refine rule new ⟨?_, trivial⟩ fun phase v t passed rests => s.step_rests fits passed rests
  rw [empty]
  intro c member
  cases member

/-- No task handed on goes unobserved, as far as tasks can be told apart. In the summary of
each round there is an answer for every delegation of its iteration, unless the clock could not
tell how long to wait; there are as many observations as delegations if these go by different
tasks and nothing known of one goes by the task of another; and where no rule decides, the
session is complete only after a round in which everything that was observed succeeded, every
delegation was handed on, and the answer to each is a success. -/
theorem delegations_are_observed (fits : s.config.Fits) (command : String) (context : Table Json)
    (session : Option String) (w : World η σ) :
    let start := s.begin command context session w
    let history := (s.execute command context session w).1.history
    ∀ c ∈ history, c.phase = .observation ∨ c.phase = .decision →
      ∃ b ∈ history, b.phase = .delegation ∧ b.iteration = c.iteration ∧
      ∃ v t summary, s.Passes start.1 start.2 .observation v t ∧
        b.delegations = some t.delegations ∧ c.observations = some summary ∧
        let asked := s.inquiries t.session t.delegations v
        asked.map (·.1) = t.delegations ∧ (∀ q ∈ asked, ∃ u, (s.known q.1 u).1 = q.2) ∧
        (Round asked summary ∨ summary = .empty ∧
          (s.prefill t.session t.delegations v).2.canWait (s.config.observationTimeout * 1000) =
            false) ∧
        (c.phase = .decision → ∃ u p, s.Passes start.1 start.2 .decision u p ∧
          p.observed = summary ∧ c.decision = some (Verdict.of s.config u.engine p).decision ∧
          ((Verdict.of s.config u.engine p).effective.decision = none →
            c.action? = some .complete → summary.total < twoTo 53 →
            (∀ f ∈ summary.findings, f.status = .success) ∧
            ∀ q ∈ asked, q.1.dispatched = true ∧
              ∃ f ∈ summary.findings, q.Answered f ∧ f.status = .success)) := by
  intro start history c member stage
  obtain ⟨empty, new, _, _⟩ := s.begin_blank command context session w
  have same : history = (s.outcome command context session w).run.history :=
    (resultOf_history _).2
  have grounded : s.Grounded start.1 start.2 history c := by
    rw [same] at member ⊢
    exact s.drive_grounded fits empty new c member
  obtain ⟨summary, observations, gathered, decided⟩ := grounded.gathered stage
  obtain ⟨v, t, passed, summed, b, stored, delegation, iteration, delegations⟩ := gathered
  have known := s.inquiries_known t.session t.delegations v
  have round := s.summarize_round v t
  rw [summed] at round
  refine ⟨b, stored, delegation, iteration, v, t, summary, passed, delegations, observations,
    s.inquiries_delegations .., known, round, fun decision => ?_⟩
  obtain ⟨u, p, entered, sees, decision⟩ := decided decision
  refine ⟨u, p, entered, sees, decision, fun free complete small => ?_⟩
  have clean : summary.isClean = true := by
    have action : (Verdict.of s.config u.engine p).decision.action = .complete := by
      rw [State.action?, decision] at complete
      exact Option.some.inj complete
    rw [← sees]
    exact Verdict.clean_of_complete free action
  have gathered : Round (s.inquiries t.session t.delegations v) summary := by
    refine round.resolve_right fun nothing => ?_
    rw [nothing.1] at clean
    cases clean
  refine ⟨gathered.clean small clean, fun q asked => ?_⟩
  obtain ⟨f, found, answers, success⟩ := gathered.succeeded small clean q asked
  exact ⟨s.dispatched_of_success (known q asked) answers success, f, found, answers, success⟩

def paired (accept : Dispatch → String) (status : Dispatch → TaskStatus) : Services Empty Unit :=
  { alone with
    plan := fun _ _ _ => return [.of "a" "first" "x", .of "b" "second" "x"]
    dispatch := fun d => do
      let _ ← Reaction.send (.result { TaskResult.answering d "x" (status d) ⟨0, 0⟩ with
        task := accept d })
      return accept d }

theorem paired_observed :
    alone.config.Fits ∧
      ∃ c ∈ ((paired (·.task) fun _ => .success).execute "go" [] (some "s") (.initial ())).1.history,
        c.phase = .observation ∧ ∃ asked summary, c.observations = some summary ∧
          summary.total = 2 ∧ Round asked summary := by
  let s := paired (·.task) fun _ => .success
  let history := (s.execute "go" [] (some "s") (.initial ())).1.history
  have counted : ((history.find? (·.phase = .observation)).bind (·.observations)).map (·.total) =
      some 2 := by decide +kernel
  obtain ⟨summary, observed, two⟩ := Option.map_eq_some_iff.mp counted
  obtain ⟨c, first, own⟩ := Option.bind_eq_some_iff.mp observed
  have member : c ∈ history := List.mem_of_find?_eq_some first
  have phase : c.phase = .observation :=
    of_decide_eq_true (List.find?_some (p := fun c : State => decide (c.phase = .observation)) first)
  have observed := s.delegations_are_observed alone_fits "go" [] (some "s") (.initial ()) c member
    (.inl phase)
  obtain ⟨_, _, _, _, v, t, same, _, _, observations, rest⟩ := observed
  have round := rest.2.2.1
  obtain rfl : summary = same := Option.some.inj (own.symm.trans observations)
  refine ⟨alone_fits, c, member, phase, s.inquiries t.session t.delegations v, summary, own, two, ?_⟩
  rcases round with round | nothing
  · exact round
  · rw [nothing.1] at two
    cases two

def borrowed : Services Empty Unit :=
  { paired (·.task) (fun d => if d.task = "s-i0-b" then .failed else .success) with
    status := some fun task => .finish (.value (if task = "s-i0-a" then
      some (.record [("status", .str "completed"), ("task_id", .str "s-i0-b")]) else none)) }

def endless : Services Empty Unit :=
  { paired (·.task) (fun _ => .success) with
    config := { alone.config with maxIterations := 1, observationTimeout := twoTo 63 } }

/-- Two delegations come to one observation where the tracker lends the id of one task to the
other, and the session is complete although the other task has failed; so they do where both
are accepted under one id, and to none where the wait cannot be told. -/
theorem borrowed_task_unobserved :
    let counts (s : Services Empty Unit) : List (Phase × Option Nat × Option Nat) :=
      (s.outcome "go" [] (some "s") (.initial ())).run.history.map fun c =>
        (c.phase, c.delegations.map (·.length), c.observations.map (·.total))
    let e := borrowed.outcome "go" [] (some "s") (.initial ())
    counts borrowed = [(.awareness, none, none), (.planning, none, none),
      (.delegation, some 2, none), (.observation, none, some 1), (.decision, none, some 1),
      (.complete, none, some 1)] ∧
    (Table.get? e.world.bus.results "s-i0-b").map (·.status) = some .failed ∧
    e.run.history.getLast?.bind (fun c => c.decision.bind (·.reason)) =
      some "All delegated tasks succeeded" ∧
    counts (paired (fun _ => "t") fun _ => .success) = counts borrowed ∧
    counts endless = [(.awareness, none, none), (.planning, none, none),
      (.delegation, some 2, none), (.observation, none, some 0), (.decision, none, some 0)] := by
  decide +kernel

end Services
end Orchestration
