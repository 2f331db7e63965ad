import Orchestration.Proofs.History
import Orchestration.Proofs.Phases

/-! The rule for runs. What holds where the loop begins, and is kept from each phase to the
next, holds where the run ends; and every run ends, since each phase leaves fewer to come. -/
namespace Orchestration

variable {η σ : Type}

namespace Station

/-- One thing holds before a phase, another at the end. -/
def Holds (before : Phase → World η σ → Run → Prop) (after : Standing η σ → Prop) :
    Station η σ → Prop
  | enter phase w r => before phase w r
  | ended e => after e

end Station

namespace Services

variable (s : Services η σ)

theorem step_onward {phase next : Phase} (follows : phase.following? = some next)
    (w : World η σ) (r : Run) :
    ∃ d : Draft η σ, d.Continues w r phase ∧ d.state.isMarked = false ∧
      s.step phase w r = (s.persist d).goOn (.enter next) := by
  cases phase with
  | awareness =>
    cases follows
    exact ⟨_, s.awareness_continues w r, rfl, rfl⟩
  | planning =>
    cases follows
    exact ⟨_, s.planning_continues w r, rfl, rfl⟩
  | delegation =>
    cases follows
    exact ⟨_, s.delegation_continues w r, rfl, rfl⟩
  | observation =>
    cases follows
    exact ⟨_, s.observation_continues w r, rfl, rfl⟩
  | decision => cases follows
  | complete => cases follows

theorem persist_goOn_holds {before : Phase → World η σ → Run → Prop}
    {after : Standing η σ → Prop} {d : Draft η σ} {f : World η σ → Run → Station η σ}
    (stored : ∀ st, d.world.storage.add s.backend (.state d.state) = .ok st →
      (f (d.world.written (.state d.state) st) (d.run.stored d.state)).Holds before after)
    (refused : ∀ cause, (s.keep (.state d.state) d.world).failure? = some cause →
      after ⟨d.world.note (.refused (.state d.state) cause), d.run, some cause⟩) :
    ((s.persist d).goOn f).Holds before after := by
  obtain ⟨st, added, eq⟩ | ⟨cause, failed, eq⟩ := s.persist_cases d
  · rw [eq]
    exact stored st added
  · rw [eq]
    exact refused cause failed

theorem step_decision_holds {before : Phase → World η σ → Run → Prop}
    {after : Standing η σ → Prop} {w : World η σ} {r : Run} {v : Verdict}
    (taken : Verdict.of s.config w.engine r = v) {log : DecisionLog}
    (mirrored : DecisionLog.ofState? (s.decision v w r).state = some log)
    (logged : ∀ st, (s.decision v w r).world.storage.add s.backend (.log log) = .ok st →
      ((s.persist { s.decision v w r with
        world := (s.decision v w r).world.written (.log log) st }).goOn (s.settle v)).Holds
        before after)
    (refused : ∀ cause, (s.keep (.log log) (s.decision v w r).world).failure? = some cause →
      after ⟨(s.decision v w r).world.note (.refused (.log log) cause), (s.decision v w r).run,
        some cause⟩) :
    (s.step .decision w r).Holds before after := by
  have step : s.step .decision w r =
      (s.persistDecision (s.decision v w r)).goOn (s.settle v) := by
    subst taken
    rfl
  rw [step]
  obtain ⟨st, added, eq⟩ | ⟨cause, failed, eq⟩ := s.persistDecision_cases _ mirrored
  · rw [eq]
    exact logged st added
  · rw [eq]
    exact refused cause failed

/-- Where a stored decision leads to, by its action and the iterations that are left. -/
theorem settle_cases (fits : s.config.Fits) (v : Verdict) (w : World η σ) (r : Run) :
    (v.decision.action.loops = true ∧ s.config.maxIterations ≤ r.iteration + 1 ∧
      s.settle v w r = .ended (.on w r)) ∨
    (v.decision.action = .retry ∧ r.iteration + 1 < s.config.maxIterations ∧
      s.settle v w r = .enter .delegation w { r with iteration := r.iteration + 1 }) ∨
    (v.decision.action = .extendPlan ∧ r.iteration + 1 < s.config.maxIterations ∧
      s.settle v w r = .enter .planning w { r with iteration := r.iteration + 1 }) ∨
    (v.decision.action = .complete ∧
      s.settle v w r = .ended (s.persist (completion v.decision w r))) ∨
    ((v.decision.action = .escalate ∨ v.decision.action = .unrecognized) ∧
      s.settle v w r = .ended (.on w r)) := by
  have inWidth (more : r.iteration + 1 < s.config.maxIterations) :
      nextIteration r.iteration = .value (r.iteration + 1) :=
    if_pos (Nat.lt_trans more fits.maxIterations)
  cases action : v.decision.action with
  | complete =>
    refine .inr (.inr (.inr (.inl ⟨rfl, ?_⟩)))
    simp [settle, Verdict.exhausts, Decision.transition, action, Action.loops]
  | retry =>
    by_cases last : s.config.maxIterations ≤ r.iteration + 1
    · exact .inl ⟨rfl, last, by simp [settle, Verdict.exhausts, action, Action.loops, last]⟩
    · refine .inr (.inl ⟨rfl, by omega, ?_⟩)
      simp [settle, Verdict.exhausts, Decision.transition, Answer.map, action, last,
        inWidth (by omega)]
  | extendPlan =>
    by_cases last : s.config.maxIterations ≤ r.iteration + 1
    · exact .inl ⟨rfl, last, by simp [settle, Verdict.exhausts, action, Action.loops, last]⟩
    · refine .inr (.inr (.inl ⟨rfl, by omega, ?_⟩))
      simp [settle, Verdict.exhausts, Decision.transition, Answer.map, action, last,
        inWidth (by omega)]
  | escalate =>
    refine .inr (.inr (.inr (.inr ⟨.inl rfl, ?_⟩)))
    simp [settle, Verdict.exhausts, Decision.transition, action, Action.loops]
  | unrecognized =>
    refine .inr (.inr (.inr (.inr ⟨.inr rfl, ?_⟩)))
    simp [settle, Verdict.exhausts, Decision.transition, action, Action.loops]

theorem advance_holds {before : Phase → World η σ → Run → Prop} {after : Standing η σ → Prop}
    (kept : ∀ phase w r, before phase w r → (s.step phase w r).Holds before after)
    (n : Nat) (st : Station η σ) (first : st.Holds before after) :
    (s.advance n st).Holds before after := by
  induction n generalizing st with
  | zero => exact first
  | succ n ih =>
    cases st with
    | enter phase w r => exact ih _ (kept phase w r first)
    | ended e => exact first

theorem advance_of_le {n m : Nat} {st : Station η σ} {e : Standing η σ} (le : n ≤ m)
    (ended : s.advance n st = .ended e) : s.advance m st = .ended e := by
  induction n generalizing m st with
  | zero =>
    cases st with
    | enter phase w r => cases ended
    | ended => cases m <;> exact ended
  | succ n ih =>
    cases st with
    | enter phase w r =>
      obtain ⟨m, rfl⟩ := Nat.exists_eq_succ_of_ne_zero (by omega : m ≠ 0)
      change s.advance m (s.step phase w r) = .ended e
      exact ih (by omega) ended
    | ended => cases m <;> exact ended

def phasesLeft (phase : Phase) (iteration : Nat) : Nat :=
  4 * (s.config.maxIterations + 1 - iteration) + 1 - phase.ordinal

theorem step_phasesLeft (fits : s.config.Fits) {phase : Phase} {w : World η σ} {r : Run}
    (live : phase ≠ .complete) (within : r.iteration ≤ s.config.maxIterations) :
    (s.step phase w r).Holds
      (fun next _ t => next ≠ .complete ∧ t.iteration ≤ s.config.maxIterations ∧
        s.phasesLeft next t.iteration < s.phasesLeft phase r.iteration)
      fun _ => True := by
  cases follows : phase.following? with
  | some next =>
    obtain ⟨d, drafted, _, eq⟩ := s.step_onward follows w r
    rw [eq]
    refine s.persist_goOn_holds (fun st _ => ?_) fun _ _ => trivial
    have same : (d.run.stored d.state).iteration = r.iteration := drafted.iteration
    refine ⟨?_, by rw [same]; exact within, ?_⟩
    · cases phase <;> cases follows <;> simp
    · rw [same]
      unfold phasesLeft
      cases phase <;> cases follows <;> simp only [Phase.ordinal] <;> omega
  | none =>
    obtain rfl : phase = .decision := by cases phase <;> simp_all [Phase.following?]
    refine s.step_decision_holds rfl rfl (fun st _ => ?_) fun _ _ => trivial
    refine s.persist_goOn_holds (fun st _ => ?_) fun _ _ => trivial
    obtain ⟨_, _, eq⟩ | ⟨_, more, eq⟩ | ⟨_, more, eq⟩ | ⟨_, eq⟩ | ⟨_, eq⟩ :=
      s.settle_cases fits _ _ _ <;> rw [eq]
    · trivial
    · change r.iteration + 1 < s.config.maxIterations at more
      refine ⟨by simp, Nat.le_of_lt more, ?_⟩
      change s.phasesLeft .delegation (r.iteration + 1) < s.phasesLeft .decision r.iteration
      simp only [phasesLeft, Phase.ordinal]
      omega
    · change r.iteration + 1 < s.config.maxIterations at more
      refine ⟨by simp, Nat.le_of_lt more, ?_⟩
      change s.phasesLeft .planning (r.iteration + 1) < s.phasesLeft .decision r.iteration
      simp only [phasesLeft, Phase.ordinal]
      omega
    · trivial
    · trivial

theorem advance_ends (fits : s.config.Fits) {n : Nat} {phase : Phase} {w : World η σ} {r : Run}
    (live : phase ≠ .complete) (within : r.iteration ≤ s.config.maxIterations)
    (enough : s.phasesLeft phase r.iteration ≤ n) :
    ∃ e, s.advance n (.enter phase w r) = .ended e := by
  induction n generalizing phase w r with
  | zero =>
    have more : phase.ordinal ≤ 4 := by cases phase <;> simp_all [Phase.ordinal]
    unfold phasesLeft at enough
    omega
  | succ n ih =>
    have fewer := s.step_phasesLeft fits (w := w) live within
    unfold advance
    cases reached : s.step phase w r with
    | ended e => exact ⟨e, by cases n <;> rfl⟩
    | enter next v t =>
      rw [reached] at fewer
      obtain ⟨stillOpen, inside, less⟩ := fewer
      exact ih stillOpen inside (by omega)

theorem drive_ends (fits : s.config.Fits) (w : World η σ) {r : Run} (new : r.iteration = 0) :
    s.advance s.config.phaseLimit (.enter .awareness w r) = .ended (s.drive w r) := by
  have enough : s.phasesLeft .awareness r.iteration ≤ s.config.phaseLimit := by
    simp only [phasesLeft, LoopConfig.phaseLimit, Phase.ordinal]
    omega
  obtain ⟨e, reached⟩ := s.advance_ends fits (w := w) (by simp) (by omega) enough
  unfold drive
  rw [reached]
  rfl

/-- What holds of a new run and is kept by each phase, holds of it where it ends. -/
theorem drive_holds (fits : s.config.Fits) {before : Phase → World η σ → Run → Prop}
    {after : Standing η σ → Prop} {w : World η σ} {r : Run} (new : r.iteration = 0)
    (first : before .awareness w r)
    (kept : ∀ phase w r, before phase w r → (s.step phase w r).Holds before after) :
    after (s.drive w r) := by
  have all := s.advance_holds kept s.config.phaseLimit (.enter .awareness w r) first
  rw [s.drive_ends fits w new] at all
  exact all

theorem advance_succ (n : Nat) (st : Station η σ) :
    s.advance (n + 1) st = match s.advance n st with
      | .enter phase w r => s.step phase w r
      | .ended e => .ended e := by
  induction n generalizing st with
  | zero => cases st <;> rfl
  | succ n ih =>
    cases st with
    | enter phase w r => exact ih (s.step phase w r)
    | ended e => rfl

def Passes (w : World η σ) (r : Run) (phase : Phase) (v : World η σ) (t : Run) : Prop :=
  ∃ n, s.advance n (.enter .awareness w r) = .enter phase v t

theorem drive_holds_along (fits : s.config.Fits) {before : Phase → World η σ → Run → Prop}
    {after : Standing η σ → Prop} {w : World η σ} {r : Run} (new : r.iteration = 0)
    (first : before .awareness w r)
    (kept : ∀ phase v t, s.Passes w r phase v t → before phase v t →
      (s.step phase v t).Holds before after) : after (s.drive w r) := by
  have rule := @drive_holds η σ s fits (fun phase v t => s.Passes w r phase v t ∧ before phase v t)
    after w r
  refine rule new ⟨⟨0, rfl⟩, first⟩ fun phase v t ⟨⟨n, reached⟩, held⟩ => ?_
  have on : s.advance (n + 1) (.enter .awareness w r) = s.step phase v t := by
    rw [advance_succ, reached]
  have holds := kept phase v t ⟨n, reached⟩ held
  cases next : s.step phase v t with
  | enter phase' v' t' =>
    rw [next] at holds on
    exact ⟨⟨n + 1, on⟩, holds⟩
  | ended e =>
    rw [next] at holds
    exact holds

theorem advance_add (n m : Nat) (st : Station η σ) :
    s.advance (n + m) st = s.advance m (s.advance n st) := by
  induction n generalizing st with
  | zero =>
    rw [Nat.zero_add]
    cases st <;> rfl
  | succ n ih =>
    rw [Nat.add_right_comm]
    cases st with
    | enter phase w r => exact ih _
    | ended e => cases m <;> rfl

/-- What is so before a phase that the loop comes to, and is kept from there on, comes to hold
where it ends. -/
theorem Passes.drive_holds {s : Services η σ} {w v : World η σ} {r t : Run} {phase : Phase}
    (passed : s.Passes w r phase v t) (fits : s.config.Fits) (new : r.iteration = 0)
    {before : Phase → World η σ → Run → Prop} {after : Standing η σ → Prop}
    (here : before phase v t)
    (kept : ∀ phase w r, before phase w r → (s.step phase w r).Holds before after) :
    after (s.drive w r) := by
  obtain ⟨n, reached⟩ := passed
  have ended := s.advance_of_le (Nat.le_add_left _ n) (s.drive_ends fits w new)
  rw [s.advance_add, reached] at ended
  have holds := s.advance_holds kept s.config.phaseLimit (.enter phase v t) here
  rw [ended] at holds
  exact holds

end Services

/-- What is true of a world and of the session of a run in it, and stays so while a phase
works, writes or is refused. -/
structure Services.Keeps (s : Services η σ) (P : World η σ → String → Prop) : Prop where
  worked : ∀ v w session, World.Worked v w → P v session → P w session
  written : ∀ rec st w session, w.storage.add s.backend rec = .ok st → P w session →
    P (w.written rec st) session
  refused : ∀ rec cause w session, (s.keep rec w).failure? = some cause → P w session →
    P (w.note (.refused rec cause)) session

namespace Services.Keeps

variable {s : Services η σ} {P : World η σ → String → Prop}

abbrev Kept (P : World η σ → String → Prop) (st : Station η σ) : Prop :=
  st.Holds (fun _ w r => P w r.session) fun e => P e.world e.run.session

theorem persist (kept : s.Keeps P) {d : Draft η σ} (first : P d.world d.run.session) :
    P (s.persist d).world (s.persist d).run.session := by
  obtain ⟨st, added, eq⟩ | ⟨cause, failed, eq⟩ := s.persist_cases d <;> rw [eq]
  · exact kept.written _ st _ _ added first
  · exact kept.refused _ cause _ _ failed first

theorem settle (kept : s.Keeps P) (fits : s.config.Fits) (v : Verdict) {w : World η σ} {r : Run}
    (first : P w r.session) : Kept P (s.settle v w r) := by
  obtain ⟨_, _, eq⟩ | ⟨_, _, eq⟩ | ⟨_, _, eq⟩ | ⟨_, eq⟩ | ⟨_, eq⟩ := s.settle_cases fits v w r <;>
    rw [eq]
  · exact first
  · exact first
  · exact first
  · exact kept.persist (kept.worked w _ _ (completion_continues _ w r).worked first)
  · exact first

theorem step (kept : s.Keeps P) (fits : s.config.Fits) {phase : Phase} {w : World η σ} {r : Run}
    (first : P w r.session) : Kept P (s.step phase w r) := by
  have ready {phase : Phase} {d : Draft η σ} (drafted : d.Continues w r phase) :
      P d.world d.run.session := by
    rw [drafted.session]
    exact kept.worked w d.world _ drafted.worked first
  cases follows : phase.following? with
  | some next =>
    obtain ⟨d, drafted, _, eq⟩ := s.step_onward follows w r
    rw [eq]
    exact s.persist_goOn_holds (fun st added => kept.written _ st _ _ added (ready drafted))
      fun cause failed => kept.refused _ cause _ _ failed (ready drafted)
  | none =>
    by_cases complete : phase = .complete
    · subst complete
      exact first
    · obtain rfl : phase = .decision := by cases phase <;> simp_all [Phase.following?]
      have drafted := s.decision_continues (.of s.config w.engine r) w r
      refine s.step_decision_holds rfl rfl (fun st added => ?_)
        fun cause failed => kept.refused _ cause _ _ failed (ready drafted)
      have logged := kept.written _ st _ _ added (ready drafted)
      exact s.persist_goOn_holds
        (fun st added => kept.settle fits _ (kept.written _ st _ _ added logged))
        fun cause failed => kept.refused _ cause _ _ failed logged

theorem drive (kept : s.Keeps P) (fits : s.config.Fits) {w : World η σ} {r : Run}
    (new : r.iteration = 0) (first : P w r.session) :
    P (s.drive w r).world (s.drive w r).run.session := by
  have rule := @Services.drive_holds η σ s fits (fun _ w r => P w r.session)
    (fun e => P e.world e.run.session) w r
  exact rule new first fun _ _ _ held => kept.step fits held

theorem passes (kept : s.Keeps P) (fits : s.config.Fits) {w v : World η σ} {r t : Run}
    {phase : Phase} (first : P w r.session) (passed : s.Passes w r phase v t) :
    P v t.session := by
  obtain ⟨n, reached⟩ := passed
  have all := s.advance_holds (fun _ _ _ held => kept.step fits held) n
    (.enter .awareness w r) first
  rw [reached] at all
  exact all

end Services.Keeps

theorem Services.outcome_session (s : Services η σ) (fits : s.config.Fits) (command : String)
    (context : Table Json) (session : Option String) (w : World η σ) :
    (s.outcome command context session w).run.session =
      (s.begin command context session w).2.session := by
  have kept : s.Keeps fun _ name => name = (s.begin command context session w).2.session :=
    ⟨fun _ _ _ _ same => same, fun _ _ _ _ _ same => same, fun _ _ _ _ _ same => same⟩
  have new : (s.begin command context session w).2.iteration = 0 := by cases session <;> rfl
  exact kept.drive fits new rfl

end Orchestration
