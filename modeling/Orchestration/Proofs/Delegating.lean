import Orchestration.Proofs.Conduct
import Orchestration.Proofs.Cycles

/-! What is handed on, and when. A delegation carries the plan of the latest planning, which
was accepted; it hands on one task for each step, in order. The ids of the tasks tell the
iteration and the step, so no two tasks of a run go by one id. -/
namespace Orchestration

variable {η σ : Type}

/-- The iteration can be read off the id of a task: it is what stands between the mark after the
session and the next one. -/
theorem taskId_iteration {session : String} {i j : Nat} {x y : String}
    (same : taskId session i x = taskId session j y) : i = j := by
  have chars := congrArg String.toList same
  rw [taskId_toList, taskId_toList] at chars
  have stages : Plan.stageId i x = Plan.stageId j y := by
    apply String.toList_inj.mp
    rw [Plan.stageId_toList, Plan.stageId_toList]
    simpa using chars
  exact Plan.stageId_position stages

def plannedIn (history : List State) : Option (List PlanStep) :=
  (history.reverse.find? (·.phase = .planning)).bind (·.plan)

theorem plannedIn_concat (history : List State) (c : State) :
    plannedIn (history ++ [c]) = if c.phase = .planning then c.plan else plannedIn history := by
  unfold plannedIn
  rw [List.reverse_append, List.reverse_singleton, List.singleton_append, List.find?_cons]
  by_cases planning : c.phase = .planning <;> simp [planning]

namespace Services

variable {s : Services η σ}

/-- Whatever the planner answers, the plan that is made of it can be delegated. -/
theorem planFrom_accepted (r : Run) (answer : Except Fault (List PlanStep)) :
    Plan.accept (planFrom r answer) = .ok (planFrom r answer) := by
  unfold planFrom
  split
  · rename_i steps accepted
    cases answer with
    | error f => cases accepted
    | ok given =>
      change Plan.accept given = .ok steps at accepted
      obtain ⟨rfl, _⟩ := Plan.accept_eq_ok accepted
      exact accepted
  · exact (Plan.single_inTurn r.command defaultDelegate).accepted (by simp [Plan.single])

variable {w v : World η σ} {r t : Run} {phase : Phase}

def Planned (phase : Phase) (t : Run) : Prop :=
  Phase.planning.ordinal < phase.ordinal →
    plannedIn t.history = some t.plan ∧ Plan.accept t.plan = .ok t.plan

theorem Planned.stored {c : State} (planned : Planned phase t)
    (later : Phase.planning.ordinal < phase.ordinal) (other : c.phase ≠ .planning) {q : Run}
    (history : q.history = t.history) (plan : q.plan = t.plan) {next : Phase} :
    Planned next (q.stored c) := by
  intro _
  obtain ⟨latest, accepted⟩ := planned later
  refine ⟨?_, by rw [show (q.stored c).plan = t.plan from plan]; exact accepted⟩
  change plannedIn (q.history ++ [c]) = some q.plan
  rw [plannedIn_concat, if_neg other, history, plan]
  exact latest

theorem Passes.planned (passed : s.Passes w r phase v t) (fits : s.config.Fits) :
    Planned phase t := by
  have first : Planned .awareness r := fun less => absurd less (by decide)
  refine passed.induction (P := fun phase _ t => Planned phase t) first fun phase u q _ planned => ?_
  cases phase with
  | awareness =>
    refine s.step_rule rfl (fun _ _ _ _ _ _ _ _ => trivial) (fun _ _ _ follows => ?_)
      fun _ _ other => by cases other
    cases follows
    exact fun less => absurd less (by decide)
  | planning =>
    refine s.step_rule rfl (fun _ _ _ _ _ _ _ _ => trivial) (fun _ _ _ _ _ => ⟨?_, ?_⟩)
      fun _ _ other => by cases other
    · exact (plannedIn_concat _ _).trans (if_pos rfl)
    · exact planFrom_accepted _ _
  | delegation =>
    refine s.step_rule rfl (fun _ _ _ _ _ _ _ _ => trivial) (fun _ _ _ _ => ?_)
      fun _ _ other => by cases other
    exact planned.stored (by decide) (by decide : Phase.delegation ≠ .planning) rfl rfl
  | observation =>
    refine s.step_rule rfl (fun _ _ _ _ _ _ _ _ => trivial) (fun _ _ _ _ => ?_)
      fun _ _ other => by cases other
    exact planned.stored (by decide) (by decide : Phase.observation ≠ .planning) rfl rfl
  | decision =>
    refine s.step_rule rfl (fun _ _ _ _ _ _ _ _ => trivial) (fun _ _ _ follows => by cases follows)
      fun _ _ _ => ?_
    have stored : Planned .delegation
        ((s.decision (.of s.config u.engine q) u q).run.stored
          (s.decision (.of s.config u.engine q) u q).state) :=
      planned.stored (by decide) (by decide : Phase.decision ≠ .planning) rfl rfl
    exact s.settle_rule fits _ trivial (fun _ _ => stored)
      (fun _ _ less => absurd less (by decide)) (fun _ _ _ => trivial) fun _ _ => trivial
  | complete => trivial

/-! ### Rounds -/

variable (s)

/-- The runs as they were before the delegations so far, from which all that was handed on
comes, and all the delegations that were stored. -/
structure Rounds (w : World η σ) (r : Run) (rounds : List Run) (history : List State)
    (handed : List Dispatch) : Prop where
  handed : handed = rounds.flatMap fun q => q.plan.map (q.dispatchOf s.config.taskTimeout)
  increasing : rounds.Pairwise (·.iteration < ·.iteration)
  passed : ∀ q ∈ rounds, ∃ v, s.Passes w r .delegation v q
  stored : ∀ c ∈ history, c.phase = .delegation →
    ∃ v, ∃ q ∈ rounds, (s.delegation v q).state = c

def delegatedBelow (phase : Phase) (iteration : Nat) : Nat :=
  if Phase.delegation.ordinal < phase.ordinal then iteration + 1 else iteration

variable {s} {rounds : List Run} {history : List State} {handed : List Dispatch}

theorem Rounds.append (told : s.Rounds w r rounds history handed) {c : State}
    (own : c.phase = .delegation → ∃ v, ∃ q ∈ rounds, (s.delegation v q).state = c) :
    s.Rounds w r rounds (history ++ [c]) handed where
  handed := told.handed
  increasing := told.increasing
  passed := told.passed
  stored := by simpa [or_imp, forall_and] using ⟨told.stored, own⟩

/-- A phase adds a round if it delegates. -/
theorem Rounds.draft (told : s.Rounds w r rounds t.history v.dispatches)
    (within : ∀ q ∈ rounds, q.iteration < delegatedBelow phase t.iteration)
    (passed : s.Passes w r phase v t) {d : Draft η σ} (drafted : s.draft? phase v t = some d) :
    ∃ more, s.Rounds w r more t.history d.world.dispatches ∧
      s.Rounds w r more (t.history ++ [d.state]) d.world.dispatches ∧
      ∀ q ∈ more, q.iteration <
        if Phase.delegation.ordinal ≤ phase.ordinal then t.iteration + 1 else t.iteration := by
  have handed := draft_dispatches drafted
  by_cases delegates : phase = .delegation
  · subst delegates
    rw [if_pos rfl] at handed
    have before : ∀ q ∈ rounds, q.iteration < t.iteration := within
    have all : s.Rounds w r (rounds ++ [t]) t.history d.world.dispatches := by
      refine ⟨?_, ?_, ?_, ?_⟩
      · rw [handed, told.handed, List.flatMap_append, List.flatMap_singleton]
      · exact List.pairwise_append.mpr ⟨told.increasing, List.pairwise_singleton _ _,
          fun q member last same => by rw [List.mem_singleton.mp same]; exact before q member⟩
      · simpa [or_imp, forall_and] using ⟨told.passed, ⟨v, passed⟩⟩
      · intro c member phase
        obtain ⟨u, q, inside, same⟩ := told.stored c member phase
        exact ⟨u, q, List.mem_append_left _ inside, same⟩
    cases drafted
    refine ⟨rounds ++ [t], all, all.append fun _ => ⟨v, t, by simp, rfl⟩, ?_⟩
    rw [if_pos (by decide)]
    intro q member
    rcases List.mem_append.mp member with earlier | last
    · have := before q earlier
      omega
    · rw [List.mem_singleton.mp last]
      exact Nat.lt_succ_self _
  · rw [if_neg delegates, List.append_nil] at handed
    rw [handed]
    refine ⟨rounds, told, told.append fun phase => ?_, fun q member => ?_⟩
    · exact absurd ((draft_phase drafted).symm.trans phase) delegates
    · have least := within q member
      unfold delegatedBelow at least
      cases phase <;> first | exact absurd rfl delegates | exact least

theorem step_rounds (fits : s.config.Fits) (passed : s.Passes w r phase v t)
    (before : ∃ rounds, s.Rounds w r rounds t.history v.dispatches ∧
      ∀ q ∈ rounds, q.iteration < delegatedBelow phase t.iteration) :
    (s.step phase v t).Holds
      (fun phase v t => ∃ rounds, s.Rounds w r rounds t.history v.dispatches ∧
        ∀ q ∈ rounds, q.iteration < delegatedBelow phase t.iteration)
      fun e => ∃ rounds, s.Rounds w r rounds e.run.history e.world.dispatches := by
  obtain ⟨rounds, told, within⟩ := before
  cases drafted : s.draft? phase v t with
  | none =>
    cases phase <;> cases drafted
    exact ⟨rounds, told⟩
  | some d =>
    obtain ⟨more, unstored, stored, least⟩ := told.draft within passed drafted
    obtain ⟨history, iteration⟩ : d.run.history = t.history ∧ d.run.iteration = t.iteration :=
      ⟨(draft_continues drafted).history, (draft_continues drafted).iteration⟩
    refine s.step_rule drafted (fun _ rec _ u cause _ wrote _ => ?_)
      (fun u next wrote follows => ?_) fun u wrote decision => ?_
    · rw [← wrote.same.2, ← history] at unstored
      rw [← World.dispatches_refused rec cause u] at unstored
      exact ⟨more, unstored⟩
    · rw [← wrote.same.2, ← history] at stored
      refine ⟨more, stored, fun q member => ?_⟩
      have below := least q member
      change q.iteration < delegatedBelow next d.run.iteration
      rw [iteration]
      unfold delegatedBelow
      cases phase <;> cases follows <;> exact below
    · rw [← wrote.same.2, ← history] at stored
      subst decision
      have next (q : Run) (member : q ∈ more) : q.iteration < t.iteration + 1 := least q member
      have timed : u.time.2.dispatches = u.dispatches := rfl
      refine s.settle_rule fits _ ⟨more, stored⟩ (fun _ _ => ⟨more, stored, ?_⟩)
        (fun _ _ => ⟨more, stored, ?_⟩) (fun _ st _ => ⟨more, ?_⟩) fun cause _ => ⟨more, ?_⟩
      · change ∀ q ∈ more, q.iteration < d.run.iteration + 1
        rw [iteration]
        exact next
      · change ∀ q ∈ more, q.iteration < d.run.iteration + 1
        rw [iteration]
        exact next
      · change s.Rounds w r more _ (World.written _ st u.time.2).dispatches
        rw [World.dispatches_written]
        exact stored.append fun delegation => by cases delegation
      · change s.Rounds w r more _ (u.time.2.note _).dispatches
        rw [World.dispatches_refused]
        exact stored

theorem drive_rounds (fits : s.config.Fits) (empty : r.history = []) (new : r.iteration = 0)
    (blank : w.journal = []) :
    ∃ rounds, s.Rounds w r rounds (s.drive w r).run.history (s.drive w r).world.dispatches := by
  have rule := @drive_holds_along η σ s fits
    (fun phase v t => ∃ rounds, s.Rounds w r rounds t.history v.dispatches ∧
      ∀ q ∈ rounds, q.iteration < delegatedBelow phase t.iteration)
    (fun e => ∃ rounds, s.Rounds w r rounds e.run.history e.world.dispatches) w r
  refine rule new ⟨[], ⟨?_, .nil, by simp, by simp [empty]⟩, by simp⟩ fun _ _ _ => step_rounds fits
  unfold World.dispatches
  rw [blank]
  rfl

theorem Rounds.of_iteration (told : s.Rounds w r rounds history handed) {q : Run}
    (member : q ∈ rounds) : handed.filter (·.iteration = q.iteration) =
      q.plan.map (q.dispatchOf s.config.taskTimeout) := by
  have own (p : Run) : (p.plan.map (p.dispatchOf s.config.taskTimeout)).filter
      (·.iteration = q.iteration) =
        if p.iteration = q.iteration then p.plan.map (p.dispatchOf s.config.taskTimeout) else [] := by
    split
    · rename_i same
      refine List.filter_eq_self.mpr fun d inside => ?_
      obtain ⟨step, _, rfl⟩ := List.mem_map.mp inside
      exact decide_eq_true same
    · rename_i other
      refine List.filter_eq_nil_iff.mpr fun d inside => ?_
      obtain ⟨step, _, rfl⟩ := List.mem_map.mp inside
      exact fun same => other (of_decide_eq_true same)
  rw [told.handed, List.filter_flatMap]
  simp only [own]
  have increasing := told.increasing
  clear told
  induction rounds with
  | nil => cases member
  | cons p rest ih =>
    obtain ⟨first, later⟩ := List.pairwise_cons.mp increasing
    rw [List.flatMap_cons]
    rcases List.mem_cons.mp member with rfl | inside
    · have none : rest.flatMap (fun p => if p.iteration = q.iteration then
          p.plan.map (p.dispatchOf s.config.taskTimeout) else []) = [] := by
        refine List.flatMap_eq_nil_iff.mpr fun p after => if_neg ?_
        have := first p after
        omega
      rw [none, if_pos rfl, List.append_nil]
    · have less := first q inside
      rw [if_neg (by omega), List.nil_append]
      exact ih inside later

/-- The ids that a run hands its tasks on under are all different. -/
theorem Rounds.tasks_nodup (told : s.Rounds w r rounds history handed) (fits : s.config.Fits) :
    (handed.map (·.task)).Nodup := by
  have session (q : Run) (member : q ∈ rounds) : q.session = r.session := by
    obtain ⟨v, passed⟩ := told.passed q member
    exact passed.session_eq fits
  have tasks : handed.map (·.task) =
      rounds.flatMap fun q => (Plan.ids q.plan).map (taskId q.session q.iteration) := by
    rw [told.handed, List.map_flatMap]
    congr 1
    funext q
    rw [List.map_map, Plan.ids, List.map_map]
    rfl
  rw [tasks, List.nodup_flatMap]
  constructor
  · intro q member
    obtain ⟨v, passed⟩ := told.passed q member
    obtain ⟨_, accepted⟩ := passed.planned fits (by decide)
    have sound := Plan.sound_of_validate (Plan.accept_eq_ok accepted).2.2
    exact sound.distinct.map (taskId_injective _ _)
  · refine told.increasing.imp_of_mem fun {p q} first second less => ?_
    intro task here there
    obtain ⟨x, _, rfl⟩ := List.mem_map.mp here
    obtain ⟨y, _, same⟩ := List.mem_map.mp there
    rw [session p first, session q second] at same
    have := taskId_iteration same
    omega

/-- What a dispatch is said to depend on are other tasks that were handed on in its iteration. -/
theorem Rounds.dependencies (told : s.Rounds w r rounds history handed) (fits : s.config.Fits)
    {d : Dispatch} (member : d ∈ handed) :
    ∃ tasks, Table.get? d.context "dependencies" = some (Json.strings tasks) ∧
      ∀ task ∈ tasks, ∃ other ∈ handed, other.iteration = d.iteration ∧ other.task = task ∧
        other.task ≠ d.task := by
  have every := told.handed
  rw [every, List.mem_flatMap] at member
  obtain ⟨q, inside, made⟩ := member
  obtain ⟨step, inPlan, rfl⟩ := List.mem_map.mp made
  obtain ⟨v, passed⟩ := told.passed q inside
  obtain ⟨_, accepted⟩ := passed.planned fits (by decide)
  have sound := Plan.sound_of_validate (Plan.accept_eq_ok accepted).2.2
  refine ⟨step.dependencies.map q.taskOf, Table.get?_put_self .., fun task depends => ?_⟩
  obtain ⟨id, relies, rfl⟩ := List.mem_map.mp depends
  obtain ⟨other, known, rfl⟩ := List.mem_map.mp (sound.known step inPlan id relies)
  refine ⟨q.dispatchOf s.config.taskTimeout other, ?_, rfl, rfl, fun same => ?_⟩
  · rw [every]
    exact List.mem_flatMap.mpr ⟨q, inside, List.mem_map_of_mem known⟩
  · have equal : other.id = step.id := taskId_injective _ _ same
    rw [equal] at relies
    exact sound.irreflexive inPlan relies

variable (s)

/-- A delegation records its steps one by one. -/
theorem delegateAll_steps (q : Run) (steps : List PlanStep) (u : World η σ) :
    (s.delegateAll q steps u).1.map (fun d => (d.step, d.delegate, d.objective)) =
      steps.map fun step => (step.id, step.delegate, step.objective) := by
  induction steps generalizing u with
  | nil => rfl
  | cons step rest ih =>
    have one (answer : Except Fault String) :
        ((delegationOf q step answer).step, (delegationOf q step answer).delegate,
          (delegationOf q step answer).objective) = (step.id, step.delegate, step.objective) := by
      cases answer <;> rfl
    unfold delegateAll
    dsimp only
    rw [List.map_cons, List.map_cons, one, ih]

end Services
end Orchestration
