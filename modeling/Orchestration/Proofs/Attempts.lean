import Mathlib.Algebra.Order.Floor.Div
import Orchestration.Proofs.Attendance
import Orchestration.Proofs.Cycles
import Orchestration.Proofs.Execution
import Orchestration.Proofs.Round

/-! How often a failing executor is tried again. Each round of a plan takes as many attempts as
it has steps, and is clean once the failures have run out before it began; until then the loop
goes round again, whether by another try or by another plan. So the number of the failures, the
length of the plan and the iterations allowed determine how a run ends. -/
namespace Orchestration

theorem Answers.succeed_iff {failFirst attempts : Nat} {tasks : List String}
    {results : Table TaskResult} {answers : List TaskResult}
    (own : Answers failFirst attempts tasks results answers) (some : tasks ≠ []) :
    (∀ r ∈ answers, r.status = .success) ↔ failFirst ≤ attempts := by
  have succeeds (attempt : Nat) :
      Loopback.status failFirst attempt = .success ↔ failFirst < attempt := by
    unfold Loopback.status
    by_cases failed : attempt ≤ failFirst
    · simp [failed]
    · simp [failed, Nat.lt_of_not_le failed]
  have count : 0 < tasks.length := List.length_pos_iff.mpr some
  have all : (∀ r ∈ answers, r.status = .success) ↔
      ∀ attempt ∈ List.range' (attempts + 1) tasks.length, failFirst < attempt := by
    rw [← List.forall_mem_map (f := TaskResult.status) (P := (· = .success)), own.statuses,
      List.forall_mem_map]
    simp only [succeeds]
  rw [all]
  constructor
  · intro every
    have first := every (attempts + 1) (List.mem_range'_1.mpr (by omega))
    omega
  · intro enough attempt made
    have after := List.mem_range'_1.mp made
    omega

theorem Answers.clean_iff {failFirst attempts : Nat} {tasks : List String}
    {results : Table TaskResult} {answers : List TaskResult}
    (own : Answers failFirst attempts tasks results answers) (some : tasks ≠ [])
    (few : tasks.length < twoTo 53) {policy : FanInPolicy} (known : policy.mode ≠ .unrecognized)
    (within : policy.threshold.le .one = true) :
    (Summary.fanIn (answers.map .typed) policy).isClean = true ↔ failFirst ≤ attempts := by
  have length : answers.length = tasks.length := by rw [← own.named, List.length_map]
  rw [← own.succeed_iff some]
  constructor
  · intro clean r member
    have small : (Summary.fanIn (answers.map .typed) policy).total < twoTo 53 := by
      rw [Summary.total_fanIn, List.length_map, length]
      exact few
    refine Summary.all_succeed small clean (Finding.ofResult r) ?_
    rw [Summary.findings_fanIn, List.map_map]
    exact List.mem_map_of_mem (f := Observation.normalize ∘ .typed) member
  · intro succeeded
    refine Summary.clean_of_success ?_ ?_ known within ?_
    · have nonempty : answers ≠ [] := by
        rw [← List.length_pos_iff, length]
        exact List.length_pos_iff.mpr some
      simpa using nonempty
    · rw [List.length_map, length]
      exact few
    · intro o member
      obtain ⟨r, inside, rfl⟩ := List.mem_map.mp member
      exact succeeded r inside

theorem Verdict.of_empty (config : LoopConfig) (r : Run) :
    Verdict.of config .empty r = ⟨r.observed.fallback, .none, none⟩ := by
  have unbounded (d : Decision) : withinBudget d none r.iteration = d := by
    unfold withinBudget
    split
    · rename_i limit _ bounded
      cases bounded
    · rfl
  change (⟨withinBudget r.observed.fallback none r.iteration, .none, none⟩ : Verdict) = _
  rw [unbounded]

theorem Summary.fallback_action (s : Summary) :
    s.isClean = true ∧ s.fallback.action = .complete ∨
    s.isClean = false ∧ s.fallback.action.loops = true := by
  unfold fallback
  cases clean : s.isClean with
  | true => exact .inl ⟨rfl, rfl⟩
  | false =>
    refine .inr ⟨rfl, ?_⟩
    cases s.blocking <;> rfl

structure Services.Tries (s : Services Attendant Attendance) (length : Nat) : Prop
    extends s.OnBus where
  classifies : ∀ command context, ∃ c, s.classify command context = pure c
  plans : ∀ command c context, ∃ steps, s.plan command c context = pure steps ∧
    Plan.InTurn [] steps ∧ steps.length = length
  some : 0 < length
  few : length < twoTo 53
  known : s.config.fanIn.mode ≠ .unrecognized
  within : s.config.fanIn.threshold.le .one = true
  tells : s.config.observationTimeout < twoTo 62

structure Run.Planned (length : Nat) (r : Run) : Prop where
  count : r.plan.length = length
  distinct : (Plan.ids r.plan).Nodup

structure Run.Delegated (failFirst length : Nat) (w : World Attendant Attendance) (r : Run) :
    Prop where
  count : r.delegations.length = length
  dispatched : ∀ d ∈ r.delegations, d.dispatched = true
  distinct : (r.delegations.map (·.task)).Nodup
  answered : ∃ answers, Answers failFirst (length * r.iteration) (r.delegations.map (·.task))
    w.bus.results answers

namespace Services

variable (s : Services Attendant Attendance) (failFirst length : Nat)

/-- A run that never pauses and keeps its fan-in. Before none of its earlier rounds had the
failures run out. -/
structure Steady (r : Run) : Prop where
  calm : r.pause = 0
  fanIn : r.fanIn = s.config.fanIn
  failing : ∀ j < r.iteration, length * j < failFirst

def Trying (phase : Phase) (w : World Attendant Attendance) (r : Run) : Prop :=
  s.Steady failFirst length r ∧
  match phase with
  | .awareness | .planning => Attended failFirst (length * r.iteration) w
  | .delegation => Attended failFirst (length * r.iteration) w ∧ r.Planned length
  | .observation => Attended failFirst (length * (r.iteration + 1)) w ∧ r.Planned length ∧
      r.Delegated failFirst length w
  | .decision => Attended failFirst (length * (r.iteration + 1)) w ∧ r.Planned length ∧
      (r.observed.isClean = true ↔ failFirst ≤ length * r.iteration)
  | .complete => False

structure Tried (e : Standing Attendant Attendance) : Prop where
  attempts : e.world.parts.attempts = length * (e.run.iteration + 1)
  failing : ∀ j < e.run.iteration, length * j < failFirst
  last : ∃ last ∈ e.run.history.getLast?, last.iteration = e.run.iteration ∧
    (last.phase = .complete ∧ failFirst ≤ length * e.run.iteration ∨
      length * e.run.iteration < failFirst ∧ s.config.maxIterations ≤ e.run.iteration + 1 ∧
        ∃ v w r, last = (s.decision v w r).state ∧ v.exhausts s.config r.iteration = true)

variable {s failFirst length} {w : World Attendant Attendance} {r : Run}

theorem ask_pure {η σ α : Type} (s : Services η σ) (d : Deed) (a : α) (w : World η σ) :
    s.ask d (pure a) w = (.ok a, w.note d) := rfl

theorem awareness_attended (tries : s.Tries length) {attempts : Nat}
    (attended : Attended failFirst attempts w) :
    Attended failFirst attempts (s.awareness w r).world := by
  obtain ⟨c, classifies⟩ := tries.classifies r.command r.context
  unfold awareness
  rw [classifies, ask_pure]
  exact (attended.note _).time

/-- Steps in turn are taken as they are planned. -/
theorem planFrom_inTurn {steps : List PlanStep} (turn : Plan.InTurn [] steps) (some : steps ≠ [])
    (r : Run) : planFrom r (.ok steps) = steps := by
  have bound : (Except.ok steps).bind Plan.accept = .ok steps := turn.accepted some
  rw [planFrom, bound]

theorem planning_planned (tries : s.Tries length) {attempts : Nat}
    (attended : Attended failFirst attempts w) :
    Attended failFirst attempts (s.planning w r).world ∧ (s.planning w r).run.Planned length := by
  obtain ⟨steps, plans, turn, count⟩ :=
    tries.plans r.command r.classification r.planningContext
  have some : steps ≠ [] := by
    rw [← List.length_pos_iff, count]
    exact tries.some
  unfold planning
  rw [plans, ask_pure]
  dsimp only
  rw [planFrom_inTurn turn some]
  exact ⟨(attended.note _).time, count, turn.nodup⟩

theorem backOff_attended {attempts : Nat} (attended : Attended failFirst attempts w) :
    s.backOff w 0 = w := by
  have canWait : w.canWait 0 = true := by
    unfold World.canWait
    rw [attended.clock]
    decide +kernel
  unfold backOff
  rw [if_pos canWait]
  rfl

theorem delegation_delegated (tries : s.Tries length) (calm : r.pause = 0)
    (planned : r.Planned length) (attended : Attended failFirst (length * r.iteration) w) :
    Attended failFirst (length * (r.iteration + 1)) (s.delegation w r).world ∧
    (s.delegation w r).run.Delegated failFirst length (s.delegation w r).world := by
  let run := { r with pause := 0 }
  have distinct : (r.plan.map (run.taskOf ·.id)).Nodup := by
    have apart := planned.distinct.map (taskId_injective r.session r.iteration)
    rw [Plan.ids, List.map_map] at apart
    exact apart
  obtain ⟨delegations, after, ⟨answers, own⟩, -⟩ := tries.delegateAll run distinct attended
  have named : (s.delegateAll run r.plan w).1.map (·.task) = r.plan.map (run.taskOf ·.id) := by
    rw [delegations, List.map_map]
    rfl
  unfold delegation
  rw [calm, backOff_attended attended]
  refine ⟨?_, ?_, ?_, ?_, ?_⟩
  · rw [planned.count] at after
    exact after.time
  · change (s.delegateAll run r.plan w).1.length = length
    rw [delegations, List.length_map, planned.count]
  · intro d member
    change d ∈ (s.delegateAll run r.plan w).1 at member
    rw [delegations] at member
    obtain ⟨step, _, rfl⟩ := List.mem_map.mp member
    rfl
  · change ((s.delegateAll run r.plan w).1.map (·.task)).Nodup
    rw [named]
    exact distinct
  · refine ⟨answers, ?_⟩
    change Answers failFirst _ ((s.delegateAll run r.plan w).1.map (·.task)) _ _
    rw [named]
    exact own

theorem observation_observed (tries : s.Tries length) (fanIn : r.fanIn = s.config.fanIn)
    {made : Nat} (attended : Attended failFirst made w)
    (delegated : r.Delegated failFirst length w) :
    Attended failFirst made (s.observation w r).world ∧
    ((s.observation w r).run.observed.isClean = true ↔ failFirst ≤ length * r.iteration) := by
  obtain ⟨answers, own⟩ := delegated.answered
  have count : (r.delegations.map (·.task)).length = length := by
    rw [List.length_map, delegated.count]
  have some : r.delegations ≠ [] := by
    rw [← List.length_pos_iff, delegated.count]
    exact tries.some
  obtain ⟨sum, after⟩ :=
    tries.summarize delegated.dispatched own delegated.distinct some attended tries.tells
  constructor
  · have announced := (after.note (.publish (.summary r.session r.iteration (s.summarize w r).1))
      ).publish_other (m := .summary r.session r.iteration (s.summarize w r).1) nofun
    unfold observation announce
    rw [tries.handlers]
    exact announced.time
  · change (s.summarize w r).1.isClean = true ↔ _
    rw [sum, fanIn]
    refine own.clean_iff ?_ ?_ tries.known tries.within
    · simpa using some
    · rw [count]
      exact tries.few

theorem settle_tries (fits : s.config.Fits) {v : Verdict} {u : World Attendant Attendance}
    {t : Run} (steady : s.Steady failFirst length r)
    (attended : Attended failFirst (length * (r.iteration + 1)) w) (planned : r.Planned length)
    (last : r.history.getLast? = some (s.decision v u t).state) (here : t.iteration = r.iteration)
    {summary : Summary} (judged : summary.isClean = true ↔ failFirst ≤ length * r.iteration)
    (fallback : v.decision = summary.fallback) :
    (s.settle v w r).Holds (s.Trying failFirst length)
      fun e => e.stopped = none → s.Tried failFirst length e := by
  have failed (loops : v.decision.action.loops = true) : length * r.iteration < failFirst := by
    rcases summary.fallback_action with ⟨_, complete⟩ | ⟨unclean, _⟩
    · rw [fallback, complete] at loops
      cases loops
    · rw [unclean] at judged
      simpa using judged
  have again (loops : v.decision.action.loops = true) :
      s.Steady failFirst length { r with iteration := r.iteration + 1 } := by
    refine { steady with failing := fun j before => ?_ }
    rcases Nat.lt_succ_iff_lt_or_eq.mp before with earlier | rfl
    · exact steady.failing j earlier
    · exact failed loops
  obtain ⟨loops, out, eq⟩ | ⟨retry, _, eq⟩ | ⟨extend, _, eq⟩ | ⟨complete, eq⟩ | ⟨halt, eq⟩ :=
    s.settle_cases fits v w r <;> rw [eq]
  · intro _
    refine ⟨attended.attempts, steady.failing, _, last, here, .inr ⟨failed loops, out, v, u, t, rfl, ?_⟩⟩
    simp [Verdict.exhausts, loops, here, out]
  · exact ⟨again (by rw [retry]; rfl), attended, { planned with }⟩
  · exact ⟨again (by rw [extend]; rfl), attended⟩
  · have clean : failFirst ≤ length * r.iteration := by
      rcases summary.fallback_action with ⟨clean, _⟩ | ⟨_, loops⟩
      · exact judged.mp clean
      · rw [← fallback, complete] at loops
        cases loops
    obtain ⟨st, _, eq⟩ | ⟨cause, _, eq⟩ := s.persist_cases (completion v.decision w r) <;> rw [eq]
    · intro _
      exact ⟨attended.attempts, steady.failing, _, List.getLast?_concat, rfl, .inl ⟨rfl, clean⟩⟩
    · intro unstopped
      cases unstopped
  · rw [fallback] at halt
    rcases summary.fallback_action with ⟨_, action⟩ | ⟨_, loops⟩
    · simp [action] at halt
    · rcases halt with action | action <;> rw [action] at loops <;> cases loops

theorem step_tries (tries : s.Tries length) (fits : s.config.Fits) {phase : Phase}
    (trying : s.Trying failFirst length phase w r) :
    (s.step phase w r).Holds (s.Trying failFirst length)
      fun e => e.stopped = none → s.Tried failFirst length e := by
  obtain ⟨steady, here⟩ := trying
  cases phase with
  | awareness =>
    refine s.persist_goOn_holds (fun st _ => ⟨{ steady with }, ?_⟩) fun _ _ => nofun
    exact (awareness_attended tries here).written _ st
  | planning =>
    obtain ⟨attended, planned⟩ := planning_planned tries here
    refine s.persist_goOn_holds (fun st _ => ⟨?_, attended.written _ st, ?_⟩) fun _ _ => nofun
    · exact { steady with }
    · exact { planned with }
  | delegation =>
    obtain ⟨attended, planned⟩ := here
    obtain ⟨after, delegated⟩ := delegation_delegated tries steady.calm planned attended
    refine s.persist_goOn_holds (fun st _ => ⟨?_, after.written _ st, ?_, ?_⟩) fun _ _ => nofun
    · exact { steady with calm := rfl }
    · exact { planned with }
    · exact { delegated with }
  | observation =>
    obtain ⟨attended, planned, delegated⟩ := here
    obtain ⟨after, judged⟩ := observation_observed tries steady.fanIn attended delegated
    refine s.persist_goOn_holds (fun st _ => ⟨?_, after.written _ st, ?_, judged⟩) fun _ _ => nofun
    · exact { steady with }
    · exact { planned with }
  | decision =>
    obtain ⟨attended, planned, judged⟩ := here
    let v : Verdict := ⟨r.observed.fallback, .none, none⟩
    have taken : Verdict.of s.config w.engine r = v := by
      rw [attended.engine, Verdict.of_empty]
    have calm : v.pause = 0 := by
      unfold Verdict.pause
      split <;> rfl
    refine s.step_decision_holds taken rfl (fun st _ => ?_) fun _ _ => nofun
    refine s.persist_goOn_holds (fun st' _ => ?_) fun _ _ => nofun
    have after (log : DecisionLog) (b : State) :=
      (attended.time.written (.log log) st).written (.state b) st'
    refine settle_tries fits ?_ (after _ _) ?_ List.getLast?_concat rfl judged rfl
    · exact { steady with calm := calm }
    · exact { planned with }
  | complete => exact here.elim

theorem outcome_tried (tries : s.Tries length) (fits : s.config.Fits) (command : String)
    (context : Table Json) (session : Option String) (attended : Attended failFirst 0 w)
    (unstopped : (s.outcome command context session w).stopped = none) :
    s.Tried failFirst length (s.outcome command context session w) := by
  obtain ⟨_, new, _, _⟩ := s.begin_blank command context session w
  have first : s.Trying failFirst length .awareness (s.begin command context session w).1
      (s.begin command context session w).2 := by
    have engine : ∀ v : World Attendant Attendance, v.engine = .empty →
        s.initialFanIn v = s.config.fanIn := by
      intro v none
      unfold initialFanIn
      rw [none]
      rfl
    cases session with
    | some id => exact ⟨⟨rfl, engine _ attended.engine, nofun⟩, { attended with }⟩
    | none => exact ⟨⟨rfl, engine _ attended.engine, nofun⟩, { attended with }⟩
  exact s.drive_holds fits new first (fun _ _ _ trying => step_tries tries fits trying) unstopped

end Services

/-- The limit at which a run was stopped is told as a number. -/
theorem RunResult.stopText_exhausted {η σ : Type} (s : Services η σ) {v : Verdict}
    {w : World η σ} {r : Run} (exhausted : v.exhausts s.config r.iteration = true)
    {history : List State} (final : history.getLast? = some (s.decision v w r).state)
    (iterations : Nat) :
    stopText (s.decision v w r).state (latest (·.decision) history) iterations =
      s!"Iteration limit of {s.config.maxIterations} reached" := by
  have decided : latest (·.decision) history = some v.decision := by
    obtain ⟨front, rfl⟩ := List.getLast?_eq_some_iff.mp final
    rw [latest, List.reverse_append]
    rfl
  have marks : (s.decision v w r).state.metadata =
      Table.ofList [("rule_hits", Json.strings v.effective.hits),
        ("effective_policy", v.effective.toJson), (exhaustedKey, .bool true),
        (limitKey, .nat s.config.maxIterations)] := by
    change Table.ofList ([("rule_hits", _), ("effective_policy", _)] ++
      if v.exhausts s.config r.iteration then _ else _) = _
    rw [exhausted]
    rfl
  have mark : Table.get? (s.decision v w r).state.metadata exhaustedKey = some (.bool true) := by
    have other : exhaustedKey ≠ limitKey := by decide
    simp [marks, Table.ofList, Table.get?_put_of_ne, other]
  have limit : Table.get? (s.decision v w r).state.metadata limitKey =
      some (.nat s.config.maxIterations) := by
    simp [marks, Table.ofList]
  have shown : (Json.nat s.config.maxIterations).compact = toString s.config.maxIterations :=
    String.ofList_toList
  unfold stopText
  rw [mark, limit, decided]
  change s!"Iteration limit of {(Json.nat s.config.maxIterations).compact} reached" = _
  rw [shown]
  rfl

/-- The result of a run at its end follows from the number of rounds in which something fails. -/
theorem Services.Tried.result {s : Services Attendant Attendance} {failFirst length : Nat}
    {e : Standing Attendant Attendance} (tried : s.Tried failFirst length e) (some : 0 < length)
    (unstopped : e.stopped = none)
    (within : ∀ a ∈ e.run.history, a.iteration < s.config.maxIterations) :
    let failing := failFirst ⌈/⌉ length
    ((resultOf e).success = true ↔ failing < s.config.maxIterations) ∧
    (resultOf e).iterations = min (failing + 1) s.config.maxIterations ∧
    (resultOf e).iterations = e.run.iteration + 1 ∧
    (resultOf e).error = if failing < s.config.maxIterations then none else
      Option.some s!"Iteration limit of {s.config.maxIterations} reached" := by
  intro failing
  have reached (i : Nat) : failing ≤ i ↔ failFirst ≤ length * i := ceilDiv_le_iff_le_mul some
  obtain ⟨last, final, here, ending⟩ := tried.last
  have inside := within last (List.mem_of_getLast? final)
  have earlier : e.run.iteration ≤ failing := by
    refine Nat.le_of_not_lt fun later => ?_
    have stillFailing := tried.failing failing later
    have clean := (reached failing).mp (Nat.le_refl _)
    omega
  rw [here] at inside
  unfold resultOf
  rw [unstopped, inFull_last final, here]
  dsimp only
  obtain ⟨complete, clean⟩ | ⟨unclean, out, v, w, r, rfl, exhausted⟩ := ending
  · have first : failing = e.run.iteration := Nat.le_antisymm ((reached _).mpr clean) earlier
    refine ⟨?_, ?_, rfl, ?_⟩
    · simp [complete, first, inside]
    · omega
    · rw [if_pos complete, if_pos (by omega)]
  · have more : e.run.iteration < failing := by
      refine Nat.lt_of_not_le fun few => ?_
      have clean := (reached _).mp few
      omega
    have undone : (s.decision v w r).state.phase ≠ .complete := (by decide : Phase.decision ≠ .complete)
    refine ⟨?_, ?_, rfl, ?_⟩
    · simp only [undone, decide_false, Bool.false_eq_true, false_iff]
      omega
    · omega
    · rw [if_neg undone, if_neg (by omega), RunResult.stopText_exhausted s exhausted final]

theorem Services.Tried.logs {s : Services Attendant Attendance} {failFirst length : Nat}
    {e : Standing Attendant Attendance} (tried : s.Tried failFirst length e) (ends : s.Ends e) :
    (e.run.history.flatMap State.mirrors).map (·.iteration) =
      List.range (e.run.iteration + 1) := by
  obtain ⟨course, _⟩ := ends.closing
  obtain ⟨last, final, here, ending⟩ := tried.last
  have logged := ends.logged last (List.mem_of_getLast? final)
  obtain ⟨front, split⟩ := List.getLast?_eq_some_iff.mp final
  rw [split] at course ⊢
  rw [course.logs_in_turn logged, State.decided, here]
  obtain ⟨complete, _⟩ | ⟨_, _, v, w, r, rfl, _⟩ := ending
  · rw [complete, if_neg (by decide)]
  · rfl

namespace RunRequest

def stepCount (r : RunRequest) : Nat := max 1 r.stages.length

variable (r : RunRequest) (config : LoopConfig) (backend : Backend)

theorem services_config : (r.services config backend).config = config ∧
    (r.services config backend).backend = backend ∧
    (r.services config backend).strike = fun _ => none := by
  unfold services
  dsimp only
  split <;> exact ⟨rfl, rfl, rfl⟩

theorem services_onBus : (r.services config backend).OnBus := by
  unfold services
  dsimp only
  split <;> exact ⟨rfl, rfl, rfl⟩

theorem services_plan (command : String) (c : Classification) (context : Table Json) :
    ∃ steps, (r.services config backend).plan command c context = pure steps ∧
      Plan.InTurn [] steps ∧ steps.length = r.stepCount := by
  unfold services stepCount
  dsimp only
  cases stages : r.stages with
  | nil => exact ⟨_, rfl, Plan.single_inTurn command defaultDelegate, rfl⟩
  | cons role rest =>
    refine ⟨_, rfl, Plan.staged_inTurn command c.risk (role :: rest), ?_⟩
    rw [Plan.staged, Plan.length_staged_go, List.length_cons]
    omega

theorem services_tries (valid : config.validate = .ok ())
    (known : config.fanIn.mode ≠ .unrecognized) (tells : config.observationTimeout < twoTo 62)
    (few : config.maxIterations * r.stepCount < twoTo 32) :
    (r.services config backend).Tries r.stepCount := by
  obtain ⟨some, within⟩ := LoopConfig.of_valid valid
  obtain ⟨sameConfig, _⟩ := r.services_config config backend
  have short : r.stepCount < twoTo 32 :=
    Nat.lt_of_le_of_lt (Nat.le_mul_of_pos_left _ some) few
  refine { r.services_onBus config backend with
    classifies := fun command context => ?_
    plans := r.services_plan config backend
    some := Nat.lt_of_lt_of_le Nat.one_pos (Nat.le_max_left ..)
    few := Nat.lt_trans short (by decide)
    known := ?_
    within := ?_
    tells := ?_ }
  · unfold services
    dsimp only
    split <;> exact ⟨_, rfl⟩
  · rw [sameConfig]
    exact known
  · rw [sameConfig]
    exact within
  · rw [sameConfig]
    exact tells

end RunRequest

theorem Attended.beginning (settings : Settings) (failFirst : Nat) (here : Surroundings)
    (storage : Storage) :
    Attended failFirst 0 (Work.world settings failFirst .empty here storage) :=
  ⟨rfl, Nat.lt_succ_self 3, rfl, rfl, rfl, rfl⟩

/-- A run without a policy comes to its first clean round once the failures have run out before
it, if the iterations allow of it; else it ends with the limit. It takes an attempt for each step
of each round, and leaves a log of each. -/
theorem RunRequest.tried_until_clean (request : RunRequest) (settings : Settings)
    (here : Surroundings) (storage : Storage) (backend : Backend) (context : Table Json)
    (valid : settings.loop.validate = .ok ()) (fits : settings.loop.Fits)
    (known : settings.loop.fanIn.mode ≠ .unrecognized)
    (tells : settings.loop.observationTimeout < twoTo 62)
    (few : settings.loop.maxIterations * request.stepCount < twoTo 32)
    (fresh : storage.Keeps backend ((request.services settings.loop backend).begin request.command
      context request.session (Work.world settings request.failFirst .empty here storage)).2.session
      .empty)
    (accepts : (∀ directory, backend ≠ .folder directory) ∨
      AcceptsNew ((request.services settings.loop backend).outcome request.command context
        request.session (Work.world settings request.failFirst .empty here storage)).world.journal) :
    let run := (request.services settings.loop backend).execute request.command context
      request.session (Work.world settings request.failFirst .empty here storage)
    let failing := request.failFirst ⌈/⌉ request.stepCount
    (run.1.success = true ↔ failing < settings.loop.maxIterations) ∧
    run.1.iterations = min (failing + 1) settings.loop.maxIterations ∧
    run.2.parts.attempts = request.stepCount * run.1.iterations ∧
    (∃ logs, run.2.storage.Keeps backend run.1.session ⟨run.1.history, logs⟩ ∧
      logs.map (·.iteration) = List.range run.1.iterations ∧
      ((∀ log ∈ logs, backend.ReadsBack (.log log)) → ∃ found,
        run.2.storage.query backend (.ofSession run.1.session) = .ok found ∧ found.Perm logs)) ∧
    run.1.error = if failing < settings.loop.maxIterations then none else
      some s!"Iteration limit of {settings.loop.maxIterations} reached" := by
  intro run failing
  let s := request.services settings.loop backend
  let w := Work.world settings request.failFirst .empty here storage
  let e := s.outcome request.command context request.session w
  obtain ⟨config, backendEq, calm⟩ := request.services_config settings.loop backend
  have tries : s.Tries request.stepCount :=
    request.services_tries settings.loop backend valid known tells few
  have fits' : s.config.Fits := by
    rw [config]
    exact fits
  have valid' : s.config.validate = .ok () := by
    rw [config]
    exact valid
  have fresh' : w.storage.Keeps s.backend
      (s.begin request.command context request.session w).2.session .empty := by
    rw [backendEq]
    exact fresh
  have ends : s.Ends e := s.outcome_ends valid' fits' ..
  have acceptsNew : AcceptsNew e.world.journal := by
    rcases accepts with rows | accepts
    · refine s.rows_accept valid' fits' _ _ _ _ fresh' ?_ ?_
      · rw [backendEq]
        exact rows
      · rw [calm]
        exact fun _ => rfl
    · exact accepts
  obtain ⟨unstopped, written⟩ := ends.unstopped acceptsNew
  have tried : s.Tried request.failFirst request.stepCount e :=
    Services.outcome_tried tries fits' _ _ _ (.beginning settings _ here storage) unstopped
  obtain ⟨course, _⟩ := ends.closing
  obtain ⟨success, iterations, counted, error⟩ :=
    tried.result tries.some unstopped course.within
  have kept := s.outcome_keeps valid' fits' request.command context request.session w fresh'
    (show ∀ log ∈ ([] : List DecisionLog), log.session = e.run.session by simp)
    (written.trans (List.append_nil _).symm)
  have result : run.1 = Services.resultOf e := rfl
  have parts : run.2.parts = e.world.parts := s.execute_parts ..
  have stored : run.2.storage = e.world.storage := s.execute_storage ..
  obtain ⟨sessionEq, historyEq⟩ := Services.resultOf_history e
  rw [config] at success iterations error
  rw [result, parts, stored, sessionEq, historyEq]
  rw [List.append_nil] at kept
  refine ⟨success, iterations, ?_, ⟨e.run.history.flatMap State.mirrors, ?_, ?_, ?_⟩, error⟩
  · rw [counted]
    exact tried.attempts
  · rw [← backendEq]
    exact kept
  · rw [counted]
    exact tried.logs ends
  · rw [← backendEq]
    exact kept.query

def flaky : RunRequest := ⟨"ship", some "s", none, ["build", "test"], 3, false⟩

theorem flaky_tried_until_clean :
    let run := (flaky.services Settings.default.loop .memory).execute flaky.command [] flaky.session
      (Work.world .default flaky.failFirst .empty ⟨.empty, "", ⟨0, 0⟩, 0⟩ .empty)
    LoopConfig.default.validate = .ok () ∧ LoopConfig.default.Fits ∧
      LoopConfig.default.maxIterations * flaky.stepCount < twoTo 32 ∧
      run.1.success = true ∧ run.1.iterations = 3 ∧ run.2.parts.attempts = 6 ∧
      run.1.error = none := by
  have valid : LoopConfig.default.validate = .ok () := Services.alone_valid
  have fits : LoopConfig.default.Fits := Services.alone_fits
  have known : LoopConfig.default.fanIn.mode ≠ .unrecognized := FanInMode.noConfusion
  have tells : LoopConfig.default.observationTimeout < twoTo 62 := by decide
  have fresh : Storage.empty.Keeps .memory "s" .empty := rfl
  have few : LoopConfig.default.maxIterations * flaky.stepCount < twoTo 32 := by decide
  have two : flaky.failFirst ⌈/⌉ flaky.stepCount = 2 := by decide
  have ten : Settings.default.loop.maxIterations = 10 := rfl
  have formula := flaky.tried_until_clean .default ⟨.empty, "", ⟨0, 0⟩, 0⟩ .empty .memory []
    valid fits known tells few fresh (.inl fun _ => Backend.noConfusion)
  obtain ⟨success, iterations, attempts, _, error⟩ := formula
  rw [two, ten] at success iterations error
  rw [iterations] at attempts
  exact ⟨valid, fits, few, success.mpr (by decide), iterations.trans (by decide),
    attempts.trans (by decide), error.trans (if_pos (by decide))⟩

end Orchestration
