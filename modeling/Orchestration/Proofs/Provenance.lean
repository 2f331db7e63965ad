import Orchestration.Proofs.Attendance
import Orchestration.Proofs.Delegating

/-! Where the findings of a round come from. Results are filed under the ids of their tasks, so
whoever waits for a task is answered by a result that bears its id; and as no two rounds share an
id, none is answered by a result for another. Besides, a round tells of what it could not hand
on and what it had no answer to, and the first one of what was held back before the run. -/
namespace Orchestration

variable {η σ : Type}

def Filed (results : Table TaskResult) : Prop :=
  ∀ task r, Table.get? results task = some r → r.task = task

namespace Filed

variable {results gathered : Table TaskResult}

theorem nil : Filed [] := fun _ _ found => by cases found

theorem put (filed : Filed results) (r : TaskResult) : Filed (Table.put results r.task r) := by
  intro task found at_
  by_cases own : task = r.task
  · rw [own, Table.get?_put_self] at at_
    cases at_
    exact own.symm
  · rw [Table.get?_put_of_ne _ _ own] at at_
    exact filed task found at_

theorem after (filed : Filed results) (messages : List Message) :
    Filed (resultsAfter results messages) := by
  induction messages generalizing results with
  | nil => exact filed
  | cons m rest ih =>
    cases m with
    | result r => exact ih (filed.put r)
    | dispatch | heartbeat | summary => exact ih filed

theorem gather (before : Filed gathered) (filed : Filed results) (tasks : List String) :
    Filed (gather tasks gathered results) := by
  intro task r found
  rw [get?_gather] at found
  split at found
  · rcases Option.or_eq_some_iff.mp found with old | ⟨_, new⟩
    · exact before task r old
    · exact filed task r new
  · exact before task r found

theorem gatherAlong (before : Filed gathered) (filed : Filed results) (tasks : List String)
    (bursts : List (List Message)) : Filed (gatherAlong tasks gathered results bursts) := by
  induction bursts generalizing gathered results with
  | nil => exact before.gather filed tasks
  | cons burst rest ih => exact ih (before.gather filed tasks) (filed.after burst)

/-- What is heard bears an id that was asked for. -/
theorem heard (filed : Filed results) (tasks : List String) (bursts : List (List Message)) :
    ∀ r ∈ heard tasks results bursts, r.task ∈ tasks := by
  intro r member
  obtain ⟨task, asked, found⟩ := List.mem_filterMap.mp member
  rw [nil.gatherAlong filed tasks bursts task r found]
  exact List.mem_eraseDups.mp asked

end Filed

theorem World.Heard.filed {v w : World η σ} (heard : Heard v w) (filed : Filed v.bus.results) :
    Filed w.bus.results := by
  obtain ⟨messages, published⟩ := heard
  rw [published.results]
  exact filed.after messages

structure Services.Untracked (s : Services η σ) : Prop where
  dispatch : s.dispatch = Dispatch.onBus
  status : s.status = none

namespace Services

variable {s : Services η σ} {w v : World η σ} {r t : Run} {phase : Phase}

theorem Untracked.answer (untracked : s.Untracked) (d : Dispatch) (w : World η σ) :
    (s.ask (.dispatch d) (s.dispatch d) w).1 = .ok d.task ∨
      ∃ f, (s.ask (.dispatch d) (s.dispatch d) w).1 = .error f := by
  unfold ask
  rw [untracked.dispatch]
  by_cases heard : (w.note (.dispatch d)).bus.count .dispatch = 0
  · right
    have fails : World.call s.toHandlers d.onBus (w.note (.dispatch d)) =
        (.fault (.noExecutor Topic.dispatch.text d.task), w.note (.dispatch d)) := by
      change World.perform _ (if (w.note (.dispatch d)).bus.count .dispatch = 0 then _ else _) _ = _
      rw [if_pos heard]
      rfl
    rw [fails]
    exact ⟨_, rfl⟩
  · left
    rw [World.call_onBus s.toHandlers d heard]
    rfl

/-- Every delegation goes by the id its step was handed on under. -/
theorem Untracked.delegateAll_tasks (untracked : s.Untracked) (q : Run) (steps : List PlanStep)
    (u : World η σ) :
    (s.delegateAll q steps u).1.map (·.task) = steps.map (q.taskOf ·.id) := by
  induction steps generalizing u with
  | nil => rfl
  | cons step rest ih =>
    have one : (delegationOf q step (s.ask (.dispatch (q.dispatchOf s.config.taskTimeout step))
        (s.dispatch (q.dispatchOf s.config.taskTimeout step)) u).1).task = q.taskOf step.id := by
      obtain answer | ⟨f, answer⟩ := untracked.answer (q.dispatchOf s.config.taskTimeout step) u <;>
        rw [answer] <;> rfl
    unfold delegateAll
    dsimp only
    rw [List.map_cons, List.map_cons, one, ih]

theorem Untracked.known (untracked : s.Untracked) {d : Delegation} {u : World η σ}
    {o : Observation} (told : (s.known d u).1 = some o) :
    ∃ issue, o = .failed d.task issue := by
  unfold Services.known at told
  rw [untracked.status] at told
  split at told
  · exact ⟨_, (Option.some.inj told).symm⟩
  · cases told

def Found (held : List Observation) (results : List TaskResult) (tasks : List String)
    (f : Finding) : Prop :=
  (∃ o ∈ held, o.normalize = f) ∨ (∃ x ∈ results, Finding.ofResult x = f) ∨
    ∃ task ∈ tasks, ∃ issue, (Observation.failed task issue).normalize = f

theorem found_outcomes {held : List Observation} {results : List TaskResult}
    {tasks waiting : List String} (known : ∀ task ∈ waiting, task ∈ tasks) {timeout : Nat}
    {o : Observation} (member : o ∈ World.outcomes waiting results timeout) :
    Found held results tasks o.normalize := by
  rcases List.mem_append.mp member with answered | unanswered
  · obtain ⟨x, heard, rfl⟩ := List.mem_map.mp answered
    exact .inr (.inl ⟨x, heard, rfl⟩)
  · obtain ⟨task, waits, rfl⟩ := List.mem_map.mp unanswered
    exact .inr (.inr ⟨task, known task (List.mem_of_mem_filter waits), _, rfl⟩)

theorem Untracked.summarize (untracked : s.Untracked) (filed : Filed w.bus.results) (r : Run) :
    ∃ results, (∀ x ∈ results, x.task ∈ r.delegations.map (·.task)) ∧
      ∀ f ∈ (s.summarize w r).1.findings,
        Found (w.heldBack r.session) results (r.delegations.map (·.task)) f := by
  by_cases none : r.delegations = []
  · refine ⟨[], by simp, ?_⟩
    unfold Services.summarize
    rw [if_pos (List.isEmpty_iff.mpr none)]
    intro f member
    cases member
  · obtain ⟨waiting, held⟩ := s.prefill_inquiries r.session r.delegations w
    have later : World.Heard w (s.prefill r.session r.delegations w).2 :=
      (s.heard_conducts r.session).prefill r.delegations w
    obtain ⟨bursts, _, summed⟩ := World.collect_published s.toHandlers r.session
      (s.prefill r.session r.delegations w).1 (s.config.observationTimeout * 1000) r.fanIn
      (s.prefill r.session r.delegations w).2
    generalize resultsEq : heard _ _ bursts = results at summed
    have asked := s.inquiries_delegations r.session r.delegations w
    have known : ∀ task ∈ World.uncovered (s.prefill r.session r.delegations w).1
        ((s.prefill r.session r.delegations w).2.heldBack r.session),
        task ∈ r.delegations.map (·.task) := by
      intro task member
      have waits := List.mem_of_mem_filter member
      rw [waiting] at waits
      obtain ⟨q, inside, _, rfl⟩ := Inquiry.mem_waiting.mp waits
      rw [← asked, List.map_map]
      exact List.mem_map_of_mem inside
    refine ⟨results, fun x member => ?_, ?_⟩
    · rw [← resultsEq] at member
      exact known _ ((later.filed filed).heard _ bursts x member)
    · have findings : (s.summarize w r).1 = .empty ∨ ∃ waiting timeout,
          (∀ task ∈ waiting, task ∈ r.delegations.map (·.task)) ∧
          (s.summarize w r).1 = .fanIn ((s.prefill r.session r.delegations w).2.heldBack r.session ++
            World.outcomes waiting results timeout) r.fanIn := by
        unfold Services.summarize World.summedUp at *
        rw [if_neg (by simpa using none)]
        dsimp only at summed ⊢
        split <;> rename_i heq <;> rw [heq] at summed
        · split at summed
          · cases summed
            exact .inr ⟨_, _, known, rfl⟩
          · cases summed
        · exact .inl rfl
      obtain empty | ⟨waits, timeout, inside, eq⟩ := findings
      · rw [empty]
        intro f member
        cases member
      · rw [eq, Summary.findings_fanIn]
        intro f member
        obtain ⟨o, observed, rfl⟩ := List.mem_map.mp member
        rw [held, List.append_assoc] at observed
        rcases List.mem_append.mp observed with before | observed
        · exact .inl ⟨o, before, rfl⟩
        · rcases List.mem_append.mp observed with kept | out
          · obtain ⟨q, inquired, told⟩ := List.mem_filterMap.mp kept
            obtain ⟨u, answer⟩ := s.inquiries_known r.session r.delegations w q inquired
            obtain ⟨issue, rfl⟩ := untracked.known (answer.trans told)
            refine .inr (.inr ⟨q.1.task, ?_, issue, rfl⟩)
            rw [← asked, List.map_map]
            exact List.mem_map_of_mem inquired
          · exact found_outcomes inside out

/-! ### Along a run -/

/-- Before an observation, the delegations are those of the plan, and its tasks were handed on. -/
theorem Passes.delegated (passed : s.Passes w r phase v t) (fits : s.config.Fits)
    (untracked : s.Untracked) (observes : phase = .observation) :
    t.delegations.map (·.task) = t.plan.map (t.taskOf ·.id) ∧
      ∀ step ∈ t.plan, t.dispatchOf s.config.taskTimeout step ∈ v.dispatches := by
  subst observes
  obtain ⟨last, u, q, d, follows, _, drafted, wrote, rfl⟩ := passed.entered fits (by decide)
  obtain rfl : last = .delegation := by cases last <;> cases follows; rfl
  have handed := draft_dispatches drafted
  rw [if_pos rfl, ← wrote.same.2] at handed
  cases drafted
  refine ⟨untracked.delegateAll_tasks { q with pause := 0 } q.plan _, fun step inPlan => ?_⟩
  rw [handed]
  exact List.mem_append_right _ (List.mem_map_of_mem inPlan)

/-- What was held back before the run is taken by its first observation. -/
theorem Passes.heldBack (passed : s.Passes w r phase v t) (fits : s.config.Fits)
    (untracked : s.Untracked) (new : r.iteration = 0) :
    v.heldBack t.session = [] ∨ t.iteration = 0 ∧ v.heldBack t.session = w.heldBack r.session ∧
      phase ≠ .decision := by
  let P (phase : Phase) (v : World η σ) (t : Run) : Prop :=
    v.heldBack t.session = [] ∨ t.iteration = 0 ∧ v.heldBack t.session = w.heldBack r.session ∧
      phase ≠ .decision
  have first : P .awareness w r := .inr ⟨new, rfl, by decide⟩
  refine passed.induction (P := P) first fun phase u q passed before => ?_
  cases drafted : s.draft? phase u q with
  | none =>
    cases phase <;> cases drafted
    trivial
  | some d =>
    have continues := draft_continues drafted
    have written {recs : List Record} {x : World η σ} (wrote : s.Wrote recs d.world x) :
        x.heldBack d.run.session = d.world.heldBack q.session := by
      rw [continues.session]
      exact World.heldBack_of_buffer wrote.same.1.buffer q.session
    have drained (done : phase = .observation ∨ phase = .decision) :
        d.world.heldBack q.session = [] := by
      rcases done with rfl | rfl
      · obtain ⟨tasks, _⟩ := passed.delegated fits untracked rfl
        obtain ⟨_, accepted⟩ := passed.planned fits (by decide)
        have some : q.delegations ≠ [] := by
          rintro none
          rw [none, List.map_nil, eq_comm, List.map_eq_nil_iff] at tasks
          exact (Plan.accept_eq_ok accepted).2.1 tasks
        cases drafted
        rw [s.observation_heldBack, if_pos ⟨rfl, some⟩]
      · cases drafted
        exact before.resolve_right fun other => other.2.2 rfl
    refine s.step_rule drafted (fun _ _ _ _ _ _ _ _ => trivial) (fun x next wrote follows => ?_)
      fun x wrote decision => ?_
    · by_cases observed : phase = .observation
      · exact .inl ((written wrote).trans (drained (.inl observed)))
      · have same : x.heldBack d.run.session = u.heldBack q.session :=
          (written wrote).trans (World.heldBack_of_buffer (draft_buffer drafted observed) q.session)
        rcases before with empty | ⟨zero, held, _⟩
        · exact .inl (same.trans empty)
        · refine .inr ⟨continues.iteration.trans zero, same.trans held, ?_⟩
          cases phase <;> cases follows <;> first | exact absurd rfl observed | decide
    · have empty : x.heldBack d.run.session = [] :=
        (written wrote).trans (drained (.inr decision))
      exact s.settle_rule fits _ trivial (fun _ _ => .inl empty) (fun _ _ => .inl empty)
        (fun _ _ _ => trivial) fun _ _ => trivial

variable (s)

/-- Delegation mirrors the plan. Each delegation carries the plan of the latest planning, which
has steps and passes validation, and records and hands on one task for each of its steps, in order;
no two tasks of a run go by one id, and what a task is said to depend on are other tasks of its
iteration. If steps are handed on over the bus and nobody tracks them, whatever an observation
finds comes from a result under the id of a task of its own iteration, and so under that of no
other; or it is that there was none; or it was held back before the run. -/
theorem delegations_mirror_plans (fits : s.config.Fits) (command : String) (context : Table Json)
    (session : Option String) (w : World η σ) :
    let start := s.begin command context session w
    let history := (s.execute command context session w).1.history
    let handed := (s.outcome command context session w).world.dispatches
    (∀ before c, before ++ [c] <+: history → c.phase = .delegation →
      ∃ steps ds, c.plan = some steps ∧ plannedIn before = some steps ∧ steps ≠ [] ∧
        Plan.validate steps = .ok () ∧ c.delegations = some ds ∧
        ds.map (fun d => (d.step, d.delegate, d.objective)) =
          steps.map (fun step => (step.id, step.delegate, step.objective)) ∧
        (handed.filter (·.iteration = c.iteration)).map (fun d => (d.task, d.delegate, d.objective)) =
          steps.map fun step => (taskId c.session c.iteration step.id, step.delegate, step.objective)) ∧
    (handed.map (·.task)).Nodup ∧
    (∀ d ∈ handed, ∃ tasks, Table.get? d.context "dependencies" = some (Json.strings tasks) ∧
      ∀ task ∈ tasks, ∃ other ∈ handed, other.iteration = d.iteration ∧ other.task = task ∧
        other.task ≠ d.task) ∧
    (s.Untracked → Filed w.bus.results → ∀ o ∈ history, o.phase = .observation →
      ∃ summary held results tasks, o.observations = some summary ∧
        (∀ f ∈ summary.findings, Found held results tasks f) ∧
        (∀ task ∈ tasks, ∃ d ∈ handed, d.iteration = o.iteration ∧ d.task = task) ∧
        (∀ x ∈ results, x.task ∈ tasks ∧
          ∀ d ∈ handed, d.iteration ≠ o.iteration → d.task ≠ x.task) ∧
        (held = [] ∨ o.iteration = 0 ∧ held = w.heldBack start.2.session)) := by
  intro start history handed
  obtain ⟨empty, new, blank, _⟩ := s.begin_blank command context session w
  have same : history = (s.outcome command context session w).run.history :=
    (resultOf_history _).2
  have drawn : s.Drawn start.1 start.2 history := same ▸ drive_drawn fits empty new
  obtain ⟨rounds, told⟩ : ∃ rounds, s.Rounds start.1 start.2 rounds history handed := by
    rw [same]
    exact drive_rounds fits empty new blank
  refine ⟨fun before c reaches delegation => ?_, told.tasks_nodup fits,
    fun d member => told.dependencies fits member, fun untracked filed o member observation => ?_⟩
  · obtain ⟨v, t, d, passed, drafted, made, behind⟩ := drawn before c reaches (by simp [delegation])
    rw [delegation] at passed drafted
    cases drafted
    obtain ⟨latest, accepted⟩ := passed.planned fits (by decide)
    obtain ⟨-, some, valid⟩ := Plan.accept_eq_ok accepted
    -- the round that the delegation was stored in
    obtain ⟨u, q, inside, again⟩ := told.stored c (reaches.subset (by simp)) delegation
    have plan : q.plan = t.plan := by
      have both := congrArg State.plan (again.trans made.symm)
      exact Option.some.inj both
    have handedOn := told.of_iteration inside
    refine ⟨t.plan, (s.delegation v t).run.delegations, by rw [← made]; rfl, behind ▸ latest, some,
      valid, by rw [← made]; rfl, s.delegateAll_steps { t with pause := 0 } t.plan _, ?_⟩
    have iteration : c.iteration = q.iteration := by rw [← again]; rfl
    have session : c.session = q.session := by rw [← again]; rfl
    rw [iteration, session, handedOn, List.map_map, plan]
    rfl
  · obtain ⟨v, t, d, passed, drafted, rfl⟩ := drawn.of_mem member (by simp [observation])
    rw [observation] at passed drafted
    cases drafted
    have begun : Filed start.1.bus.results := by cases session <;> exact filed
    have later : World.Heard start.1 v :=
      ((s.heard_conducts start.2.session).drive fits new rfl fun _ _ => trivial).1 _ _ _ passed
    obtain ⟨tasks, inPlan⟩ := passed.delegated fits untracked rfl
    have grows := passed.dispatches_prefix fits new rfl
    rw [s.observation_dispatches v t] at grows
    obtain ⟨results, own, found⟩ := untracked.summarize (later.filed begun) t
    have ofRound (task : String) (asked : task ∈ t.delegations.map (·.task)) :
        ∃ d ∈ handed, d.iteration = t.iteration ∧ d.task = task := by
      rw [tasks] at asked
      obtain ⟨step, inside, rfl⟩ := List.mem_map.mp asked
      exact ⟨_, grows.subset (inPlan step inside), rfl, rfl⟩
    refine ⟨(s.summarize v t).1, v.heldBack t.session, results, t.delegations.map (·.task), rfl,
      found, ofRound, fun x heard => ⟨own x heard, fun d other apart same => ?_⟩, ?_⟩
    · obtain ⟨mine, here, iteration, task⟩ := ofRound x.task (own x heard)
      have equal : d = mine := List.inj_on_of_nodup_map (told.tasks_nodup fits) other here
        (same.trans task.symm)
      exact apart (equal ▸ iteration)
    · rcases passed.heldBack fits untracked new with none | ⟨first, held, _⟩
      · exact .inl none
      · refine .inr ⟨first, held.trans ?_⟩
        cases session <;> rfl

def prompt : Services Unit Unit :=
  let react : Message → Reaction Unit Unit Unit
    | .dispatch d => do
      let status : TaskStatus := if d.iteration = 0 then .failed else .success
      let _ ← Reaction.send (.result (.answering d "x" status ⟨0, 0⟩))
    | _ => return
  { plain ⟨fun _ => react, 2⟩ .default .memory with
    plan := fun _ _ _ =>
      return [.of "a" "first" "x", { PlanStep.of "b" "second" "x" with dependencies := ["a"] }] }

def staffed : World Unit Unit :=
  let w : World Unit Unit := .initial ()
  { w with bus := (w.bus.subscribe .dispatch (some ())).2 }

theorem prompt_mirrors_plans :
    let history := (prompt.execute "go" [] (some "s") staffed).1.history
    let handed := (prompt.outcome "go" [] (some "s") staffed).world.dispatches
    prompt.config.Fits ∧ prompt.Untracked ∧ Filed staffed.bus.results ∧ (handed.map (·.task)).Nodup ∧
      ∃ o ∈ history, o.phase = .observation ∧ o.iteration = 1 ∧ ∃ summary results tasks,
        o.observations = some summary ∧ summary.total = 2 ∧
        ∀ f ∈ summary.findings, Found [] results tasks f := by
  intro history handed
  have untracked : prompt.Untracked := ⟨rfl, rfl⟩
  obtain ⟨_, distinct, _, observed⟩ :=
    prompt.delegations_mirror_plans alone_fits "go" [] (some "s") staffed
  let second (c : State) : Bool := c.phase = .observation ∧ c.iteration = 1
  have counted : ((history.find? second).bind (·.observations)).map (·.total) = some 2 := by
    decide +kernel
  obtain ⟨summary, told, two⟩ := Option.map_eq_some_iff.mp counted
  obtain ⟨o, first, own⟩ := Option.bind_eq_some_iff.mp told
  have member : o ∈ history := List.mem_of_find?_eq_some first
  obtain ⟨phase, iteration⟩ := of_decide_eq_true (List.find?_some (p := second) first)
  obtain ⟨same, held, results, tasks, observations, found, _, _, before⟩ :=
    observed untracked .nil o member phase
  obtain rfl : summary = same := Option.some.inj (own.symm.trans observations)
  obtain rfl : held = [] := before.resolve_right fun zero => by
    rw [iteration] at zero
    cases zero.1
  exact ⟨alone_fits, untracked, .nil, distinct, o, member, phase, iteration, summary, results, tasks,
    own, two, found⟩

end Services
end Orchestration
