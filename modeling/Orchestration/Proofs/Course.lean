import Orchestration.Proofs.Loop

/-! The course of a run. Before each phase its history leads there, and what was written is
what belongs to the history; where the run ends, the last state closes it. A run that the
store has stopped has come just as far as the record that could not be written. -/
namespace Orchestration

variable {η σ : Type}

def writesIn (journal : List Deed) : List Deed := (journal.filter (·.isWrite)).reverse

theorem writesIn_cons (d : Deed) (journal : List Deed) :
    writesIn (d :: journal) = writesIn journal ++ if d.isWrite then [d] else [] := by
  unfold writesIn
  cases write : d.isWrite <;> simp [write]

theorem World.Worked.writesIn_eq {v w : World η σ} (worked : World.Worked v w) :
    writesIn w.journal = writesIn v.journal := by
  obtain ⟨deeds, eq, reads⟩ := worked.journal
  have none : deeds.filter (·.isWrite) = [] := by simpa using reads
  simp [writesIn, eq, none]

theorem LoopConfig.of_valid {c : LoopConfig} (valid : c.validate = .ok ()) :
    0 < c.maxIterations ∧ c.fanIn.threshold.le .one = true := by
  unfold validate at valid
  split at valid
  · cases valid
  · rename_i some
    split at valid
    · cases valid
    · split at valid
      · rename_i within
        exact ⟨Nat.pos_of_ne_zero some, (Bool.and_eq_true_iff.mp within).2⟩
      · cases valid

structure Underway (limit : Nat) (phase : Phase) (w : World η σ) (r : Run) : Prop where
  course : Course r.session limit r.history
  live : phase ≠ .complete
  within : r.iteration < limit
  first : r.history = [] → phase = .awareness ∧ r.iteration = 0
  leads : ∀ a ∈ r.history.getLast?, a.LeadsTo phase r.iteration
  writes : writesIn w.journal = (writesFor r.history).map .stored

structure Reached (limit : Nat) (b : State) (w : World η σ) (r : Run) : Prop where
  course : Course r.session limit r.history
  last : r.history.getLast? = some b
  iteration : r.iteration = b.iteration
  writes : writesIn w.journal = (writesFor r.history).map .stored

/-- A draft that continues the course, with its state alone to be written yet. -/
structure Draft.Ready (limit : Nat) (done : List Record) (d : Draft η σ) : Prop where
  course : Course d.run.session limit (d.run.history ++ [d.state])
  iteration : d.run.iteration = d.state.iteration
  order : d.state.writes = done ++ [.state d.state]
  writes : writesIn d.world.journal = (writesFor d.run.history ++ done).map .stored

/-- A run at its end. Either its history is closed, or a record for the next state was
refused, and with that it was over. -/
inductive Services.Ends (s : Services η σ) : Standing η σ → Prop
  | finished (w : World η σ) (r : Run)
    (course : Course r.session s.config.maxIterations r.history)
    (closed : ∃ a ∈ r.history.getLast?, a.Closes s.config.maxIterations)
    (writes : writesIn w.journal = (writesFor r.history).map .stored) : s.Ends (.on w r)
  | broken (w : World η σ) (r : Run) (cause : Interruption) (b : State) (rec : Record)
    (done left : List Record)
    (course : Course r.session s.config.maxIterations (r.history ++ [b]))
    (order : b.writes = done ++ rec :: left)
    (writes : writesIn w.journal = (writesFor r.history ++ done).map .stored)
    (failed : (s.keep rec w).failure? = some cause) :
    s.Ends ⟨w.note (.refused rec cause), r, some cause⟩

namespace Underway

variable {limit : Nat} {phase : Phase} {w : World η σ} {r : Run}

theorem course_append (underway : Underway limit phase w r) {d : Draft η σ}
    (drafted : d.Continues w r phase) (mark : d.state.isMarked = true ↔ d.state.Exhausts limit) :
    Course d.run.session limit (d.run.history ++ [d.state]) := by
  have phaseEq : d.state.phase = phase := congrArg StateKey.phase drafted.key
  have iterationEq : d.state.iteration = r.iteration := congrArg StateKey.iteration drafted.key
  have sessionEq : d.state.session = r.session := congrArg StateKey.session drafted.key
  rw [drafted.history, drafted.session]
  apply underway.course.append
  · rw [phaseEq, iterationEq]
    exact underway.first
  · rw [phaseEq, iterationEq]
    exact underway.leads
  · exact sessionEq
  · rw [iterationEq]
    exact underway.within
  · exact mark

theorem ready (underway : Underway limit phase w r) {d : Draft η σ}
    (drafted : d.Continues w r phase) (plain : d.state.isMarked = false)
    (undecided : phase ≠ .decision) : d.Ready limit [] := by
  have phaseEq : d.state.phase = phase := congrArg StateKey.phase drafted.key
  have iterationEq : d.state.iteration = r.iteration := congrArg StateKey.iteration drafted.key
  refine ⟨underway.course_append drafted ?_, ?_, ?_, ?_⟩
  · simp [plain, State.Exhausts, phaseEq, undecided]
  · rw [drafted.iteration, iterationEq]
  · simp [State.writes, State.mirrors, phaseEq, undecided]
  · rw [drafted.worked.writesIn_eq, drafted.history, underway.writes, List.append_nil]

end Underway

namespace Reached

variable {limit : Nat} {b : State} {w : World η σ} {r : Run}

theorem leads (reached : Reached limit b w r) {phase : Phase} {iteration : Nat}
    (leads : b.LeadsTo phase iteration) (live : phase ≠ .complete) (within : iteration < limit) :
    Underway limit phase w { r with iteration := iteration } where
  course := reached.course
  live := live
  within := within
  first none := by
    change r.history = [] at none
    have last := reached.last
    rw [none] at last
    cases last
  leads a last := by
    change a ∈ r.history.getLast? at last
    rw [reached.last] at last
    cases last
    exact leads
  writes := reached.writes

theorem closes {s : Services η σ} (reached : Reached s.config.maxIterations b w r)
    (closes : b.Closes s.config.maxIterations) : s.Ends (.on w r) :=
  .finished w r reached.course ⟨b, reached.last, closes⟩ reached.writes

theorem completion_ready (reached : Reached limit b w r) (decided : b.phase = .decision)
    {d : Decision} (action : b.action? = some .complete) :
    (Services.completion d w r).Ready limit [] := by
  have drafted := Services.completion_continues d w r
  have key := drafted.key
  refine ⟨reached.course.append ?_ ?_ rfl ?_ ?_, rfl, rfl, ?_⟩
  · intro none
    have last := reached.last
    rw [none] at last
    cases last
  · intro a last
    rw [reached.last] at last
    cases last
    change b.LeadsTo .complete r.iteration
    rw [reached.iteration]
    exact .completed decided action
  · change r.iteration < limit
    rw [reached.iteration]
    exact reached.course.within b (List.mem_of_getLast? reached.last)
  · have plain : (Services.completion d w r).state.isMarked = false := rfl
    have undecided : (Services.completion d w r).state.phase ≠ .decision :=
      (by decide : Phase.complete ≠ .decision)
    simp [plain, State.Exhausts, undecided]
  · rw [drafted.worked.writesIn_eq, drafted.history, reached.writes, List.append_nil]

end Reached

namespace Services

variable (s : Services η σ)

theorem persist_ready {before : Phase → World η σ → Run → Prop} {d : Draft η σ}
    {done : List Record} {f : World η σ → Run → Station η σ}
    (ready : d.Ready s.config.maxIterations done)
    (goesOn : ∀ w r, Reached s.config.maxIterations d.state w r → (f w r).Holds before s.Ends) :
    ((s.persist d).goOn f).Holds before s.Ends := by
  refine s.persist_goOn_holds (fun st _ => goesOn _ _ ⟨?_, ?_, ?_, ?_⟩) fun cause failed => ?_
  · exact ready.course
  · exact List.getLast?_concat
  · exact ready.iteration
  · change writesIn (.stored (.state d.state) :: d.world.journal) =
      (writesFor (d.run.history ++ [d.state])).map .stored
    rw [writesIn_cons, ready.writes, writesFor_append, ready.order]
    simp [Deed.isWrite]
  · exact .broken d.world d.run cause d.state (.state d.state) done [] ready.course ready.order
      ready.writes failed

theorem ended_persist (d : Draft η σ) :
    Station.ended (s.persist d) = (s.persist d).goOn fun w r => .ended (.on w r) := by
  obtain ⟨st, _, eq⟩ | ⟨cause, _, eq⟩ := s.persist_cases d <;> rw [eq] <;> rfl

theorem isMarked_decision (v : Verdict) (w : World η σ) (r : Run) :
    (s.decision v w r).state.isMarked = v.exhausts s.config r.iteration := by
  change Table.contains (Table.ofList _) RunResult.exhaustedKey = _
  have hits : RunResult.exhaustedKey ≠ "rule_hits" := by decide
  have policy : RunResult.exhaustedKey ≠ "effective_policy" := by decide
  have cap : RunResult.exhaustedKey ≠ RunResult.limitKey := by decide
  change Table.contains (Table.ofList ([("rule_hits", _), ("effective_policy", _)] ++
    if v.exhausts s.config r.iteration then _ else _)) RunResult.exhaustedKey = _
  cases v.exhausts s.config r.iteration <;>
    simp [Table.ofList, Table.contains, Table.get?_put_of_ne, hits, policy, cap]

theorem isMarked_decision_iff {v : Verdict} {w : World η σ} {r : Run}
    (within : r.iteration < s.config.maxIterations) :
    (s.decision v w r).state.isMarked = true ↔
      (s.decision v w r).state.Exhausts s.config.maxIterations := by
  have action : (s.decision v w r).state.action? = some v.decision.action := rfl
  have phase : (s.decision v w r).state.phase = .decision := rfl
  have iteration : (s.decision v w r).state.iteration = r.iteration := rfl
  rw [s.isMarked_decision, State.Exhausts, action, phase, iteration, Verdict.exhausts,
    Bool.and_eq_true, decide_eq_true_iff]
  have loops : v.decision.action.loops = true ↔
      v.decision.action = .retry ∨ v.decision.action = .extendPlan := by
    cases v.decision.action <;> simp [Action.loops]
  rw [loops]
  constructor
  · rintro ⟨goesOn, last⟩
    exact ⟨rfl, by simpa using goesOn, by omega⟩
  · rintro ⟨-, goesOn, last⟩
    exact ⟨by simpa using goesOn, by omega⟩

theorem settle_holds (fits : s.config.Fits) {v : Verdict} {b : State} {w : World η σ} {r : Run}
    (reached : Reached s.config.maxIterations b w r) (decided : b.phase = .decision)
    (action : b.action? = some v.decision.action) :
    (s.settle v w r).Holds (Underway s.config.maxIterations) s.Ends := by
  have within := reached.course.within b (List.mem_of_getLast? reached.last)
  obtain ⟨loops, last, eq⟩ | ⟨retry, more, eq⟩ | ⟨extend, more, eq⟩ | ⟨complete, eq⟩ | ⟨halt, eq⟩ :=
    s.settle_cases fits v w r <;> rw [eq]
  · refine reached.closes (.exhausted ⟨decided, ?_, ?_⟩)
    · cases act : v.decision.action <;> simp_all [Action.loops]
    · rw [reached.iteration] at last
      omega
  · rw [reached.iteration] at more ⊢
    exact reached.leads (.retried decided (by rw [action, retry])) (by simp) more
  · rw [reached.iteration] at more ⊢
    exact reached.leads (.extended decided (by rw [action, extend])) (by simp) more
  · rw [s.ended_persist]
    refine s.persist_ready (reached.completion_ready decided (by rw [action, complete])) ?_
    intro w r reached
    exact reached.closes (.completed rfl)
  · exact reached.closes (.halted decided (by simpa [action] using halt))

theorem step_course (fits : s.config.Fits) {phase : Phase} {w : World η σ} {r : Run}
    (underway : Underway s.config.maxIterations phase w r) :
    (s.step phase w r).Holds (Underway s.config.maxIterations) s.Ends := by
  cases follows : phase.following? with
  | some next =>
    obtain ⟨d, drafted, plain, eq⟩ := s.step_onward follows w r
    have undecided : phase ≠ .decision := by rintro rfl; cases follows
    have live : next ≠ .complete := by cases phase <;> cases follows <;> simp
    have phaseEq : d.state.phase = phase := congrArg StateKey.phase drafted.key
    rw [eq]
    refine s.persist_ready (underway.ready drafted plain undecided) fun w r reached => ?_
    have within := reached.course.within _ (List.mem_of_getLast? reached.last)
    have on := reached.leads (.onward (by rw [phaseEq, follows])) live within
    rw [← reached.iteration] at on
    exact on
  | none =>
    obtain rfl : phase = .decision := by
      have live := underway.live
      cases phase <;> simp_all [Phase.following?]
    have drafted := s.decision_continues (Verdict.of s.config w.engine r) w r
    have course := underway.course_append drafted (s.isMarked_decision_iff underway.within)
    have writes : writesIn (s.decision (.of s.config w.engine r) w r).world.journal =
        (writesFor r.history).map .stored := by
      rw [drafted.worked.writesIn_eq, underway.writes]
    refine s.step_decision_holds rfl rfl (fun st _ => ?_) fun cause failed => ?_
    · refine s.persist_ready (show Draft.Ready _ [.log _] _ from ⟨course, rfl, rfl, ?_⟩) ?_
      · change writesIn (.stored (.log _) :: _) = _
        rw [writesIn_cons, writes, drafted.history]
        simp [Deed.isWrite]
      · intro w r reached
        exact s.settle_holds fits reached rfl rfl
    · exact .broken _ _ cause _ (.log _) [] [.state _] course rfl
        (by rw [writes, drafted.history, List.append_nil]) failed

theorem begin_blank (command : String) (context : Table Json) (session : Option String)
    (w : World η σ) : (s.begin command context session w).2.history = [] ∧
      (s.begin command context session w).2.iteration = 0 ∧
      (s.begin command context session w).1.journal = [] ∧
      (s.begin command context session w).1.storage = w.storage := by
  cases session <;> exact ⟨rfl, rfl, rfl, rfl⟩

theorem drive_course (valid : s.config.validate = .ok ()) (fits : s.config.Fits)
    {w : World η σ} {r : Run} (empty : r.history = []) (new : r.iteration = 0)
    (blank : w.journal = []) : s.Ends (s.drive w r) := by
  have within := (LoopConfig.of_valid valid).1
  refine s.drive_holds fits new ?_ fun _ _ _ underway => s.step_course fits underway
  refine ⟨?_, by simp, by rwa [new], fun _ => ⟨rfl, new⟩, by simp [empty], ?_⟩
  · rw [empty]
    exact .nil
  · rw [empty, blank]
    rfl

theorem outcome_ends (valid : s.config.validate = .ok ()) (fits : s.config.Fits)
    (command : String) (context : Table Json) (session : Option String) (w : World η σ) :
    s.Ends (s.outcome command context session w) := by
  obtain ⟨empty, new, blank, _⟩ := s.begin_blank command context session w
  exact s.drive_course valid fits empty new blank

end Services
end Orchestration
