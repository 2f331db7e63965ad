import Orchestration.Loop.Execute
import Orchestration.Proofs.Undisturbed

/-! What each phase does, stated once. A phase works in the world without a write, and comes
to a draft of the state under its own key; the draft is then stored, or the run is stopped
with the world as it was. -/
namespace Orchestration

variable {η σ α : Type}

structure World.Worked (v w : World η σ) : Prop where
  storage : w.storage = v.storage
  engine : w.engine = v.engine
  journal : ∃ deeds, w.journal = deeds ++ v.journal ∧ ∀ d ∈ deeds, d.isWrite = false

namespace World.Worked

theorem refl (w : World η σ) : Worked w w := ⟨rfl, rfl, [], rfl, by simp⟩

theorem trans {u v w : World η σ} (first : Worked u v) (second : Worked v w) : Worked u w := by
  obtain ⟨old, before, reads⟩ := first.journal
  obtain ⟨new, after, more⟩ := second.journal
  refine ⟨second.storage.trans first.storage, second.engine.trans first.engine, new ++ old, ?_, ?_⟩
  · rw [after, before, List.append_assoc]
  · intro d member
    exact (List.mem_append.mp member).elim (more d) (reads d)

theorem of_undisturbed {v w : World η σ} (same : World.Undisturbed v w) : Worked v w :=
  ⟨same.storage, same.engine, [], same.journal, by simp⟩

theorem note {d : Deed} (reads : d.isWrite = false) (w : World η σ) : Worked w (w.note d) :=
  ⟨rfl, rfl, [d], rfl, by simpa using reads⟩

theorem time (w : World η σ) : Worked w w.time.2 := ⟨rfl, rfl, [], rfl, by simp⟩

theorem hold (session : String) (o : Observation) (w : World η σ) :
    Worked w (w.hold session o) := ⟨rfl, rfl, [], rfl, by simp⟩

end World.Worked

def World.written (rec : Record) (st : Storage) (w : World η σ) : World η σ :=
  { w with storage := st }.note (.stored rec)

def Run.stored (state : State) (r : Run) : Run := { r with history := r.history ++ [state] }

/-- A draft of a phase, made in a world for a run: its state bears the key of the phase, and
the run keeps its place and its history. -/
structure Draft.Continues (w : World η σ) (r : Run) (phase : Phase) (d : Draft η σ) : Prop where
  worked : World.Worked w d.world
  session : d.run.session = r.session
  iteration : d.run.iteration = r.iteration
  history : d.run.history = r.history
  key : d.state.key = ⟨r.session, r.iteration, phase⟩

namespace Services

variable (s : Services η σ)

theorem ask_worked {d : Deed} (reads : d.isWrite = false) (a : Reaction η σ α) (w : World η σ) :
    World.Worked w (s.ask d a w).2 :=
  (World.Worked.note reads w).trans (.of_undisturbed (World.call_undisturbed _ a _))

theorem awareness_continues (w : World η σ) (r : Run) :
    (s.awareness w r).Continues w r .awareness :=
  ⟨(s.ask_worked rfl _ w).trans (.time _), rfl, rfl, rfl, rfl⟩

theorem planning_continues (w : World η σ) (r : Run) :
    (s.planning w r).Continues w r .planning :=
  ⟨(s.ask_worked rfl _ w).trans (.time _), rfl, rfl, rfl, rfl⟩

theorem delegateAll_worked (r : Run) (steps : List PlanStep) (w : World η σ) :
    World.Worked w (s.delegateAll r steps w).2 := by
  induction steps generalizing w with
  | nil => exact .refl w
  | cons step rest ih => exact (s.ask_worked rfl _ w).trans (ih _)

theorem delegation_continues (w : World η σ) (r : Run) :
    (s.delegation w r).Continues w r .delegation := by
  refine ⟨?_, rfl, rfl, rfl, rfl⟩
  have rest : World.Worked w (s.backOff w r.pause) :=
    .of_undisturbed (World.pass_undisturbed _ _ w)
  exact (rest.trans (s.delegateAll_worked _ _ _)).trans (.time _)

theorem known_worked (d : Delegation) (w : World η σ) : World.Worked w (s.known d w).2 := by
  unfold known
  split
  · exact .refl w
  · split
    · exact .refl w
    · rename_i status _
      have asked := s.ask_worked (d := .status d.task) rfl (status d.task) w
      split
      · rename_i heq
        rw [heq] at asked
        split <;> exact asked
      · rename_i heq
        rw [heq] at asked
        exact asked

theorem prefill_worked (session : String) (ds : List Delegation) (w : World η σ) :
    World.Worked w (s.prefill session ds w).2 := by
  induction ds generalizing w with
  | nil => exact .refl w
  | cons d rest ih =>
    have first := s.known_worked d w
    unfold prefill
    split
    · rename_i o v heq
      rw [heq] at first
      exact (first.trans (.hold session o v)).trans (ih _)
    · rename_i v heq
      rw [heq] at first
      exact first.trans (ih v)

theorem summarize_worked (w : World η σ) (r : Run) : World.Worked w (s.summarize w r).2 := by
  unfold summarize
  split
  · exact .refl w
  · have first := s.prefill_worked r.session r.delegations w
    have second := World.collect_undisturbed s.toHandlers r.session
      (s.prefill r.session r.delegations w).1 (s.config.observationTimeout * 1000) r.fanIn
      (s.prefill r.session r.delegations w).2
    have emptied (v : World η σ) :
        World.Worked v { v with buffer := Table.erase v.buffer r.session } :=
      ⟨rfl, rfl, [], rfl, by simp⟩
    have both := first.trans ((emptied _).trans (.of_undisturbed second))
    dsimp only
    split
    · rename_i heq
      rw [heq] at both
      exact both
    · rename_i heq
      rw [heq] at both
      exact both

theorem announce_worked (m : Message) (w : World η σ) : World.Worked w (s.announce m w) :=
  (World.Worked.note rfl w).trans (.of_undisturbed (World.publish_undisturbed _ m _))

theorem observation_continues (w : World η σ) (r : Run) :
    (s.observation w r).Continues w r .observation :=
  ⟨((s.summarize_worked w r).trans (s.announce_worked _ _)).trans (.time _), rfl, rfl, rfl, rfl⟩

theorem decision_continues (v : Verdict) (w : World η σ) (r : Run) :
    (s.decision v w r).Continues w r .decision := ⟨.time w, rfl, rfl, rfl, rfl⟩

theorem completion_continues (d : Decision) (w : World η σ) (r : Run) :
    (completion d w r).Continues w r .complete := ⟨.time w, rfl, rfl, rfl, rfl⟩

/-- A record is added by the backend, or refused for a cause that the journal tells. -/
theorem record_cases (rec : Record) (w : World η σ) (r : Run) :
    (∃ st, w.storage.add s.backend rec = .ok st ∧
      s.record rec w r = .on (w.written rec st) r) ∨
    (∃ cause, (s.keep rec w).failure? = some cause ∧
      s.record rec w r = ⟨w.note (.refused rec cause), r, some cause⟩) := by
  unfold record keep write
  cases s.strike rec.call with
  | some strike =>
    right
    cases strike with
    | fault f => exact ⟨.fault f, rfl, rfl⟩
    | panic text => exact ⟨.panic text, rfl, rfl⟩
  | none =>
    cases added : w.storage.add s.backend rec with
    | ok st => exact .inl ⟨st, rfl, by simp [added, Except.map, Answer.ofExcept, World.written]⟩
    | error f =>
      exact .inr ⟨.fault f, by simp [added, Except.map, Answer.ofExcept, Answer.failure?],
        by simp [added, Except.map, Answer.ofExcept]⟩

theorem persist_cases (d : Draft η σ) :
    (∃ st, d.world.storage.add s.backend (.state d.state) = .ok st ∧
      s.persist d = .on (d.world.written (.state d.state) st) (d.run.stored d.state)) ∨
    (∃ cause, (s.keep (.state d.state) d.world).failure? = some cause ∧
      s.persist d = ⟨d.world.note (.refused (.state d.state) cause), d.run, some cause⟩) := by
  unfold persist
  obtain ⟨st, added, eq⟩ | ⟨cause, failed, eq⟩ := s.record_cases (.state d.state) d.world d.run
  · exact .inl ⟨st, added, by rw [eq]; rfl⟩
  · exact .inr ⟨cause, failed, by rw [eq]; rfl⟩

theorem persistDecision_cases (d : Draft η σ) {log : DecisionLog}
    (mirrored : DecisionLog.ofState? d.state = some log) :
    (∃ st, d.world.storage.add s.backend (.log log) = .ok st ∧
      s.persistDecision d = s.persist ⟨d.world.written (.log log) st, d.run, d.state⟩) ∨
    (∃ cause, (s.keep (.log log) d.world).failure? = some cause ∧
      s.persistDecision d = ⟨d.world.note (.refused (.log log) cause), d.run, some cause⟩) := by
  unfold persistDecision
  rw [mirrored]
  obtain ⟨st, added, eq⟩ | ⟨cause, failed, eq⟩ := s.record_cases (.log log) d.world d.run
  · exact .inl ⟨st, added, by dsimp only; rw [eq]; rfl⟩
  · exact .inr ⟨cause, failed, by dsimp only; rw [eq]; rfl⟩

end Services
end Orchestration
