import Orchestration.Proofs.Phases

/-! The dispatches of a run, as its journal tells them. Only a delegation hands steps on: one
dispatch for each step of its plan, in order. Whatever else a run asks, publishes or writes
adds none. -/
namespace Orchestration

variable {η σ α : Type}

def Deed.dispatch? : Deed → Option Dispatch
  | dispatch d => some d
  | _ => none

namespace World

def dispatches (w : World η σ) : List Dispatch := w.journal.reverse.filterMap Deed.dispatch?

theorem mem_dispatches {w : World η σ} {d : Dispatch} :
    d ∈ w.dispatches ↔ .dispatch d ∈ w.journal := by
  unfold dispatches
  rw [List.mem_filterMap]
  constructor
  · rintro ⟨deed, member, same⟩
    cases deed <;> cases same
    exact List.mem_reverse.mp member
  · intro member
    exact ⟨_, List.mem_reverse.mpr member, rfl⟩

theorem dispatches_note (d : Deed) (w : World η σ) :
    (w.note d).dispatches = w.dispatches ++ d.dispatch?.toList := by
  unfold dispatches note
  rw [List.reverse_cons, List.filterMap_append]
  cases found : d.dispatch? <;> simp [found]

theorem Undisturbed.dispatches {v w : World η σ} (same : Undisturbed v w) :
    w.dispatches = v.dispatches := by
  unfold World.dispatches
  rw [same.journal]

theorem dispatches_written (rec : Record) (st : Storage) (w : World η σ) :
    (w.written rec st).dispatches = w.dispatches :=
  (dispatches_note (.stored rec) _).trans (List.append_nil _)

theorem dispatches_refused (rec : Record) (cause : Interruption) (w : World η σ) :
    (w.note (.refused rec cause)).dispatches = w.dispatches :=
  (dispatches_note _ w).trans (List.append_nil _)

end World

namespace Services

variable (s : Services η σ)

theorem ask_dispatches (d : Deed) (a : Reaction η σ α) (w : World η σ) :
    (s.ask d a w).2.dispatches = w.dispatches ++ d.dispatch?.toList := by
  rw [← World.dispatches_note]
  exact (World.call_undisturbed s.toHandlers a (w.note d)).dispatches

theorem awareness_dispatches (w : World η σ) (r : Run) :
    (s.awareness w r).world.dispatches = w.dispatches :=
  (s.ask_dispatches (.classify r.command r.context) _ w).trans (List.append_nil _)

theorem planning_dispatches (w : World η σ) (r : Run) :
    (s.planning w r).world.dispatches = w.dispatches :=
  (s.ask_dispatches (.plan r.command r.classification r.planningContext) _ w).trans
    (List.append_nil _)

theorem delegateAll_dispatches (r : Run) (steps : List PlanStep) (w : World η σ) :
    (s.delegateAll r steps w).2.dispatches =
      w.dispatches ++ steps.map (r.dispatchOf s.config.taskTimeout) := by
  induction steps generalizing w with
  | nil => simp [delegateAll]
  | cons step rest ih =>
    have first := s.ask_dispatches (.dispatch (r.dispatchOf s.config.taskTimeout step))
      (s.dispatch (r.dispatchOf s.config.taskTimeout step)) w
    unfold delegateAll
    dsimp only
    rw [ih, first]
    simp [Deed.dispatch?]

theorem delegation_dispatches (w : World η σ) (r : Run) :
    (s.delegation w r).world.dispatches =
      w.dispatches ++ r.plan.map (r.dispatchOf s.config.taskTimeout) := by
  have rested : (s.backOff w r.pause).dispatches = w.dispatches :=
    (World.pass_undisturbed s.toHandlers _ w).dispatches
  rw [← rested]
  exact s.delegateAll_dispatches { r with pause := 0 } r.plan (s.backOff w r.pause)

theorem known_dispatches (d : Delegation) (w : World η σ) :
    (s.known d w).2.dispatches = w.dispatches := by
  have asked (status : String → Reaction η σ (Option Json)) :
      (s.ask (.status d.task) (status d.task) w).2.dispatches = w.dispatches :=
    (s.ask_dispatches _ _ w).trans (List.append_nil _)
  unfold known
  split
  · rfl
  · split
    · rfl
    · rename_i status _
      have same := asked status
      split <;> rename_i heq <;> rw [heq] at same
      · split <;> exact same
      · exact same

theorem prefill_dispatches (session : String) (ds : List Delegation) (w : World η σ) :
    (s.prefill session ds w).2.dispatches = w.dispatches := by
  induction ds generalizing w with
  | nil => rfl
  | cons d rest ih =>
    have same := s.known_dispatches d w
    unfold prefill
    split <;> rename_i heq <;> rw [heq] at same
    · exact (ih _).trans same
    · exact (ih _).trans same

theorem summarize_dispatches (w : World η σ) (r : Run) :
    (s.summarize w r).2.dispatches = w.dispatches := by
  unfold summarize
  split
  · rfl
  · have filled := s.prefill_dispatches r.session r.delegations w
    have collected := (World.collect_undisturbed s.toHandlers r.session
      (s.prefill r.session r.delegations w).1 (s.config.observationTimeout * 1000) r.fanIn
      (s.prefill r.session r.delegations w).2).dispatches
    dsimp only
    split <;> rename_i heq <;> rw [heq] at collected <;> exact collected.trans filled

theorem observation_dispatches (w : World η σ) (r : Run) :
    (s.observation w r).world.dispatches = w.dispatches := by
  have summed := s.summarize_dispatches w r
  have noted (m : Message) (v : World η σ) : (s.announce m v).dispatches = v.dispatches :=
    (World.publish_undisturbed s.toHandlers m (v.note (.publish m))).dispatches.trans
      ((World.dispatches_note _ v).trans (List.append_nil _))
  exact (noted (.summary r.session r.iteration (s.summarize w r).1) _).trans summed

end Services
end Orchestration
