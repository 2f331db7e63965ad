import Mathlib.Data.List.Chain
import Orchestration.Deed
import Orchestration.Loop.Outcome

/-! Histories as paths through the phases. A history starts with the awareness of the first
iteration, and each state leads to the next: the following phase of the same iteration, or
where its decision says. Its keys grow, so it never comes to the same place twice. -/
namespace Orchestration

def Phase.following? : Phase → Option Phase
  | awareness => some planning
  | planning => some delegation
  | delegation => some observation
  | observation => some decision
  | decision | complete => none

namespace State

def isMarked (s : State) : Bool := Table.contains s.metadata RunResult.exhaustedKey

def action? (a : State) : Option Action := a.decision.map (·.action)

/-- A state leads to a phase of an iteration: the following one, unless a decision was
taken. -/
inductive LeadsTo (a : State) : Phase → Nat → Prop
  | onward {next : Phase} (follows : a.phase.following? = some next) : LeadsTo a next a.iteration
  | retried (decided : a.phase = .decision) (action : a.action? = some .retry) :
    LeadsTo a .delegation (a.iteration + 1)
  | extended (decided : a.phase = .decision) (action : a.action? = some .extendPlan) :
    LeadsTo a .planning (a.iteration + 1)
  | completed (decided : a.phase = .decision) (action : a.action? = some .complete) :
    LeadsTo a .complete a.iteration

def Exhausts (limit : Nat) (a : State) : Prop :=
  a.phase = .decision ∧ (a.action? = some .retry ∨ a.action? = some .extendPlan) ∧
    a.iteration + 1 = limit

inductive Closes (limit : Nat) (a : State) : Prop
  | completed (complete : a.phase = .complete)
  | halted (decided : a.phase = .decision)
    (action : a.action? = some .escalate ∨ a.action? = some .unrecognized)
  | exhausted (last : a.Exhausts limit)

def mirrors (a : State) : List DecisionLog :=
  if a.phase = .decision then (DecisionLog.ofState? a).toList else []

def writes (a : State) : List Record := a.mirrors.map .log ++ [.state a]

theorem LeadsTo.place_lt {a : State} {phase : Phase} {iteration : Nat}
    (leads : a.LeadsTo phase iteration) :
    a.iteration < iteration ∨ a.iteration = iteration ∧ a.phase.ordinal < phase.ordinal := by
  cases leads with
  | onward follows =>
    refine .inr ⟨rfl, ?_⟩
    revert follows
    cases a.phase <;> cases phase <;> simp [Phase.following?, Phase.ordinal]
  | retried => exact .inl (Nat.lt_succ_self _)
  | extended => exact .inl (Nat.lt_succ_self _)
  | completed decided => exact .inr ⟨rfl, by rw [decided]; decide⟩

theorem LeadsTo.phase_ne_complete {a : State} {phase : Phase} {iteration : Nat}
    (leads : a.LeadsTo phase iteration) : a.phase ≠ .complete := by
  intro complete
  cases leads with
  | onward follows => rw [complete] at follows; cases follows
  | retried decided | extended decided | completed decided => simp [complete] at decided

theorem logged_of_action {a : State} {action : Action} (taken : a.action? = some action) :
    ∃ log, DecisionLog.ofState? a = some log := by
  obtain ⟨d, decision, _⟩ := Option.map_eq_some_iff.mp taken
  exact ⟨_, by rw [DecisionLog.ofState?, decision]; rfl⟩

theorem LeadsTo.logged {a : State} {phase : Phase} {iteration : Nat}
    (leads : a.LeadsTo phase iteration) (decided : a.phase = .decision) :
    ∃ log, DecisionLog.ofState? a = some log := by
  cases leads with
  | onward follows => rw [decided] at follows; cases follows
  | retried _ action | extended _ action | completed _ action => exact logged_of_action action

theorem Closes.logged {a : State} {limit : Nat} (closes : a.Closes limit)
    (decided : a.phase = .decision) : ∃ log, DecisionLog.ofState? a = some log := by
  cases closes with
  | completed complete => rw [complete] at decided; cases decided
  | halted _ action => rcases action with action | action <;> exact logged_of_action action
  | exhausted last => rcases last.2.1 with action | action <;> exact logged_of_action action

theorem LeadsTo.not_exhausts {a : State} {limit : Nat} {phase : Phase} {iteration : Nat}
    (leads : a.LeadsTo phase iteration) (within : iteration < limit) : ¬a.Exhausts limit := by
  rintro ⟨decided, action, last⟩
  cases leads with
  | onward follows => rw [decided] at follows; cases follows
  | retried | extended => omega
  | completed _ complete => rw [complete] at action; simp at action

end State

/-- The iterations that were decided on by the time of a state. -/
def State.decided (a : State) : Nat :=
  if a.phase.ordinal < Phase.decision.ordinal then a.iteration else a.iteration + 1

theorem State.mirrors_iteration {b : State}
    (logged : b.phase = .decision → ∃ log, DecisionLog.ofState? b = some log) :
    b.mirrors.map (·.iteration) = if b.phase = .decision then [b.iteration] else [] := by
  unfold mirrors
  split
  · rename_i decided
    obtain ⟨log, mirrored⟩ := logged decided
    obtain ⟨d, _, rfl⟩ := Option.map_eq_some_iff.mp mirrored
    rw [mirrored]
    rfl
  · rfl

structure Course (session : String) (limit : Nat) (history : List State) : Prop where
  starts : ∀ a ∈ history.head?, a.phase = .awareness ∧ a.iteration = 0
  goes : history.IsChain fun a b => a.LeadsTo b.phase b.iteration
  session : ∀ a ∈ history, a.session = session
  within : ∀ a ∈ history, a.iteration < limit
  marks : ∀ a ∈ history, a.isMarked = true ↔ a.Exhausts limit

namespace Course

variable {session : String} {limit : Nat} {history : List State}

theorem nil : Course session limit [] :=
  ⟨by simp, .nil, by simp, by simp, by simp⟩

theorem append (course : Course session limit history) {b : State}
    (first : history = [] → b.phase = .awareness ∧ b.iteration = 0)
    (leads : ∀ a ∈ history.getLast?, a.LeadsTo b.phase b.iteration)
    (ofSession : b.session = session) (within : b.iteration < limit)
    (mark : b.isMarked = true ↔ b.Exhausts limit) : Course session limit (history ++ [b]) where
  starts := by
    cases history with
    | nil => simpa using first rfl
    | cons a rest => exact course.starts
  goes := List.isChain_append.mpr ⟨course.goes, .singleton b, by simpa using leads⟩
  session := by simpa [or_imp, forall_and] using ⟨course.session, ofSession⟩
  within := by simpa [or_imp, forall_and] using ⟨course.within, within⟩
  marks := by simpa [or_imp, forall_and] using ⟨course.marks, mark⟩

theorem left {rest : List State} (course : Course session limit (history ++ rest)) :
    Course session limit history where
  starts a head := course.starts a (by
    cases history with
    | nil => cases head
    | cons => exact head)
  goes := course.goes.left_of_append
  session a member := course.session a (List.mem_append_left _ member)
  within a member := course.within a (List.mem_append_left _ member)
  marks a member := course.marks a (List.mem_append_left _ member)

theorem increasing (course : Course session limit history) :
    history.Pairwise fun a b => StateKey.placeLt a.key b.key = true := by
  have : Trans (fun a b : State => StateKey.placeLt a.key b.key = true)
      (fun a b : State => StateKey.placeLt a.key b.key = true)
      (fun a b : State => StateKey.placeLt a.key b.key = true) :=
    ⟨fun first second => StateKey.placeLt_trans first second⟩
  refine List.IsChain.pairwise (course.goes.imp ?_)
  intro a b leads
  exact (StateKey.placeLt_iff a.key b.key).mpr leads.place_lt

theorem leads_on {b : State} (course : Course session limit (history ++ [b])) :
    ∀ a ∈ history, ∃ c ∈ history ++ [b], a.LeadsTo c.phase c.iteration := by
  intro a member
  obtain ⟨front, rest, rfl⟩ := List.append_of_mem member
  cases next : rest ++ [b] with
  | nil => simp at next
  | cons c more =>
    have goes := course.goes
    rw [List.append_assoc, List.cons_append, next] at goes
    refine ⟨c, ?_, (List.isChain_append_cons_cons.mp goes).2.1⟩
    rw [List.append_assoc, List.cons_append, next]
    simp

theorem unmarked {b : State} (course : Course session limit (history ++ [b])) :
    ∀ a ∈ history, a.phase ≠ .complete ∧ a.isMarked = false := by
  intro a member
  obtain ⟨c, later, leads⟩ := course.leads_on a member
  refine ⟨leads.phase_ne_complete, Bool.eq_false_iff.mpr fun mark => ?_⟩
  have exhausts := (course.marks a (List.mem_append_left _ member)).mp mark
  exact leads.not_exhausts (course.within c later) exhausts

theorem logged {b : State} (course : Course session limit (history ++ [b])) :
    ∀ a ∈ history, a.phase = .decision → ∃ log, DecisionLog.ofState? a = some log := by
  intro a member decided
  obtain ⟨c, _, leads⟩ := course.leads_on a member
  exact leads.logged decided

theorem logs_in_turn {b : State} (course : Course session limit (history ++ [b]))
    (logged : b.phase = .decision → ∃ log, DecisionLog.ofState? b = some log) :
    ((history ++ [b]).flatMap State.mirrors).map (·.iteration) = List.range b.decided := by
  induction history using List.reverseRecOn generalizing b with
  | nil =>
    obtain ⟨awareness, first⟩ := course.starts b rfl
    have none := State.mirrors_iteration logged
    rw [awareness, if_neg (by decide)] at none
    simpa [State.decided, awareness, first, Phase.ordinal] using none
  | append_singleton front a ih =>
    have before := ih course.left (course.logged a (by simp))
    have goes := course.goes
    rw [List.append_assoc] at goes
    have leads : a.LeadsTo b.phase b.iteration := (List.isChain_append_cons_cons.mp goes).2.1
    rw [List.flatMap_append, List.map_append, before, List.flatMap_singleton,
      State.mirrors_iteration logged]
    unfold State.decided
    generalize b.phase = phase at leads
    generalize b.iteration = iteration at leads
    cases leads with
    | onward follows =>
      cases here : a.phase <;> rw [here] at follows <;> cases follows <;>
        simp [Phase.ordinal, List.range_succ]
    | retried decided | extended decided | completed decided =>
      simp [decided, Phase.ordinal]

end Course

def writesFor (history : List State) : List Record := history.flatMap State.writes

theorem writesFor_append (history : List State) (a : State) :
    writesFor (history ++ [a]) = writesFor history ++ a.writes := by
  simp [writesFor]

end Orchestration
