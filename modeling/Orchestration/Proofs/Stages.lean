import Orchestration.Proofs.Attempts

/-! Plans in stages. Whatever the roles are called, and however often one comes, there is a step for
each of them, and each step waits for the one before it. Such a plan passes validation, so the loop
takes it as it is. -/
namespace Orchestration

namespace Plan

variable (command risk : String)

theorem carried_staged_go (position : Nat) (previous roles : List String) :
    (staged.go command risk position previous roles).map
        (fun s => (s.delegate, s.objective, s.risk)) =
      roles.map fun role => (role, s!"{role}: {command}", risk) := by
  induction roles generalizing position previous with
  | nil => rfl
  | cons role rest ih => rw [staged.go, List.map_cons, List.map_cons, ih]

theorem ids_staged_go (position : Nat) (previous roles : List String) :
    ids (staged.go command risk position previous roles) =
      roles.mapIdx fun i role => stageId (position + i) role := by
  induction roles generalizing position previous with
  | nil => rfl
  | cons role rest ih =>
    have later : ids (staged.go command risk (position + 1) [stageId position role] rest) =
        rest.mapIdx fun i role => stageId (position + (i + 1)) role := by
      rw [ih]
      simp only [Nat.add_assoc, Nat.add_comm 1]
    rw [List.mapIdx_cons, ← later]
    rfl

theorem dependencies_head_staged_go (position : Nat) (previous roles : List String) :
    ∀ s ∈ (staged.go command risk position previous roles).head?, s.dependencies = previous := by
  cases roles with
  | nil => simp [staged.go]
  | cons role rest => simp [staged.go]

theorem isChain_staged_go (position : Nat) (previous roles : List String) :
    (staged.go command risk position previous roles).IsChain
      fun a b => b.dependencies = [a.id] := by
  induction roles generalizing position previous with
  | nil => exact .nil
  | cons role rest ih =>
    exact List.isChain_cons.mpr ⟨dependencies_head_staged_go command risk _ _ rest, ih _ _⟩

theorem staged_ne_nil {roles : List String} (some : roles ≠ []) : staged command risk roles ≠ [] := by
  rw [← List.length_pos_iff, staged, length_staged_go]
  exact List.length_pos_iff.mpr some

theorem staged_ne_single (roles : List String) (delegate : String) :
    staged command risk roles ≠ single command delegate := by
  intro same
  cases roles with
  | nil => cases same
  | cons role rest =>
    -- The id of a stage begins with a digit, that of the single step with a letter.
    have named : stageId 1 role = "step-1" := congrArg PlanStep.id (List.cons.inj same).1
    have spelled : '1' :: '-' :: role.toList = "step-1".toList := by
      rw [← named, stageId_toList]
      rfl
    exact absurd (List.cons.inj spelled).1 (by decide)

end Plan

namespace Services

variable {η σ : Type} (s : Services η σ)

def staging (roles : List String) : Services η σ :=
  { s with plan := fun command c _ => return Plan.staged command c.risk roles }

theorem planning_staging {roles : List String} (some : roles ≠ []) (w : World η σ) (r : Run) :
    ((s.staging roles).planning w r).run.plan =
      Plan.staged r.command r.classification.risk roles := by
  have made : (s.staging roles).plan r.command r.classification r.planningContext =
      pure (Plan.staged r.command r.classification.risk roles) := rfl
  unfold planning
  rw [made, ask_pure]
  exact planFrom_inTurn (Plan.staged_inTurn _ _ roles) (Plan.staged_ne_nil _ _ some) r

/-- The stages of some roles are one step for each role, in their order, under the ids of their
positions; the first depends on nothing and every other one on just the step before it. They pass
validation. Where there is any role, a planning by stages makes them the plan of the run, and never
falls back to the single step. -/
theorem stages_planned (command risk : String) (roles : List String) :
    let steps := Plan.staged command risk roles
    steps.map (fun step => (step.delegate, step.objective, step.risk)) =
      roles.map (fun role => (role, s!"{role}: {command}", risk)) ∧
    Plan.ids steps = roles.mapIdx (fun i role => Plan.stageId (i + 1) role) ∧
    (Plan.ids steps).Nodup ∧
    (∀ step ∈ steps.head?, step.dependencies = []) ∧
    steps.IsChain (fun before step => step.dependencies = [before.id]) ∧
    Plan.validate steps = .ok () ∧
    (roles ≠ [] → ∀ (w : World η σ) (r : Run),
      let planned := (s.staging roles).planning w r
      planned.run.plan = Plan.staged r.command r.classification.risk roles ∧
      planned.state.plan = some planned.run.plan ∧
      planned.run.plan ≠ Plan.single r.command defaultDelegate) := by
  intro steps
  have turn : Plan.InTurn [] steps := Plan.staged_inTurn command risk roles
  refine ⟨Plan.carried_staged_go .., ?_, turn.nodup,
    Plan.dependencies_head_staged_go command risk 1 [] roles, Plan.isChain_staged_go ..,
    turn.validate, fun some w r => ?_⟩
  · change Plan.ids (Plan.staged.go command risk 1 [] roles) = _
    rw [Plan.ids_staged_go]
    simp only [Nat.add_comm 1]
  · intro planned
    have taken : planned.run.plan = _ := s.planning_staging some w r
    refine ⟨taken, rfl, ?_⟩
    rw [taken]
    exact Plan.staged_ne_single r.command r.classification.risk roles defaultDelegate

def oddRoles : List String := ["1-a", "", "1-a", "2"]

theorem oddRoles_planned :
    oddRoles ≠ [] ∧
      Plan.ids (Plan.staged "go" "safe" oddRoles) = ["1-1-a", "2-", "3-1-a", "4-2"] ∧
      Plan.validate (Plan.staged "go" "safe" oddRoles) = .ok () ∧
      ((alone.staging oddRoles).planning (.initial ()) (.start "s" "c" "go" [] .default)).state.plan =
        some (Plan.staged "go" "safe" oddRoles) := by
  have some : oddRoles ≠ [] := by decide
  obtain ⟨-, named, -, -, -, valid, plans⟩ := alone.stages_planned "go" "safe" oddRoles
  obtain ⟨plan, kept, -⟩ := plans some (.initial ()) (.start "s" "c" "go" [] .default)
  exact ⟨some, named.trans (by decide), valid, kept.trans (congrArg Option.some plan)⟩

end Services
end Orchestration
