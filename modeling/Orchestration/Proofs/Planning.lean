import Mathlib.Data.List.Nodup
import Orchestration.Plan.Check
import Orchestration.Plan.Planner

/-! Plans in turn, in which every step is new and depends only on steps before it. The ready-made
planners make no other plans: a stage depends on the one before it, and has an id of its own by its
position, whatever its role. -/
namespace Orchestration.Plan

inductive InTurn : List String → List PlanStep → Prop
  | nil (known : List String) : InTurn known []
  | cons {known : List String} {step : PlanStep} {rest : List PlanStep} (new : step.id ∉ known)
    (relies : ∀ d ∈ step.dependencies, d ∈ known) (onward : InTurn (step.id :: known) rest) :
    InTurn known (step :: rest)

namespace InTurn

variable {known : List String} {steps : List PlanStep}

theorem apart (turn : InTurn known steps) : ∀ id ∈ ids steps, id ∉ known := by
  induction turn with
  | nil => simp [ids]
  | cons new _ _ ih =>
    intro id member
    rcases List.mem_cons.mp member with rfl | later
    · exact new
    · exact fun old => ih id later (List.mem_cons_of_mem _ old)

theorem nodup (turn : InTurn known steps) : (ids steps).Nodup := by
  induction turn with
  | nil => exact List.nodup_nil
  | cons _ _ onward ih =>
    exact List.nodup_cons.mpr ⟨fun later => onward.apart _ later List.mem_cons_self, ih⟩

theorem relies_within (turn : InTurn known steps) :
    ∀ s ∈ steps, ∀ d ∈ s.dependencies, d ∈ known ∨ d ∈ ids steps := by
  induction turn with
  | nil => simp
  | @cons known step rest _ relies _ ih =>
    intro s member d depends
    have split : ids (step :: rest) = step.id :: ids rest := rfl
    rw [split]
    rcases List.mem_cons.mp member with rfl | later
    · exact .inl (relies d depends)
    · rcases ih s later d depends with before | within
      · rcases List.mem_cons.mp before with rfl | old
        · exact .inr List.mem_cons_self
        · exact .inl old
      · exact .inr (List.mem_cons_of_mem _ within)

end InTurn

theorem dependencies_of_mem {steps : List PlanStep} (distinct : (ids steps).Nodup)
    {s : PlanStep} (member : s ∈ steps) : dependencies steps s.id = s.dependencies := by
  have found : steps.find? (fun t => t.id = s.id) = some s := by
    induction steps with
    | nil => cases member
    | cons t rest ih =>
      obtain ⟨new, apart⟩ := List.nodup_cons.mp distinct
      rcases List.mem_cons.mp member with rfl | later
      · simp
      · have other : t.id ≠ s.id := by
          intro same
          have again : s.id ∈ ids rest := List.mem_map_of_mem later
          rw [← same] at again
          exact new again
        rw [List.find?_cons_of_neg (by simpa using other)]
        exact ih apart later
  rw [dependencies, found]
  rfl

theorem single_inTurn (command delegate : String) : InTurn [] (single command delegate) :=
  .cons (by simp) (by simp [PlanStep.of]) (.nil _)

theorem stageId_toList (position : Nat) (role : String) :
    (stageId position role).toList = Nat.toDigits 10 position ++ '-' :: role.toList := by
  simp [stageId, toString]

/-- The position can be read off the id of a stage: it is what stands before the first mark. -/
theorem stageId_position {p q : Nat} {role other : String}
    (same : stageId p role = stageId q other) : p = q := by
  have digits (n : Nat) (text : String) :
      (stageId n text).toList.takeWhile Char.isDigit = Nat.toDigits 10 n := by
    rw [stageId_toList, List.takeWhile_append_of_pos, List.takeWhile_cons_of_neg (by decide),
      List.append_nil]
    intro c member
    exact Nat.isDigit_of_mem_toDigits (by decide) (by decide) member
  have written : Nat.toDigits 10 p = Nat.toDigits 10 q := by
    rw [← digits p role, ← digits q other, same]
  calc p = Nat.ofDigitChars 10 (Nat.toDigits 10 p) 0 :=
        (Nat.ofDigitChars_toDigits (by decide) (by decide)).symm
    _ = Nat.ofDigitChars 10 (Nat.toDigits 10 q) 0 := by rw [written]
    _ = q := Nat.ofDigitChars_toDigits (by decide) (by decide)

theorem staged_go_inTurn (command risk : String) {position : Nat} {previous known : List String}
    (old : ∀ id ∈ known, ∃ p role, p < position ∧ id = stageId p role)
    (relies : ∀ d ∈ previous, d ∈ known) (roles : List String) :
    InTurn known (staged.go command risk position previous roles) := by
  induction roles generalizing position previous known with
  | nil => exact .nil known
  | cons role rest ih =>
    refine .cons ?_ relies (ih ?_ ?_)
    · intro before
      obtain ⟨p, other, less, same⟩ := old _ before
      exact Nat.ne_of_gt less (stageId_position same)
    · intro id member
      rcases List.mem_cons.mp member with rfl | before
      · exact ⟨position, role, Nat.lt_succ_self _, rfl⟩
      · obtain ⟨p, other, less, same⟩ := old id before
        exact ⟨p, other, Nat.lt_succ_of_lt less, same⟩
    · intro d depends
      rw [List.mem_singleton.mp depends]
      exact List.mem_cons_self

theorem staged_inTurn (command risk : String) (roles : List String) :
    InTurn [] (staged command risk roles) :=
  staged_go_inTurn command risk (by simp) (by simp) roles

theorem length_staged_go (command risk : String) (position : Nat) (previous roles : List String) :
    (staged.go command risk position previous roles).length = roles.length := by
  induction roles generalizing position previous with
  | nil => rfl
  | cons role rest ih => exact congrArg Nat.succ (ih _ _)

end Orchestration.Plan
