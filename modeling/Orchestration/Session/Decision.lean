import Orchestration.Fault
import Orchestration.Json.Fields

/-! Phases of the loop, the actions it may decide on, and how an action is judged. -/
namespace Orchestration

inductive Phase where
  | awareness | planning | delegation | observation | decision | complete
  deriving DecidableEq, Inhabited

namespace Phase

def ordinal : Phase → Nat
  | awareness => 0
  | planning => 1
  | delegation => 2
  | observation => 3
  | decision => 4
  | complete => 5

def text : Phase → String
  | awareness => "awareness"
  | planning => "planning"
  | delegation => "delegation"
  | observation => "observation"
  | decision => "decision"
  | complete => "complete"

def read? : String → Option Phase
  | "awareness" => some awareness
  | "planning" => some planning
  | "delegation" => some delegation
  | "observation" => some observation
  | "decision" => some decision
  | "complete" => some complete
  | _ => none

def read (name : String) : Except Fault Phase :=
  match read? name with
  | some p => .ok p
  | none => .error (.unknownPhase name)

def toJson (p : Phase) : Json := .str p.text

def ofJson? (j : Json) : Option Phase := j.variant?.bind read?

theorem read?_text (p : Phase) : read? p.text = some p := by cases p <;> rfl

end Phase

inductive Outcome where
  | success | failure | «partial»
  deriving DecidableEq, Inhabited

namespace Outcome

def text : Outcome → String
  | success => "success"
  | failure => "failure"
  | «partial» => "partial"

def read? : String → Option Outcome
  | "success" => some success
  | "failure" => some failure
  | "partial" => some «partial»
  | _ => none

def read (name : String) : Except Fault Outcome :=
  match read? name with
  | some o => .ok o
  | none => .error (.unknownOutcome name)

def toJson (o : Outcome) : Json := .str o.text

def ofJson? (j : Json) : Option Outcome := j.variant?.bind read?

end Outcome

inductive Action where
  | complete | retry | extendPlan | escalate
  /-- an action of another name, on which the loop halts -/
  | unrecognized
  deriving DecidableEq, Inhabited

namespace Action

def text : Action → String
  | complete => "complete"
  | retry => "retry"
  | extendPlan => "extend_plan"
  | escalate => "escalate"
  | unrecognized => "unrecognized"

def ofName : String → Action
  | "complete" => complete
  | "retry" => retry
  | "extend_plan" => extendPlan
  | "escalate" => escalate
  | _ => unrecognized

def outcome : Action → Outcome
  | complete => .success
  | retry | extendPlan => .partial
  | escalate | unrecognized => .failure

def loops : Action → Bool
  | retry | extendPlan => true
  | _ => false

def nextPhase? : Action → Option Phase
  | complete => some .complete
  | retry => some .delegation
  | extendPlan => some .planning
  | escalate | unrecognized => none

def toJson (a : Action) : Json := .str a.text

def ofJson? (j : Json) : Option Action := j.variant?.map ofName

end Action

structure Decision where
  action : Action
  reason : Option String
  /-- the phase the loop goes on with, if it does -/
  nextPhase : Option Phase
  deriving DecidableEq, Inhabited

namespace Decision

def of (action : Action) (reason : Option String) : Decision :=
  ⟨action, reason, action.nextPhase?⟩

def toJson (d : Decision) : Json :=
  .record [("action", d.action.toJson), ("reason", .ofOption .str d.reason),
    ("next_phase", .ofOption Phase.toJson d.nextPhase)]

def ofJson? (j : Json) : Option Decision := do
  let f ← Fields.of? ["action", "reason", "next_phase"] j
  let action ← f.required "action" Action.ofJson?
  let reason ← f.optional "reason" Json.string?
  let nextPhase ← f.optional "next_phase" Phase.ofJson?
  return ⟨action, reason, nextPhase⟩

end Decision
end Orchestration
