import Orchestration.Json.Fields
import Orchestration.Json.Printer

/-! Commands, as they are classified, planned and handed on. -/
namespace Orchestration

/-- What kind of command it is, how far it reaches, and how risky it is; a classifier may
add fields of its own. -/
structure Classification where
  kind : String
  scope : String
  risk : String
  extra : Table Json
  deriving Inhabited

namespace Classification

/-- The cautious classification that stands in for a missing one. -/
def generic : Classification := ⟨"generic", "single-step", "safe", []⟩

def fieldNames : List String := ["type", "scope", "risk"]

def toJson (c : Classification) : Json :=
  .record ([("type", .str c.kind), ("scope", .str c.scope), ("risk", .str c.risk)] ++ c.extra)

def ofJson? (j : Json) : Option Classification := do
  let f ← Fields.named? fieldNames j
  let kind ← f.required "type" Json.string?
  let scope ← f.required "scope" Json.string?
  let risk ← f.required "risk" Json.string?
  return ⟨kind, scope, risk, f.others fieldNames⟩

end Classification

structure PlanStep where
  id : String
  objective : String
  /-- the role that is to carry the step out -/
  delegate : String
  dependencies : List String
  risk : String
  deriving DecidableEq, Inhabited

namespace PlanStep

def defaultRisk : String := "safe"

def of (id objective delegate : String) : PlanStep := ⟨id, objective, delegate, [], defaultRisk⟩

def toJson (s : PlanStep) : Json :=
  .record [("step_id", .str s.id), ("objective", .str s.objective),
    ("delegate_to", .str s.delegate), ("dependencies", .strings s.dependencies),
    ("risk", .str s.risk)]

def ofJson? (j : Json) : Option PlanStep := do
  let f ← Fields.of? ["step_id", "objective", "delegate_to", "dependencies", "risk"] j
  let id ← f.required "step_id" Json.string?
  let objective ← f.required "objective" Json.string?
  let delegate ← f.required "delegate_to" Json.string?
  let dependencies ← f.defaulted "dependencies" Json.strings? []
  let risk ← f.defaulted "risk" Json.string? defaultRisk
  return ⟨id, objective, delegate, dependencies, risk⟩

def listToJson (steps : List PlanStep) : Json := .arr (steps.map toJson)

def list? (j : Json) : Option (List PlanStep) := Json.listOf? ofJson? j

end PlanStep

/-- The record of one step handed on, or kept back because it could not be. -/
structure Delegation where
  task : String
  step : String
  delegate : String
  objective : String
  dispatched : Bool
  error : Option String
  deriving DecidableEq, Inhabited

namespace Delegation

def toJson (d : Delegation) : Json :=
  .record ([("task_id", .str d.task), ("step_id", .str d.step), ("delegate_to", .str d.delegate),
    ("objective", .str d.objective), ("dispatched", .bool d.dispatched)] ++
    match d.error with
    | none => []
    | some e => [("error", .str e)])

def ofJson? (j : Json) : Option Delegation := do
  let f ← Fields.of? ["task_id", "step_id", "delegate_to", "objective", "dispatched", "error"] j
  let task ← f.required "task_id" Json.string?
  let step ← f.required "step_id" Json.string?
  let delegate ← f.required "delegate_to" Json.string?
  let objective ← f.required "objective" Json.string?
  let dispatched ← f.required "dispatched" Json.bool?
  let error ← f.optional "error" Json.string?
  return ⟨task, step, delegate, objective, dispatched, error⟩

def listToJson (ds : List Delegation) : Json := .arr (ds.map toJson)

def list? (j : Json) : Option (List Delegation) := Json.listOf? ofJson? j

end Delegation
end Orchestration
