import Orchestration.Observation
import Orchestration.Plan

/-! What the conditions of a policy can refer to: the fields of a context in their JSON
form, and extra values beside them. An extra value under a field's name takes its place. -/
namespace Orchestration

structure PolicyContext where
  classification : Option Classification
  constraints : Table Json
  plan : List PlanStep
  observations : List Finding
  summary : Option Summary
  retryCount : Nat
  capabilities : List String
  extra : Table Json
  deriving Inhabited

namespace PolicyContext

def empty : PolicyContext := ⟨none, [], [], [], none, 0, [], []⟩

def withSummary (c : PolicyContext) (s : Summary) : PolicyContext :=
  { c with observations := s.findings, summary := some s }

def withExtra (c : PolicyContext) (key : String) (value : Json) : PolicyContext :=
  { c with extra := Table.put c.extra key value }

def toJson (c : PolicyContext) : Json :=
  .record ([("classification", .ofOption Classification.toJson c.classification),
    ("constraints", .obj c.constraints), ("plan", PlanStep.listToJson c.plan),
    ("observations", Finding.listToJson c.observations),
    ("observation_summary", .ofOption Summary.toJson c.summary),
    ("retry_count", .nat c.retryCount), ("capability_registry", .strings c.capabilities)] ++
    c.extra)

def fieldNames : List String :=
  ["classification", "constraints", "plan", "observations", "observation_summary", "retry_count",
    "capability_registry"]

def ofJson? (j : Json) : Option PolicyContext := do
  let f ← Fields.named? fieldNames j
  let classification ← f.optional "classification" Classification.ofJson?
  let constraints ← f.defaulted "constraints" Json.table? []
  let plan ← f.defaulted "plan" PlanStep.list? []
  let observations ← f.defaulted "observations" Finding.list? []
  let summary ← f.optional "observation_summary" Summary.ofJson?
  let retryCount ← f.defaulted "retry_count" Json.u32? 0
  let capabilities ← f.defaulted "capability_registry" Json.strings? []
  return ⟨classification, constraints, plan, observations, summary, retryCount, capabilities,
    f.others fieldNames⟩

end PolicyContext
end Orchestration
