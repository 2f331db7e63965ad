import Orchestration.Plan

/-! Ready-made ways to classify and plan a command. -/
namespace Orchestration

def defaultDelegate : String := "executor"

namespace Classification

/-- The generic classification, with the hints that the request's context gives. -/
def hinted (context : Table Json) : Classification :=
  let hint (key : String) : Option String := (Table.get? context key).bind Json.string?
  { generic with
    kind := (hint "type").getD generic.kind
    scope := (hint "scope").getD generic.scope
    risk := (hint "risk").getD generic.risk }

end Classification

namespace Plan

def single (command delegate : String) : List PlanStep := [.of "step-1" command delegate]

def stageId (position : Nat) (role : String) : String := s!"{position}-{role}"

/-- One step for each role, each depending on the step before it. -/
def staged (command risk : String) (roles : List String) : List PlanStep :=
  go 1 [] roles
where
  go (position : Nat) (previous : List String) : List String → List PlanStep
    | [] => []
    | role :: rest =>
      let id := stageId position role
      ⟨id, s!"{role}: {command}", role, previous, risk⟩ :: go (position + 1) [id] rest

end Plan
end Orchestration
