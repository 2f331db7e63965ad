import Orchestration.Fault
import Orchestration.Plan

/-! Plans that can be delegated: every step has an id of its own, depends on steps of the
plan only, and not on itself, however indirectly. Cycles are found by a depth-first search
that marks the steps on the way and the steps that are done with. -/
namespace Orchestration

/-- The id under which a step is delegated. The iteration is part of it. -/
def taskId (session : String) (iteration : Nat) (step : String) : String :=
  s!"{session}-i{iteration}-{step}"

namespace Plan

def ids (steps : List PlanStep) : List String := steps.map (·.id)

def repeated? (steps : List PlanStep) : Option String :=
  go [] steps
where
  go (seen : List String) : List PlanStep → Option String
    | [] => none
    | s :: rest => if seen.contains s.id then some s.id else go (s.id :: seen) rest

def dangling? (steps : List PlanStep) : Option (String × String) :=
  steps.findSome? fun s =>
    (s.dependencies.find? fun d => !(ids steps).contains d).map (s.id, ·)

def dependencies (steps : List PlanStep) (id : String) : List String :=
  ((steps.find? (·.id = id)).map (·.dependencies)).getD []

/-- The steps met by a search, those on its way and those it is done with. -/
structure Visited where
  way : List String
  done : List String

/-- Whether the search from a step comes back to its own way, and the steps it is then
done with. `depth` bounds the length of a way; a way through distinct steps is no longer
than the plan. -/
def search (steps : List PlanStep) : Nat → Visited → String → Bool × Visited
  | 0, v, _ => (false, v)
  | depth + 1, v, id =>
    if v.way.contains id then (true, v)
    else if v.done.contains id then (false, v)
    else
      let (cyclic, w) := (dependencies steps id).foldl
        (fun (found, w) d => if found then (true, w) else search steps depth w d)
        (false, { v with way := id :: v.way })
      if cyclic then (true, w) else (false, ⟨v.way, id :: w.done⟩)

def cyclic? (steps : List PlanStep) : Option String :=
  go ⟨[], []⟩ steps
where
  go (v : Visited) : List PlanStep → Option String
    | [] => none
    | s :: rest =>
      let (cyclic, w) := search steps (steps.length + 1) v s.id
      if cyclic then some s.id else go w rest

def validate (steps : List PlanStep) : Except PlanFault Unit :=
  match repeated? steps with
  | some id => .error (.repeatedStep id)
  | none =>
    match dangling? steps with
    | some (id, dependency) => .error (.unknownDependency id dependency)
    | none =>
      match cyclic? steps with
      | some id => .error (.cycle id)
      | none => .ok ()

/-- A plan that can be delegated has steps and passes validation. -/
def accept (steps : List PlanStep) : Except Fault (List PlanStep) :=
  if steps.isEmpty then .error (.plan .empty)
  else match validate steps with
    | .ok () => .ok steps
    | .error cause => .error (.plan cause)

end Plan
end Orchestration
