import Orchestration.Fault
import Orchestration.Session.State

/-! What follows from a decision, what is decided when no rule does, and what a finished
session came to. The outcome of a session is a function of its stored states. -/
namespace Orchestration

inductive Transition where
  | halt
  | proceed (phase : Phase) (iteration : Nat)
  deriving DecidableEq, Inhabited

/-- Iterations are counted in 32 bits, and none comes after the last of them. -/
def nextIteration (iteration : Nat) : Answer Nat :=
  if iteration + 1 < twoTo 32 then .value (iteration + 1)
  else .panic "attempt to add with overflow"

def Decision.transition (d : Decision) (iteration : Nat) : Answer Transition :=
  match d.action with
  | .retry => (nextIteration iteration).map (.proceed .delegation)
  | .extendPlan => (nextIteration iteration).map (.proceed .planning)
  | .complete | .escalate | .unrecognized => .value .halt

def Summary.fallback (s : Summary) : Decision :=
  if s.isClean then .of .complete (some "All delegated tasks succeeded")
  else if s.blocking then .of .retry (some "Blocking issues in observations")
  else .of .extendPlan (some "Partial progress, extending plan")

structure RunResult where
  session : String
  success : Bool
  finalPhase : Phase
  /-- the last decision, observations, plan and delegations -/
  result : Json
  error : Option String
  iterations : Nat
  history : List State
  deriving Inhabited

namespace RunResult

/-- Marks the decision with which the iterations ran out. -/
def exhaustedKey : String := "loop_exhausted"

def limitKey : String := "max_iterations"

def latest {α : Type} (field : State → Option α) (history : List State) : Option α :=
  history.reverse.findSome? field

/-- Why a history that does not end in completion ended. -/
def stopText (last : State) (decision : Option Decision) (iterations : Nat) : String :=
  let exhausted := (Table.get? last.metadata exhaustedKey).any (·.same (.bool true))
  match decision with
  | none => s!"Run stopped in {last.phase.text} phase"
  | some d =>
    if exhausted then
      match Table.get? last.metadata limitKey with
      | some limit => s!"Iteration limit of {limit.compact} reached"
      | none => s!"Iteration limit reached after {iterations} iterations"
    else if last.phase = .decision then
      match d.action with
      | .escalate => "Escalated: " ++ d.reason.getD "no reason given"
      | .unrecognized => "Unrecognized decision action"
      | a => s!"Run stopped after deciding {a.text}"
    else s!"Run stopped in {last.phase.text} phase"

def content (history : List State) : Json :=
  .record [("decision", .ofOption Decision.toJson (latest (·.decision) history)),
    ("observations", .ofOption Summary.toJson (latest (·.observations) history)),
    ("plan", .ofOption PlanStep.listToJson (latest (·.plan) history)),
    ("delegations", .ofOption Delegation.listToJson (latest (·.delegations) history))]

/-- What a history comes to, with its iterations counted as far as they go. -/
def inFull (session : String) (history : List State) : RunResult :=
  match history.getLast? with
  | none => ⟨session, false, .awareness, .null, some "No states recorded", 0, history⟩
  | some last =>
    let iterations := last.iteration + 1
    let success := last.phase = .complete
    let error := if success then none
      else some (stopText last (latest (·.decision) history) iterations)
    ⟨session, success, last.phase, content history, error, iterations, history⟩

/-- The result of stored states. The iterations that they come to have to be counted. -/
def ofHistory (session : String) (history : List State) : Answer RunResult :=
  match history.getLast? with
  | none => .value (inFull session history)
  | some last => (nextIteration last.iteration).map fun _ => inFull session history

def hasOneCorrelation (r : RunResult) : Bool :=
  match r.history with
  | [] => true
  | s :: rest => rest.all (·.correlation == s.correlation)

/-- A result with the states of its history shown in some way. -/
def toJsonWith (showState : State → Json) (r : RunResult) : Json :=
  .record [("session_id", .str r.session), ("success", .bool r.success),
    ("final_phase", r.finalPhase.toJson), ("result", r.result),
    ("error", .ofOption .str r.error), ("total_iterations", .nat r.iterations),
    ("history", .arr (r.history.map showState))]

def toJson (r : RunResult) : Json := r.toJsonWith State.toJson

def briefJson (r : RunResult) : Json := r.toJsonWith fun s => .str s.key.text

def ofJson? (j : Json) : Option RunResult := do
  let f ← Fields.of? ["session_id", "success", "final_phase", "result", "error",
    "total_iterations", "history"] j
  let session ← f.required "session_id" Json.string?
  let success ← f.required "success" Json.bool?
  let finalPhase ← f.required "final_phase" Phase.ofJson?
  let result ← f.required "result" Json.value?
  let error ← f.optional "error" Json.string?
  let iterations ← f.required "total_iterations" Json.u32?
  let history ← f.required "history" (Json.listOf? State.ofJson?)
  return ⟨session, success, finalPhase, result, error, iterations, history⟩

end RunResult
end Orchestration
