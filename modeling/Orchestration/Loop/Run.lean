import Orchestration.Loop.Services

/-! A run of the loop: what it carries from phase to phase, the states and requests it makes
of that, and the decision it takes on a summary. -/
namespace Orchestration

structure Run where
  session : String
  correlation : String
  command : String
  context : Table Json
  iteration : Nat
  classification : Classification
  plan : List PlanStep
  delegations : List Delegation
  summary : Option Summary
  fanIn : FanInPolicy
  /-- what the last decisions that said so allow and forbid -/
  capabilities : Option (List String × List String)
  /-- milliseconds to pause before the next delegation -/
  pause : Nat
  /-- the states stored so far -/
  history : List State
  deriving Inhabited

namespace Run

def start (session correlation command : String) (context : Table Json) (fanIn : FanInPolicy) :
    Run :=
  ⟨session, correlation, command, context, 0, .generic, [], [], none, fanIn, none, 0, []⟩

def state (r : Run) (phase : Phase) (time : Timestamp) : State :=
  { State.blank r.session r.iteration phase time with
    input := Table.ofList [("command", .str r.command), ("context", .obj r.context)]
    correlation := some r.correlation }

def constraints (r : Run) : Table Json :=
  ((Table.get? r.context "constraints").bind Json.object?).getD []

def criteria (r : Run) : List String :=
  (((Table.get? r.context "success_criteria").bind Json.array?).getD []).filterMap Json.string?

def taskOf (r : Run) (step : String) : String := taskId r.session r.iteration step

/-- What may and may not be used, as it is stated on a dispatch. -/
def capabilityTable (r : Run) : Table Json :=
  match r.capabilities with
  | none => []
  | some (allow, forbid) => Table.ofList [("allow", .strings allow), ("forbid", .strings forbid)]

def dispatchContext (r : Run) (step : PlanStep) : Table Json :=
  [("command", .str r.command), ("step_id", .str step.id), ("risk", .str step.risk),
    ("dependencies", Json.strings (step.dependencies.map r.taskOf))].foldl
    (fun table (key, value) => Table.put table key value) r.context

def dispatchOf (r : Run) (timeout : Nat) (step : PlanStep) : Dispatch :=
  { session := r.session
    iteration := r.iteration
    task := r.taskOf step.id
    delegate := step.delegate
    objective := step.objective
    context := r.dispatchContext step
    criteria := r.criteria
    timeout := timeout
    policy := r.capabilityTable
    correlation := r.correlation
    parent := none }

def planningContext (r : Run) : Table Json :=
  match r.summary with
  | none => r.context
  | some s => Table.put r.context "previous_observations" s.toJson

def observed (r : Run) : Summary := r.summary.getD .empty

def policyContext (r : Run) (config : LoopConfig) : PolicyContext :=
  { classification := some r.classification
    constraints := r.constraints
    plan := r.plan
    observations := r.observed.findings
    summary := some r.observed
    retryCount := r.iteration
    capabilities := config.capabilities
    extra := Table.ofList [("command", .str r.command), ("session_id", .str r.session)] }

end Run

namespace RetryPolicy

/-- The milliseconds to pause before another attempt. A pause below zero is none, and so is
one that 64 bits of seconds do not hold; nanoseconds are rounded to even, milliseconds up. -/
def pauseMillis (r : RetryPolicy) : Nat :=
  match r.backoff.timesNat? (tenTo 9) with
  | some nanos => if nanos < twoTo 64 * tenTo 9 then (nanos + (tenTo 6 - 1)) / tenTo 6 else 0
  | none => 0

end RetryPolicy

structure Verdict where
  decision : Decision
  effective : EffectivePolicy
  retry : Option RetryPolicy
  deriving Inhabited

namespace Verdict

def budgetReason (limit : Nat) : String := s!"Retry budget of {limit} exhausted"

/-- A retry beyond the budget is an escalation. -/
def withinBudget (d : Decision) (retry : Option RetryPolicy) (iteration : Nat) : Decision :=
  match d.action, retry.bind (·.maxRetry) with
  | .retry, some limit =>
    if limit ≤ iteration then .of .escalate (some (budgetReason limit)) else d
  | _, _ => d

/-- What the policy asserts, else what follows from the summary. -/
def asserted (e : EffectivePolicy) (s : Summary) : Decision :=
  match e.decision with
  | some d => .of d.action d.reason
  | none => s.fallback

def of (config : LoopConfig) (engine : PolicyEngine) (r : Run) : Verdict :=
  let effective := engine.evaluate (r.policyContext config)
  let retry := effective.retry <|> (engine.current.bind (·.defaults.retry))
  { decision := withinBudget (asserted effective r.observed) retry r.iteration
    effective := effective
    retry := retry }

/-- Whether the loop would go on, but has no iteration left. -/
def exhausts (v : Verdict) (config : LoopConfig) (iteration : Nat) : Bool :=
  v.decision.action.loops && decide (config.maxIterations ≤ iteration + 1)

def pause (v : Verdict) : Nat :=
  match v.decision.action with
  | .retry => (v.retry.map (·.pauseMillis)).getD 0
  | _ => 0

/-- What the run takes along into its next iteration. -/
def carry (v : Verdict) (r : Run) : Run :=
  { r with
    pause := v.pause
    fanIn := v.effective.fanIn.getD r.fanIn
    capabilities :=
      if v.effective.allow.isEmpty && v.effective.forbid.isEmpty then r.capabilities
      else some (v.effective.allow, v.effective.forbid) }

def state (v : Verdict) (config : LoopConfig) (r : Run) (time : Timestamp) : State :=
  { r.state .decision time with
    decision := some v.decision
    observations := some r.observed
    metadata := Table.ofList ([("rule_hits", Json.strings v.effective.hits),
      ("effective_policy", v.effective.toJson)] ++
      if v.exhausts config r.iteration then
        [(RunResult.exhaustedKey, .bool true), (RunResult.limitKey, .nat config.maxIterations)]
      else []) }

end Verdict
end Orchestration
