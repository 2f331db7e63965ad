import Orchestration.Json.Fields
import Orchestration.Json.Printer
import Orchestration.Time.Timestamp

/-! Delegated tasks: what is asked of an executor, what it answers, and the issues it
reports. A tracker's word for a status is read leniently, a record's exactly. -/
namespace Orchestration

inductive TaskStatus where
  | success | «partial» | failed
  deriving DecidableEq, Inhabited

namespace TaskStatus

def text : TaskStatus → String
  | success => "success"
  | «partial» => "partial"
  | failed => "failed"

def read? : String → Option TaskStatus
  | "success" => some success
  | "partial" => some «partial»
  | "failed" => some failed
  | _ => none

/-- The words that trackers use, in any ASCII case and with blanks around them. A task
still under way counts as partial. -/
def ofWord? (word : String) : Option TaskStatus :=
  match Text.lowerAscii (Text.trim word) with
  | "success" | "completed" => some success
  | "failed" | "cancelled" => some failed
  | "partial" | "pending" | "running" | "assigned" => some «partial»
  | _ => none

def toJson (s : TaskStatus) : Json := .str s.text

def ofJson? (j : Json) : Option TaskStatus := j.variant?.bind read?

theorem read?_text (s : TaskStatus) : read? s.text = some s := by cases s <;> rfl

end TaskStatus

structure Issue where
  kind : String
  message : String
  severity : Option String
  deriving DecidableEq, Inhabited

namespace Issue

def of (kind message : String) : Issue := ⟨kind, message, none⟩

def toJson (i : Issue) : Json :=
  .record ([("type", .str i.kind), ("message", .str i.message)] ++
    match i.severity with
    | none => []
    | some s => [("severity", .str s)])

def ofJson? (j : Json) : Option Issue := do
  let f ← Fields.of? ["type", "message", "severity"] j
  let kind ← f.required "type" Json.string?
  let message ← f.defaulted "message" Json.string? ""
  let severity ← f.optional "severity" Json.string?
  return ⟨kind, message, severity⟩

def listToJson (issues : List Issue) : Json := .arr (issues.map toJson)

def list? (j : Json) : Option (List Issue) := Json.listOf? ofJson? j

end Issue

structure Dispatch where
  session : String
  iteration : Nat
  task : String
  delegate : String
  objective : String
  context : Table Json
  criteria : List String
  timeout : Nat
  policy : Table Json
  correlation : String
  parent : Option String
  deriving Inhabited

namespace Dispatch

def defaultTimeout : Nat := 300

/-- A dispatch that states nothing beyond its task. -/
def of (session : String) (iteration : Nat) (task delegate objective correlation : String) :
    Dispatch :=
  ⟨session, iteration, task, delegate, objective, [], [], defaultTimeout, [], correlation, none⟩

def toJson (d : Dispatch) : Json :=
  .record [("session_id", .str d.session), ("iteration", .nat d.iteration),
    ("task_id", .str d.task), ("delegate_to", .str d.delegate), ("objective", .str d.objective),
    ("context", .obj d.context), ("success_criteria", .strings d.criteria),
    ("timeout_sec", .nat d.timeout), ("policy", .obj d.policy),
    ("correlation_id", .str d.correlation), ("parent_task_id", .ofOption .str d.parent)]

def ofJson? (j : Json) : Option Dispatch := do
  let f ← Fields.of? ["session_id", "iteration", "task_id", "delegate_to", "objective", "context",
    "success_criteria", "timeout_sec", "policy", "correlation_id", "parent_task_id"] j
  let session ← f.required "session_id" Json.string?
  let iteration ← f.required "iteration" Json.u32?
  let task ← f.required "task_id" Json.string?
  let delegate ← f.required "delegate_to" Json.string?
  let objective ← f.required "objective" Json.string?
  let context ← f.defaulted "context" Json.table? []
  let criteria ← f.defaulted "success_criteria" Json.strings? []
  let timeout ← f.required "timeout_sec" Json.u64?
  let policy ← f.defaulted "policy" Json.table? []
  let correlation ← f.required "correlation_id" Json.string?
  let parent ← f.optional "parent_task_id" Json.string?
  return ⟨session, iteration, task, delegate, objective, context, criteria, timeout, policy,
    correlation, parent⟩

end Dispatch

structure TaskResult where
  session : String
  task : String
  agent : String
  status : TaskStatus
  result : Json
  issues : List Issue
  confidence : Option Binary64
  metadata : Table Json
  correlation : Option String
  completed : Timestamp
  deriving Inhabited

namespace TaskResult

def bare (session task agent : String) (status : TaskStatus) (completed : Timestamp) :
    TaskResult :=
  ⟨session, task, agent, status, .null, [], none, [], none, completed⟩

/-- The result that answers a dispatch and carries its correlation. -/
def answering (d : Dispatch) (agent : String) (status : TaskStatus) (completed : Timestamp) :
    TaskResult :=
  { bare d.session d.task agent status completed with correlation := some d.correlation }

def success (d : Dispatch) (agent : String) (completed : Timestamp) : TaskResult :=
  answering d agent .success completed

def failure (d : Dispatch) (agent : String) (issue : Issue) (completed : Timestamp) :
    TaskResult :=
  { answering d agent .failed completed with issues := [issue] }

/-- A stated confidence is confined to the unit interval. -/
def withConfidence (r : TaskResult) (c : Binary64) : TaskResult :=
  { r with confidence := some c.clampUnit }

def withIssue (r : TaskResult) (i : Issue) : TaskResult := { r with issues := r.issues ++ [i] }

def toJson (r : TaskResult) : Json :=
  .record [("session_id", .str r.session), ("task_id", .str r.task), ("agent_id", .str r.agent),
    ("status", r.status.toJson), ("result", r.result), ("issues", Issue.listToJson r.issues),
    ("confidence", .ofOption .ofFloat r.confidence), ("metadata", .obj r.metadata),
    ("correlation_id", .ofOption .str r.correlation), ("completed_at", r.completed.toJson)]

def ofJson? (j : Json) : Option TaskResult := do
  let f ← Fields.of? ["session_id", "task_id", "agent_id", "status", "result", "issues",
    "confidence", "metadata", "correlation_id", "completed_at"] j
  let session ← f.required "session_id" Json.string?
  let task ← f.required "task_id" Json.string?
  let agent ← f.required "agent_id" Json.string?
  let status ← f.required "status" TaskStatus.ofJson?
  let result ← f.defaulted "result" Json.value? .null
  let issues ← f.defaulted "issues" Issue.list? []
  let confidence ← f.optional "confidence" Json.float?
  let metadata ← f.defaulted "metadata" Json.table? []
  let correlation ← f.optional "correlation_id" Json.string?
  let completed ← f.required "completed_at" Timestamp.ofJson?
  return ⟨session, task, agent, status, result, issues, confidence, metadata, correlation,
    completed⟩

end TaskResult
end Orchestration
