import Orchestration.Bus.Message

/-! The monitor: what is known of each executor from its own heartbeats and results. -/
namespace Orchestration

inductive ExecutorStatus where
  | idle | working
  deriving DecidableEq, Inhabited

namespace ExecutorStatus

def text : ExecutorStatus → String
  | idle => "idle"
  | working => "working"

def read? : String → Option ExecutorStatus
  | "idle" => some idle
  | "working" => some working
  | _ => none

end ExecutorStatus

/-- How many messages of each kind an executor sent. -/
structure ExecutorCounts where
  heartbeats : Nat
  succeeded : Nat
  «partial» : Nat
  failed : Nat
  deriving DecidableEq, Inhabited

namespace ExecutorCounts

def zero : ExecutorCounts := ⟨0, 0, 0, 0⟩

def withResult (c : ExecutorCounts) : TaskStatus → ExecutorCounts
  | .success => { c with succeeded := c.succeeded + 1 }
  | .partial => { c with «partial» := c.partial + 1 }
  | .failed => { c with failed := c.failed + 1 }

def toJson (c : ExecutorCounts) : Json :=
  .record [("heartbeats", .nat c.heartbeats), ("succeeded", .nat c.succeeded),
    ("partial", .nat c.partial), ("failed", .nat c.failed)]

def ofJson? (j : Json) : Option ExecutorCounts := do
  let f ← Fields.of? ["heartbeats", "succeeded", "partial", "failed"] j
  let heartbeats ← f.required "heartbeats" Json.u64?
  let succeeded ← f.required "succeeded" Json.u64?
  let «partial» ← f.required "partial" Json.u64?
  let failed ← f.required "failed" Json.u64?
  return ⟨heartbeats, succeeded, «partial», failed⟩

end ExecutorCounts

structure ExecutorState where
  agent : String
  status : ExecutorStatus
  task : Option String
  lastSeen : Timestamp
  counts : ExecutorCounts
  deriving Inhabited

namespace ExecutorState

def fresh (agent : String) (seen : Timestamp) : ExecutorState := ⟨agent, .idle, none, seen, .zero⟩

def afterHeartbeat (s : ExecutorState) (h : Heartbeat) : ExecutorState :=
  let s := { s with
    lastSeen := h.timestamp
    counts := { s.counts with heartbeats := s.counts.heartbeats + 1 } }
  match h.task with
  | none => s
  | some t => { s with task := some t, status := .working }

def afterResult (s : ExecutorState) (r : TaskResult) : ExecutorState :=
  let s := { s with lastSeen := r.completed, counts := s.counts.withResult r.status }
  if s.task = some r.task then { s with task := none, status := .idle } else s

def toJson (s : ExecutorState) : Json :=
  .record [("agent_id", .str s.agent), ("status", .str s.status.text),
    ("current_task", .ofOption .str s.task), ("last_seen", s.lastSeen.toJson),
    ("metrics", s.counts.toJson)]

def ofJson? (j : Json) : Option ExecutorState := do
  let f ← Fields.of? ["agent_id", "status", "current_task", "last_seen", "metrics"] j
  let agent ← f.required "agent_id" Json.string?
  let status ← f.required "status" fun x => x.variant?.bind ExecutorStatus.read?
  let task ← f.optional "current_task" Json.string?
  let lastSeen ← f.required "last_seen" Timestamp.ofJson?
  let counts ← f.required "metrics" ExecutorCounts.ofJson?
  return ⟨agent, status, task, lastSeen, counts⟩

end ExecutorState

/-- The executors by their ids. -/
abbrev Monitor := Table ExecutorState

namespace Monitor

def update (m : Monitor) (agent : String) (seen : Timestamp)
    (change : ExecutorState → ExecutorState) : Monitor :=
  Table.put m agent (change ((Table.get? m agent).getD (.fresh agent seen)))

def observe (m : Monitor) : Message → Monitor
  | .heartbeat h => update m h.agent h.timestamp (·.afterHeartbeat h)
  | .result r => update m r.agent r.completed (·.afterResult r)
  | _ => m

def snapshot (m : Monitor) : List ExecutorState := Table.values m

/-- The executors not heard from for so many seconds and nanoseconds; none, if so far back there
is no time. -/
def stale (m : Monitor) (now : Timestamp) (seconds : Nat) (nanos : Nat := 0) : List String :=
  match now.back? seconds nanos with
  | none => []
  | some cutoff => ((snapshot m).filter fun s => s.lastSeen.lt cutoff).map (·.agent)

def toJson (m : Monitor) : Json :=
  .record [("executors", .arr ((snapshot m).map ExecutorState.toJson))]

end Monitor
end Orchestration
