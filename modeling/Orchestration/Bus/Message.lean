import Orchestration.Observation

/-! Messages of the bus. What a message holds determines its topic; most belong to a
session. -/
namespace Orchestration

inductive Topic where
  | dispatch | result | heartbeat | summary
  deriving DecidableEq, Inhabited

namespace Topic

def text : Topic → String
  | dispatch => "TASK_DISPATCH"
  | result => "TASK_RESULT"
  | heartbeat => "HEARTBEAT"
  | summary => "OBSERVATION_SUMMARY"

def read? : String → Option Topic
  | "TASK_DISPATCH" => some dispatch
  | "TASK_RESULT" => some result
  | "HEARTBEAT" => some heartbeat
  | "OBSERVATION_SUMMARY" => some summary
  | _ => none

def toJson (t : Topic) : Json := .str t.text

def ofJson? (j : Json) : Option Topic := j.variant?.bind read?

end Topic

/-- A sign of life of an executor, perhaps at work on a task. -/
structure Heartbeat where
  agent : String
  session : Option String
  task : Option String
  timestamp : Timestamp
  deriving Inhabited

namespace Heartbeat

def toJson (h : Heartbeat) : Json :=
  .record [("agent_id", .str h.agent), ("session_id", .ofOption .str h.session),
    ("task_id", .ofOption .str h.task), ("timestamp", h.timestamp.toJson)]

def ofJson? (j : Json) : Option Heartbeat := do
  let f ← Fields.of? ["agent_id", "session_id", "task_id", "timestamp"] j
  let agent ← f.required "agent_id" Json.string?
  let session ← f.optional "session_id" Json.string?
  let task ← f.optional "task_id" Json.string?
  let timestamp ← f.required "timestamp" Timestamp.ofJson?
  return ⟨agent, session, task, timestamp⟩

end Heartbeat

inductive Message where
  | dispatch (d : Dispatch)
  | result (r : TaskResult)
  | heartbeat (h : Heartbeat)
  | summary (session : String) (iteration : Nat) (s : Summary)
  deriving Inhabited

namespace Message

def topic : Message → Topic
  | dispatch _ => .dispatch
  | result _ => .result
  | heartbeat _ => .heartbeat
  | summary .. => .summary

def session? : Message → Option String
  | dispatch d => some d.session
  | result r => some r.session
  | heartbeat h => h.session
  | summary session .. => some session

def tagged (kind : String) (content : Json) : Json :=
  .record (("kind", .str kind) :: content.object?.getD [])

def toJson : Message → Json
  | dispatch d => tagged "dispatch" d.toJson
  | result r => tagged "result" r.toJson
  | heartbeat h => tagged "heartbeat" h.toJson
  | summary session iteration s =>
    tagged "summary" (.record [("session_id", .str session), ("iteration", .nat iteration),
      ("summary", s.toJson)])

def untag? : Json → Option (String × Json)
  | .arr (.str kind :: rest) => some (kind, .arr rest)
  | j => do
    let f ← Fields.named? ["kind"] j
    let kind ← f.required "kind" Json.string?
    return (kind, .obj (f.members.filter (·.1 != "kind")))

def ofJson? (j : Json) : Option Message := do
  let (kind, content) ← untag? j
  match kind with
  | "dispatch" => (Dispatch.ofJson? content).map .dispatch
  | "result" => (TaskResult.ofJson? content).map .result
  | "heartbeat" => (Heartbeat.ofJson? content).map .heartbeat
  | "summary" => do
    let f ← Fields.of? ["session_id", "iteration", "summary"] content
    let session ← f.required "session_id" Json.string?
    let iteration ← f.required "iteration" Json.u32?
    let s ← f.required "summary" Summary.ofJson?
    return .summary session iteration s
  | _ => none

end Message
end Orchestration
