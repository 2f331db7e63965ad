import Orchestration.Fault
import Orchestration.Session.State

/-! The two kinds of records that are kept of a session. Every store does with both alike; a kind
says what differs. -/
namespace Orchestration

inductive RecordKind where
  | state | log
  deriving DecidableEq, Inhabited

namespace RecordKind

abbrev Of : RecordKind → Type
  | state => State
  | log => DecisionLog

def key : (k : RecordKind) → k.Of → StateKey
  | state => State.key
  | log => DecisionLog.key

def toJson : (k : RecordKind) → k.Of → Json
  | state => State.toJson
  | log => DecisionLog.toJson

def ofJson? : (k : RecordKind) → Json → Option k.Of
  | state => State.ofJson?
  | log => DecisionLog.ofJson?

def suffix : RecordKind → String
  | state => ".states.jsonl"
  | log => ".decisions.jsonl"

def duplicate : RecordKind → StateKey → Fault
  | state, key => .duplicateState key.text
  | log, key => .duplicateDecision key.text

end RecordKind

inductive Record where
  | state (s : State)
  | log (l : DecisionLog)
  deriving Inhabited

namespace Record

def kind : Record → RecordKind
  | state _ => .state
  | log _ => .log

def content : (r : Record) → r.kind.Of
  | state s => s
  | log l => l

def key (r : Record) : StateKey := r.kind.key r.content

def session (r : Record) : String := r.key.session

def toJson (r : Record) : Json := r.kind.toJson r.content

end Record
end Orchestration
