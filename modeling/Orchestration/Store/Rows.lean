import Orchestration.Session.Record

/-! What a database holds: a table of states and one of decision logs. A row has the columns that
rows are looked up and ordered by, and its record as a JSON text. -/
namespace Orchestration

structure Row where
  key : StateKey
  /-- of a log, what was decided and what came of it -/
  verdict : Option (Action × Outcome)
  time : String
  body : String
  deriving Inhabited

namespace RecordKind

def timestamp : (k : RecordKind) → k.Of → Timestamp
  | state => State.timestamp
  | log => DecisionLog.timestamp

def verdict : (k : RecordKind) → k.Of → Option (Action × Outcome)
  | state => fun _ => none
  | log => fun l => some (l.decision.action, l.outcome)

end RecordKind

namespace Row

/-- The text under which a timestamp is compared, in microseconds. -/
def timeText (t : Timestamp) : String := t.textWith 6

def of (k : RecordKind) (a : k.Of) : Row :=
  ⟨k.key a, k.verdict a, timeText (k.timestamp a), String.ofList (k.toJson a).chars⟩

end Row

structure Rows where
  states : List Row
  logs : List Row
  deriving Inhabited

namespace Rows

def empty : Rows := ⟨[], []⟩

def of (t : Rows) : RecordKind → List Row
  | .state => t.states
  | .log => t.logs

def plus (t : Rows) (r : Record) : Rows :=
  let row := Row.of r.kind r.content
  match r.kind with
  | .state => { t with states := t.states ++ [row] }
  | .log => { t with logs := t.logs ++ [row] }

end Rows
end Orchestration
