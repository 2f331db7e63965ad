import Orchestration.Disk
import Orchestration.Json.Reader
import Orchestration.Store.Ledger

/-! A store in a database, in memory or in a file. Any session id will do. Timestamps are
compared as texts of microseconds; what is answered is read from the texts of the records. -/
namespace Orchestration.Database

/-- Limits are numbers of 64 bits with sign. -/
def limitBound : Nat := twoTo 63

def holds (t : Rows) (k : RecordKind) (key : StateKey) : Bool := (t.of k).any (·.key = key)

def add (t : Rows) (r : Record) : Except Fault Rows :=
  if holds t r.kind r.key then .error (.duplicateRow r.key.text) else .ok (t.plus r)

def decode (k : RecordKind) (row : Row) : Except Fault k.Of :=
  match (Json.read? row.body).bind k.ofJson? with
  | some a => .ok a
  | none => .error (.corruptRecord none (Json.excess? row.body.toList))

def state? (t : Rows) (key : StateKey) : Except Fault (Option State) :=
  match t.states.find? (·.key = key) with
  | some row => (decode .state row).map some
  | none => .ok none

def statesOf (t : Rows) (session : String) : Except Fault (List State) :=
  ((t.states.filter (·.key.session = session)).mapM (decode .state)).map Ledger.inPlace

def passes (f : DecisionFilter) (row : Row) : Bool :=
  f.session.all (row.key.session == ·) && f.outcome.all (row.verdict.map (·.2) == some ·) &&
    f.action.all (row.verdict.map (·.1) == some ·) &&
    f.earliest.all (fun t => !(row.time < Row.timeText t)) &&
    f.latest.all (fun t => !(Row.timeText t < row.time))

def ordered (a b : Row) : Bool :=
  a.time < b.time || (a.time == b.time && a.key.iteration ≤ b.key.iteration)

/-- What a query answers, if rows that are in order either way are arranged like this. -/
def queryBy (arrange : List Row → List Row) (t : Rows) (f : DecisionFilter) :
    Except Fault (List DecisionLog) :=
  if f.limit.any (limitBound ≤ ·) then .error (.database "datatype mismatch")
  else (f.truncate (arrange (t.logs.filter (passes f)))).mapM (decode .log)

def query (t : Rows) (f : DecisionFilter) : Except Fault (List DecisionLog) :=
  queryBy (·.mergeSort ordered) t f

def sessions (t : Rows) : List String := Table.distinct (t.states.map (·.key.session))

/-- The disk with a database at a path, new or as it is there. -/
def «open» (d : Disk) (path : String) : Except Fault Disk :=
  let created := match d.write path ⟨.database .empty, 0⟩ with
    | .ok d => .ok d
    | .error _ => .error (.database s!"unable to open database file: {path}")
  match d.file? path with
  | some ⟨.database _, _⟩ => .ok d
  | some ⟨.text "", _⟩ | none => created
  | some _ => .error (.database "file is not a database")

def load (d : Disk) (path : String) : Rows :=
  match d.file? path with
  | some ⟨.database t, _⟩ => t
  | _ => .empty

def save (d : Disk) (path : String) (t : Rows) : Disk :=
  (d.write path ⟨.database t, 0⟩).toOption.getD d

end Orchestration.Database
