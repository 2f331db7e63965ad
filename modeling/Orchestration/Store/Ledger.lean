import Orchestration.Session.Record
import Orchestration.Store.Filter

/-! The records of sessions: states and decision logs, each kind with one record a key and
in the order of their creation. Nothing is changed or taken away. -/
namespace Orchestration

structure Ledger where
  states : List State
  logs : List DecisionLog
  deriving Inhabited

namespace Ledger

def empty : Ledger := ⟨[], []⟩

def of (l : Ledger) : (k : RecordKind) → List k.Of
  | .state => l.states
  | .log => l.logs

def plus (l : Ledger) : Record → Ledger
  | .state s => { l with states := l.states ++ [s] }
  | .log log => { l with logs := l.logs ++ [log] }

def holds (l : Ledger) (k : RecordKind) (key : StateKey) : Bool := (l.of k).any (k.key · = key)

def add (l : Ledger) (r : Record) : Except Fault Ledger :=
  if l.holds r.kind r.key then .error (r.kind.duplicate r.key) else .ok (l.plus r)

def state? (l : Ledger) (key : StateKey) : Option State := l.states.find? (·.key = key)

def inPlace (states : List State) : List State :=
  states.mergeSort fun a b => StateKey.placeLe a.key b.key

def statesOf (l : Ledger) (session : String) : List State :=
  inPlace (l.states.filter (·.session = session))

def logsInOrder (l : Ledger) : List DecisionLog :=
  l.logs.mergeSort fun a b => !StateKey.lt b.key a.key

def sessions (l : Ledger) : List String := Table.distinct (l.states.map (·.session))

end Ledger
end Orchestration
