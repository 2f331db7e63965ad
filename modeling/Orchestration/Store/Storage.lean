import Orchestration.Store.Database
import Orchestration.Store.Folder

/-! Where records are kept, and the calls that every store answers. A write that fails
leaves everything as it was. -/
namespace Orchestration

inductive Backend where
  | memory
  | folder (directory : String)
  /-- a database that no file holds -/
  | privateDatabase
  | database (path : String)
  deriving DecidableEq, Inhabited

structure Storage where
  memory : Ledger
  privateRows : Rows
  disk : Disk
  deriving Inhabited

namespace Storage

def empty : Storage := ⟨.empty, .empty, .empty⟩

def withDisk (s : Storage) (d : Disk) : Storage := { s with disk := d }

def «open» (s : Storage) : Backend → Except Fault Storage
  | .memory | .privateDatabase => .ok s
  | .folder directory => (Folder.open s.disk directory).map s.withDisk
  | .database path => (Database.open s.disk path).map s.withDisk

def add (s : Storage) (b : Backend) (r : Record) : Except Fault Storage :=
  match b with
  | .memory => (s.memory.add r).map fun l => { s with memory := l }
  | .folder directory => (Folder.add s.disk directory r).map s.withDisk
  | .privateDatabase => (Database.add s.privateRows r).map fun t => { s with privateRows := t }
  | .database path =>
    (Database.add (Database.load s.disk path) r).map fun t =>
      s.withDisk (Database.save s.disk path t)

def state? (s : Storage) (b : Backend) (key : StateKey) : Except Fault (Option State) :=
  match b with
  | .memory => .ok (s.memory.state? key)
  | .folder directory => Folder.state? s.disk directory key
  | .privateDatabase => Database.state? s.privateRows key
  | .database path => Database.state? (Database.load s.disk path) key

/-- The states of a session by iteration, then phase. -/
def statesOf (s : Storage) (b : Backend) (session : String) : Except Fault (List State) :=
  match b with
  | .memory => .ok (s.memory.statesOf session)
  | .folder directory => Folder.statesOf s.disk directory session
  | .privateDatabase => Database.statesOf s.privateRows session
  | .database path => Database.statesOf (Database.load s.disk path) session

def query (s : Storage) (b : Backend) (f : DecisionFilter) : Except Fault (List DecisionLog) :=
  match b with
  | .memory => .ok (f.apply s.memory.logsInOrder)
  | .folder directory => Folder.query s.disk directory f
  | .privateDatabase => Database.query s.privateRows f
  | .database path => Database.query (Database.load s.disk path) f

def sessions (s : Storage) (b : Backend) : Except Fault (List String) :=
  match b with
  | .memory => .ok s.memory.sessions
  | .folder directory => Folder.sessions s.disk directory
  | .privateDatabase => .ok (Database.sessions s.privateRows)
  | .database path => .ok (Database.sessions (Database.load s.disk path))

end Storage
end Orchestration
