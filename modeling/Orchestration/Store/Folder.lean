import Orchestration.Store.Ledger
import Orchestration.Store.Lines
import Orchestration.Text.Quoted

/-! A store in a directory: for each session a file of its states and a file of its logs,
with one record a line. A session's id is the first part of the files' names, so it is kept
to letters, digits, dashes, underscores and points, and does not begin with a point. -/
namespace Orchestration.Folder

def isIdChar (c : Char) : Bool := c.isAlphanum || c = '-' || c = '_' || c = '.'

def isValid (session : String) : Bool :=
  !session.isEmpty && session.toList.head? != some '.' && session.toList.all isIdChar

def path (directory : String) (k : RecordKind) (session : String) : Except Fault String :=
  if isValid session then .ok (Disk.join directory (session ++ k.suffix))
  else .error (.invalidSession (Text.quoted session))

def «open» (d : Disk) (directory : String) : Except Fault Disk :=
  match d.createAll directory with
  | .ok d => .ok d
  | .error cause => .error (.system cause)

def read (d : Disk) (directory : String) (k : RecordKind) (session : String) :
    Except Fault (List k.Of) := do
  Lines.read k.ofJson? d (← path directory k session)

def add (d : Disk) (directory : String) (r : Record) : Except Fault Disk := do
  let stored ← read d directory r.kind r.session
  if stored.any (r.kind.key · = r.key) then throw (r.kind.duplicate r.key)
  Lines.append d (← path directory r.kind r.session) r.toJson

def state? (d : Disk) (directory : String) (key : StateKey) : Except Fault (Option State) := do
  return (← read d directory .state key.session).find? (·.key = key)

def statesOf (d : Disk) (directory session : String) : Except Fault (List State) := do
  return Ledger.inPlace (← read d directory .state session)

def names (d : Disk) (directory : String) : Except Fault (List String) :=
  match d.names directory with
  | .ok names => .ok names
  | .error cause => .error (.system cause)

/-- The session whose records of a kind a file of this name holds. -/
def stem? (k : RecordKind) (name : String) : Option String :=
  if k.suffix.toList.isSuffixOf name.toList then
    some (String.ofList (name.toList.take (name.length - k.suffix.length)))
  else none

def allLogs (d : Disk) (directory : String) : Except Fault (List DecisionLog) := do
  let files := (← names d directory).filter fun name => (stem? .log name).isSome
  let logs ← files.mapM fun name => Lines.read DecisionLog.ofJson? d (Disk.join directory name)
  return logs.flatten

/-- The logs that pass a filter, from the file of its session if it names one. -/
def query (d : Disk) (directory : String) (f : DecisionFilter) :
    Except Fault (List DecisionLog) := do
  let logs ← match f.session with
    | some session => read d directory .log session
    | none => allLogs d directory
  return f.apply logs

def sessions (d : Disk) (directory : String) : Except Fault (List String) := do
  return ((← names d directory).filterMap (stem? .state)).mergeSort (· ≤ ·)

end Orchestration.Folder
