import Orchestration.Bus.Message
import Orchestration.Session.Record

/-! What a run does that others can see: the questions it puts to its collaborators, the
messages it publishes itself, and the records it writes or fails to write. -/
namespace Orchestration

inductive StoreCall where
  | createState (key : StateKey)
  | appendLog (key : StateKey)
  | readState (key : StateKey)
  | readSession (session : String)
  | queryLogs
  deriving DecidableEq, Inhabited

def Record.call : Record → StoreCall
  | state s => .createState s.key
  | log l => .appendLog l.key

inductive Interruption where
  | fault (f : Fault)
  | panic (text : String)
  deriving Inhabited

namespace Interruption

def message : Interruption → String
  | fault f => f.message
  | panic text => s!"Run panicked: {text}"

end Interruption

inductive Deed where
  | classify (command : String) (context : Table Json)
  | plan (command : String) (c : Classification) (context : Table Json)
  | dispatch (d : Dispatch)
  | status (task : String)
  | publish (m : Message)
  | stored (r : Record)
  | refused (r : Record) (cause : Interruption)
  deriving Inhabited

/-- Whether a deed is a write, be it one that was refused. -/
def Deed.isWrite : Deed → Bool
  | stored _ | refused .. => true
  | _ => false

end Orchestration
