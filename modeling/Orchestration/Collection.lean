import Orchestration.World

/-! Gathering the outcome of a round. Results are waited for until each requested task has
one or the time is up; a task without one counts as failed. -/
namespace Orchestration

/-- The results gathered so far and those that a look at the bus adds. A result once
gathered is kept, whatever takes its place on the bus. -/
def gather (tasks : List String) (gathered results : Table TaskResult) : Table TaskResult :=
  tasks.foldl (fun found task =>
    if Table.contains found task then found
    else match Table.get? results task with
      | some r => Table.put found task r
      | none => found) gathered

/-- The results in the order of the first request for each. -/
def inRequestOrder (tasks : List String) (gathered : Table TaskResult) : List TaskResult :=
  tasks.eraseDups.filterMap (Table.get? gathered)

namespace World

variable {η σ : Type}

def isComplete (tasks : List String) (gathered : Table TaskResult) : Bool :=
  tasks.all (Table.contains gathered)

/-- Looks at the bus at an instant, and again whenever something happened, up to a
deadline. -/
def gatherFrom (h : Handlers η σ) (tasks : List String) (deadline instant : Nat)
    (gathered : Table TaskResult) (w : World η σ) : Table TaskResult × World η σ :=
  let gathered := gather tasks gathered w.bus.results
  if isComplete tasks gathered then (gathered, w)
  else if instant < deadline then
    let next := w.nextInstant instant deadline
    gatherFrom h tasks deadline next gathered
      (if next < deadline then fire h next w else { w with clock := deadline })
  else (gathered, w)
termination_by deadline - instant
decreasing_by
  have : instant + 1 ≤ w.nextInstant instant deadline := Nat.le_max_left ..
  omega

def await (h : Handlers η σ) (tasks : List String) (timeout : Nat) (w : World η σ) :
    List TaskResult × World η σ :=
  let gathered := gather tasks [] w.bus.results
  let (gathered, w) :=
    if isComplete tasks gathered ∨ timeout = 0 then (gathered, w)
    else gatherFrom h tasks (w.clock + timeout) w.clock gathered (fire h w.clock w)
  (inRequestOrder tasks gathered, w)

def hold (session : String) (o : Observation) (w : World η σ) : World η σ :=
  { w with buffer := Table.put w.buffer session ((Table.get? w.buffer session).getD [] ++ [o]) }

def heldBack (w : World η σ) (session : String) : List Observation :=
  (Table.get? w.buffer session).getD []

/-- The clock counts whole seconds in 63 bits, and has been running for one of them. -/
def canWait (w : World η σ) (timeout : Nat) : Bool := w.clock + timeout + 1000 < twoTo 63 * 1000

def timeoutIssue (timeout : Nat) : Issue := .of "timeout" s!"No result within {timeout / 1000}s"

def uncovered (tasks : List String) (observations : List Observation) : List String :=
  tasks.filter fun task => !observations.any (·.task? = some task)

/-- What becomes of the tasks that were waited for: those answered, then those that were
not. -/
def outcomes (tasks : List String) (results : List TaskResult) (timeout : Nat) :
    List Observation :=
  results.map .typed ++
    (tasks.filter fun task => !results.any (·.task = task)).map
      (.failed · (timeoutIssue timeout))

/-- The summary of what is held back for a session and of the tasks named beside it, whose
results are waited for on the bus. While it waits it is counted among the subscribers. A
deadline that the clock cannot tell is a panic. -/
def collect (h : Handlers η σ) (session : String) (tasks : List String) (timeout : Nat)
    (policy : FanInPolicy) (w : World η σ) : Answer Summary × World η σ :=
  let held := w.heldBack session
  let w := { w with buffer := Table.erase w.buffer session }
  let waiting := uncovered tasks held
  if waiting.isEmpty then (.value (.fanIn held policy), w)
  else if !w.canWait timeout then
    (.panic "overflow when adding duration to instant", w)
  else
    let (id, bus) := w.bus.subscribe .result none
    let (results, w) := await h waiting timeout { w with bus := bus }
    let w := { w with bus := (w.bus.unsubscribe .result id).2 }
    (.value (.fanIn (held ++ outcomes waiting results timeout) policy), w)

def collectHeld (session : String) (policy : FanInPolicy) (w : World η σ) :
    Summary × World η σ :=
  (.fanIn (w.heldBack session) policy, { w with buffer := Table.erase w.buffer session })

end World
end Orchestration
