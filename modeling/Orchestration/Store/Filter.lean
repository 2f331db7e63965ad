import Orchestration.Session.State

/-! Queries over decision logs. A filter that sets nothing matches everything; answers are
ordered by time, then iteration, and logs equal in both keep the order they came in. -/
namespace Orchestration

structure DecisionFilter where
  session : Option String
  outcome : Option Outcome
  action : Option Action
  /-- bounds that the timestamp may equal -/
  earliest : Option Timestamp
  latest : Option Timestamp
  limit : Option Nat
  deriving Inhabited

namespace DecisionFilter

def any : DecisionFilter := ⟨none, none, none, none, none, none⟩

def ofSession (session : String) : DecisionFilter := { any with session := some session }

def «matches» (f : DecisionFilter) (l : DecisionLog) : Bool :=
  f.session.all (l.session == ·) && f.outcome.all (l.outcome == ·) &&
    f.action.all (l.decision.action == ·) && f.earliest.all (·.le l.timestamp) &&
    f.latest.all (l.timestamp.le ·)

/-- Whether a log may come before another. -/
def ordered (a b : DecisionLog) : Bool :=
  a.timestamp.lt b.timestamp || (a.timestamp == b.timestamp && a.iteration ≤ b.iteration)

def truncate {α : Type} (f : DecisionFilter) (found : List α) : List α :=
  match f.limit with
  | none => found
  | some n => found.take n

def apply (f : DecisionFilter) (logs : List DecisionLog) : List DecisionLog :=
  f.truncate ((logs.filter f.matches).mergeSort ordered)

/-- A filter as a request writes it. An outcome is read by name, and an unknown one is a
fault; what is malformed otherwise gives none. -/
def ofJson? (j : Json) : Option (Except Fault DecisionFilter) := do
  let f ← Fields.of? ["session_id", "outcome", "action", "since", "until", "limit"] j
  let session ← f.optional "session_id" Json.string?
  let outcome ← f.optional "outcome" Json.string?
  let action ← f.optional "action" Action.ofJson?
  let earliest ← f.optional "since" Timestamp.ofJson?
  let latest ← f.optional "until" Timestamp.ofJson?
  let limit ← f.optional "limit" Json.u64?
  match outcome with
  | none => return .ok ⟨session, none, action, earliest, latest, limit⟩
  | some name =>
    return (Outcome.read name).map fun o => ⟨session, some o, action, earliest, latest, limit⟩

end DecisionFilter
end Orchestration
