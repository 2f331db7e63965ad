import Orchestration.Observation
import Orchestration.Plan
import Orchestration.Session.Decision

/-! What is kept of a session: the state after each phase, under a key of session,
iteration and phase, and one log for each decision. -/
namespace Orchestration

structure StateKey where
  session : String
  iteration : Nat
  phase : Phase
  deriving DecidableEq, Inhabited

namespace StateKey

def text (k : StateKey) : String := s!"{k.session}/{k.iteration}/{k.phase.text}"

/-- Whether a state comes before another within its session. -/
def placeLt (a b : StateKey) : Bool :=
  a.iteration < b.iteration || (a.iteration == b.iteration && a.phase.ordinal < b.phase.ordinal)

def placeLe (a b : StateKey) : Bool := !placeLt b a

/-- By session, then by place within it. -/
def lt (a b : StateKey) : Bool :=
  a.session < b.session || (a.session == b.session && placeLt a b)

theorem placeLt_iff (a b : StateKey) : placeLt a b = true ↔
    a.iteration < b.iteration ∨ a.iteration = b.iteration ∧ a.phase.ordinal < b.phase.ordinal := by
  simp [placeLt]

theorem placeLt_trans {a b c : StateKey} (first : placeLt a b = true)
    (second : placeLt b c = true) : placeLt a c = true := by
  rw [placeLt_iff] at *
  omega

def toJson (k : StateKey) : Json :=
  .record [("session_id", .str k.session), ("iteration", .nat k.iteration),
    ("phase", k.phase.toJson)]

def ofJson? (j : Json) : Option StateKey := do
  let f ← Fields.of? ["session_id", "iteration", "phase"] j
  let session ← f.required "session_id" Json.string?
  let iteration ← f.required "iteration" Json.u32?
  let phase ← f.required "phase" Phase.ofJson?
  return ⟨session, iteration, phase⟩

end StateKey

structure State where
  session : String
  iteration : Nat
  phase : Phase
  input : Table Json
  observations : Option Summary
  decision : Option Decision
  plan : Option (List PlanStep)
  delegations : Option (List Delegation)
  correlation : Option String
  parent : Option String
  timestamp : Timestamp
  metadata : Table Json
  deriving Inhabited

namespace State

def blank (session : String) (iteration : Nat) (phase : Phase) (timestamp : Timestamp) : State :=
  ⟨session, iteration, phase, [], none, none, none, none, none, none, timestamp, []⟩

def key (s : State) : StateKey := ⟨s.session, s.iteration, s.phase⟩

def toJson (s : State) : Json :=
  .record [("session_id", .str s.session), ("iteration", .nat s.iteration),
    ("phase", s.phase.toJson), ("input_signature", .obj s.input),
    ("observations", .ofOption Summary.toJson s.observations),
    ("decision", .ofOption Decision.toJson s.decision),
    ("plan", .ofOption PlanStep.listToJson s.plan),
    ("delegations", .ofOption Delegation.listToJson s.delegations),
    ("correlation_id", .ofOption .str s.correlation),
    ("parent_task_id", .ofOption .str s.parent), ("timestamp", s.timestamp.toJson),
    ("metadata", .obj s.metadata)]

def ofJson? (j : Json) : Option State := do
  let f ← Fields.of? ["session_id", "iteration", "phase", "input_signature", "observations",
    "decision", "plan", "delegations", "correlation_id", "parent_task_id", "timestamp",
    "metadata"] j
  let session ← f.required "session_id" Json.string?
  let iteration ← f.required "iteration" Json.u32?
  let phase ← f.required "phase" Phase.ofJson?
  let input ← f.defaulted "input_signature" Json.table? []
  let observations ← f.optional "observations" Summary.ofJson?
  let decision ← f.optional "decision" Decision.ofJson?
  let plan ← f.optional "plan" PlanStep.list?
  let delegations ← f.optional "delegations" Delegation.list?
  let correlation ← f.optional "correlation_id" Json.string?
  let parent ← f.optional "parent_task_id" Json.string?
  let timestamp ← f.required "timestamp" Timestamp.ofJson?
  let metadata ← f.defaulted "metadata" Json.table? []
  return ⟨session, iteration, phase, input, observations, decision, plan, delegations,
    correlation, parent, timestamp, metadata⟩

end State

structure DecisionLog where
  session : String
  iteration : Nat
  phase : Phase
  input : Table Json
  observations : Option Summary
  decision : Decision
  outcome : Outcome
  timestamp : Timestamp
  correlation : Option String
  metadata : Table Json
  deriving Inhabited

namespace DecisionLog

def ofState? (s : State) : Option DecisionLog :=
  s.decision.map fun d =>
    ⟨s.session, s.iteration, s.phase, s.input, s.observations, d, d.action.outcome, s.timestamp,
      s.correlation, s.metadata⟩

def key (l : DecisionLog) : StateKey := ⟨l.session, l.iteration, l.phase⟩

def toJson (l : DecisionLog) : Json :=
  .record [("session_id", .str l.session), ("iteration", .nat l.iteration),
    ("phase", l.phase.toJson), ("input_signature", .obj l.input),
    ("observations", .ofOption Summary.toJson l.observations), ("decision", l.decision.toJson),
    ("outcome", l.outcome.toJson), ("timestamp", l.timestamp.toJson),
    ("correlation_id", .ofOption .str l.correlation), ("metadata", .obj l.metadata)]

def ofJson? (j : Json) : Option DecisionLog := do
  let f ← Fields.of? ["session_id", "iteration", "phase", "input_signature", "observations",
    "decision", "outcome", "timestamp", "correlation_id", "metadata"] j
  let session ← f.required "session_id" Json.string?
  let iteration ← f.required "iteration" Json.u32?
  let phase ← f.required "phase" Phase.ofJson?
  let input ← f.defaulted "input_signature" Json.table? []
  let observations ← f.optional "observations" Summary.ofJson?
  let decision ← f.required "decision" Decision.ofJson?
  let outcome ← f.required "outcome" Outcome.ofJson?
  let timestamp ← f.required "timestamp" Timestamp.ofJson?
  let correlation ← f.optional "correlation_id" Json.string?
  let metadata ← f.defaulted "metadata" Json.table? []
  return ⟨session, iteration, phase, input, observations, decision, outcome, timestamp,
    correlation, metadata⟩

end DecisionLog
end Orchestration
