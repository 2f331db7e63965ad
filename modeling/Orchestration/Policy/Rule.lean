import Orchestration.Observation
import Orchestration.Policy.Condition
import Orchestration.Session.Decision

/-! Policies: defaults and rules in the order they are declared. A rule's conditions are
compiled when it is read, in the order of their paths. -/
namespace Orchestration

/-- How often to try again, and how long to wait before it. -/
structure RetryPolicy where
  maxRetry : Option Nat
  backoff : Binary64
  deriving DecidableEq, Inhabited

namespace RetryPolicy

def toJson (r : RetryPolicy) : Json :=
  .record [("max_retry", .ofOption .nat r.maxRetry), ("backoff_sec", .ofFloat r.backoff)]

def of? {δ : Type} [Document δ] (d : δ) : Option RetryPolicy := do
  let f ← Fields.of? ["max_retry", "backoff_sec"] d
  let maxRetry ← f.optional "max_retry" Document.u32?
  let backoff ← f.defaulted "backoff_sec" Document.float? .zero
  return ⟨maxRetry, backoff⟩

end RetryPolicy

structure PolicyDecision where
  action : Action
  reason : Option String
  deriving DecidableEq, Inhabited

namespace PolicyDecision

def toJson (d : PolicyDecision) : Json :=
  .record [("action", d.action.toJson), ("reason", .ofOption .str d.reason)]

def detailed? (j : Json) : Option PolicyDecision := do
  let f ← Fields.named? ["action", "reason"] j
  let action ← f.required "action" Action.ofJson?
  let reason ← f.optional "reason" Json.string?
  return ⟨action, reason⟩

/-- An action with an optional reason, or an action alone. -/
def ofJson? (j : Json) : Option PolicyDecision :=
  match detailed? j with
  | some d => some d
  | none => (Action.ofJson? j).map (⟨·, none⟩)

end PolicyDecision

/-- What a rule brings about when it matches. -/
structure RuleEffect where
  decision : Option PolicyDecision
  allow : Option (List String)
  forbid : Option (List String)
  retry : Option RetryPolicy
  fanIn : Option FanInPolicy
  deriving Inhabited

namespace RuleEffect

def none : RuleEffect := ⟨.none, .none, .none, .none, .none⟩

def toJson (e : RuleEffect) : Json :=
  .record [("decision", .ofOption PolicyDecision.toJson e.decision),
    ("allow", .ofOption .strings e.allow), ("forbid", .ofOption .strings e.forbid),
    ("retry", .ofOption RetryPolicy.toJson e.retry),
    ("fan_in", .ofOption FanInPolicy.toJson e.fanIn)]

variable {δ : Type} [Document δ]

def capabilities? (d : δ) : Option (List String) := do
  let f ← Fields.of? ["capabilities"] d
  f.defaulted "capabilities" Document.strings? []

def of? (d : δ) : Option RuleEffect := do
  let f ← Fields.of? ["decision", "allow", "forbid", "retry", "fan_in"] d
  let decision ← f.optional "decision" fun x => (Document.value? x).bind PolicyDecision.ofJson?
  let allow ← f.optional "allow" capabilities?
  let forbid ← f.optional "forbid" capabilities?
  let retry ← f.optional "retry" RetryPolicy.of?
  let fanIn ← f.optional "fan_in" FanInPolicy.of?
  return ⟨decision, allow, forbid, retry, fanIn⟩

end RuleEffect

structure Rule where
  name : String
  priority : Int
  /-- paths with their conditions, all of which must hold -/
  conditions : List (String × Condition)
  effect : RuleEffect
  deriving Inhabited

inductive PolicyFault where
  | malformed
  | rule (name : String) (cause : ConditionFault)
  deriving Inhabited

namespace Rule

def defaultPriority : Int := 100

def toJson (r : Rule) : Json :=
  .record [("name", .str r.name), ("priority", .int r.priority),
    ("conditions", .arr (r.conditions.map fun c => .arr [.str c.1, c.2.toJson])),
    ("then", r.effect.toJson)]

def compile (name : String) (clauses : Table Json) :
    Except PolicyFault (List (String × Condition)) :=
  clauses.mapM fun (path, clause) =>
    match Condition.compile path clause with
    | .ok c => .ok (path, c)
    | .error cause => .error (.rule name cause)

variable {δ : Type} [Document δ]

/-- The clauses of a `when` block by path, of equal paths the last one. -/
def clauses? (d : δ) : Option (Table Json) := do
  let members ← Document.members? d
  if !Document.complete d then failure
  let values ← members.mapM fun (path, x) => (Document.value? x).map fun v => (path, v.finite.canonical)
  return Table.ofList values

def of (d : δ) : Except PolicyFault Rule := do
  let read : Option (String × Int × Table Json × RuleEffect) := do
    let f ← Fields.of? ["name", "priority", "when", "then"] d
    let name ← f.required "name" Document.string?
    let priority ← f.defaulted "priority" Document.i64? defaultPriority
    let clauses ← f.defaulted "when" clauses? []
    let effect ← f.defaulted "then" RuleEffect.of? .none
    return (name, priority, clauses, effect)
  match read with
  | none => throw .malformed
  | some (name, priority, clauses, effect) =>
    let conditions ← compile name clauses
    return ⟨name, priority, conditions, effect⟩

end Rule

structure PolicyDefaults where
  retry : Option RetryPolicy
  fanIn : Option FanInPolicy
  allow : List String
  forbid : List String
  deriving Inhabited

namespace PolicyDefaults

def none : PolicyDefaults := ⟨.none, .none, [], []⟩

def toJson (d : PolicyDefaults) : Json :=
  .record [("retry", .ofOption RetryPolicy.toJson d.retry),
    ("fan_in", .ofOption FanInPolicy.toJson d.fanIn), ("allow", .strings d.allow),
    ("forbid", .strings d.forbid)]

def of? {δ : Type} [Document δ] (d : δ) : Option PolicyDefaults := do
  let f ← Fields.of? ["retry", "fan_in", "allow", "forbid"] d
  let retry ← f.optional "retry" RetryPolicy.of?
  let fanIn ← f.optional "fan_in" FanInPolicy.of?
  let allow ← f.defaulted "allow" Document.strings? []
  let forbid ← f.defaulted "forbid" Document.strings? []
  return ⟨retry, fanIn, allow, forbid⟩

end PolicyDefaults

structure Policy where
  version : Option String
  defaults : PolicyDefaults
  rules : List Rule
  deriving Inhabited

namespace Policy

def empty : Policy := ⟨none, .none, []⟩

def toJson (p : Policy) : Json :=
  .record [("spec_version", .ofOption .str p.version), ("defaults", p.defaults.toJson),
    ("rules", .arr (p.rules.map Rule.toJson))]

variable {δ : Type} [Document δ]

def readRules (d : δ) : Except PolicyFault (List Rule) :=
  match Document.items? d with
  | none => .error .malformed
  | some items => items.mapM Rule.of

def required {α : Type} : Option α → Except PolicyFault α
  | none => .error .malformed
  | some a => .ok a

def withMember (p : Policy) (key : String) (d : δ) : Except PolicyFault Policy := do
  if key = "spec_version" then
    let version ← if Document.isNull d then pure none else required ((Document.string? d).map some)
    return { p with version := version }
  else if key = "defaults" then return { p with defaults := ← required (PolicyDefaults.of? d) }
  else if key = "rules" then return { p with rules := ← readRules d }
  else return p

def fieldNames : List String := ["spec_version", "defaults", "rules"]

/-- The policy of a document. Its members are read in order, so that the first fault
counts. -/
def of (d : δ) : Except PolicyFault Policy :=
  match Document.row? fieldNames.length d with
  | some values => go [] empty (fieldNames.zip values)
  | none =>
    match Document.members? d with
    | none => .error .malformed
    | some members => do
      let p ← go [] empty members
      if Document.complete d then return p else throw .malformed
where
  go (seen : List String) (p : Policy) : List (String × δ) → Except PolicyFault Policy
    | [] => .ok p
    | (key, value) :: rest =>
      if fieldNames.contains key && seen.contains key then .error .malformed
      else do go (key :: seen) (← p.withMember key value) rest

end Policy
end Orchestration
