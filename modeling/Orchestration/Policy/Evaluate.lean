import Orchestration.Policy.Context
import Orchestration.Policy.Rule

/-! Evaluating a policy against a context. The matching rules are ranked by falling
priority, equal ones as declared; the first assertion of each kind in that order counts,
capabilities of all of them are joined, and what is forbidden is never allowed. -/
namespace Orchestration

structure EffectivePolicy where
  decision : Option PolicyDecision
  allow : List String
  forbid : List String
  retry : Option RetryPolicy
  fanIn : Option FanInPolicy
  hits : List String
  deriving Inhabited

namespace EffectivePolicy

def none : EffectivePolicy := ⟨.none, [], [], .none, .none, []⟩

def toJson (e : EffectivePolicy) : Json :=
  .record [("decision", .ofOption PolicyDecision.toJson e.decision), ("allow", .strings e.allow),
    ("forbid", .strings e.forbid), ("retry", .ofOption RetryPolicy.toJson e.retry),
    ("fan_in", .ofOption FanInPolicy.toJson e.fanIn), ("rule_hits", .strings e.hits)]

end EffectivePolicy

def Rule.matches (r : Rule) (view : Json) : Bool :=
  r.conditions.all fun (path, c) => c.matches (Path.resolve view path)

namespace Policy

def ranked (p : Policy) (view : Json) : List Rule :=
  (p.rules.filter (·.matches view)).mergeSort (fun a b => b.priority ≤ a.priority)

def evaluateView (p : Policy) (view : Json) : EffectivePolicy :=
  let hits := p.ranked view
  let allowed := Table.distinct (p.defaults.allow ++ hits.flatMap (·.effect.allow.getD []))
  let forbidden := Table.distinct (p.defaults.forbid ++ hits.flatMap (·.effect.forbid.getD []))
  { decision := hits.findSome? (·.effect.decision)
    allow := allowed.filter (!forbidden.contains ·)
    forbid := forbidden
    retry := hits.findSome? (·.effect.retry)
    fanIn := hits.findSome? (·.effect.fanIn)
    hits := hits.map (·.name) }

def evaluate (p : Policy) (c : PolicyContext) : EffectivePolicy := p.evaluateView c.toJson

end Policy
end Orchestration
