import Orchestration.Observation

/-! Fan-in: outcomes of any shape are brought into one form and folded into a summary. A
loose record is read leniently; a status that is missing or unknown counts as failed, and
what is no issue is passed over. -/
namespace Orchestration

/-- An outcome as it arrives: a result, or a loose record of a tracker. -/
inductive Observation where
  | typed (result : TaskResult)
  | raw (record : Table Json)
  deriving Inhabited

namespace Observation

/-- The failure of a task that never had a result. -/
def failed (task : String) (issue : Issue) : Observation :=
  .raw (Table.ofList [("task_id", .str task), ("status", .str TaskStatus.failed.text),
    ("issues", Issue.listToJson [issue])])

def task? : Observation → Option String
  | typed r => some r.task
  | raw record => (Table.get? record "task_id").bind Json.string?

end Observation

namespace Issue

def genericKind : String := "generic"

/-- An issue as a loose record writes it: its message, or an object. -/
def ofLoose? : Json → Option Issue
  | .str message => some (of genericKind message)
  | .obj members =>
    let text (key : String) : Option String := (Table.get? members key).bind Json.string?
    some ⟨(text "type").getD genericKind, (text "message").getD "", text "severity"⟩
  | _ => none

end Issue

namespace Finding

def ofResult (r : TaskResult) : Finding :=
  ⟨r.task, r.status, r.result, r.confidence.map Binary64.clampUnit, r.issues⟩

def ofRecord (record : Table Json) : Finding :=
  let text (key : String) : Option String := (Table.get? record key).bind Json.string?
  { task := (text "task_id").getD ""
    status := ((text "status").bind TaskStatus.ofWord?).getD .failed
    result := (Table.get? record "result").getD .null
    confidence := ((Table.get? record "confidence").bind Json.float?).map Binary64.clampUnit
    issues := (((Table.get? record "issues").bind Json.array?).getD []).filterMap Issue.ofLoose? }

end Finding

def Observation.normalize : Observation → Finding
  | typed r => .ofResult r
  | raw record => .ofRecord record

/-- Whether a round with this success rate stands in the way. -/
def FanInMode.blocks (mode : FanInMode) (rate threshold : Binary64) : Bool :=
  match mode with
  | all => rate.lt .one
  | any => rate.eq .zero
  | quorum => rate.lt threshold
  | unrecognized => true

namespace Summary

/-- The share of successes as the nearest double; both counts are rounded first. -/
def rate (successes total : Nat) : Binary64 := (Binary64.ofNat successes).div (.ofNat total)

def lowest : List Binary64 → Binary64
  | [] => .zero
  | c :: rest => rest.foldl Binary64.min c

def ofFindings (findings : List Finding) (policy : FanInPolicy) : Summary :=
  let count (s : TaskStatus) : Nat := (findings.filter (·.status = s)).length
  let total := findings.length
  let successRate := rate (count .success) total
  { successRate := successRate
    blocking := policy.mode.blocks successRate policy.threshold
    lowestConfidence := lowest (findings.filterMap (·.confidence))
    total := total
    successes := count .success
    failures := count .failed
    partials := count .partial
    issues := findings.flatMap (·.issues)
    findings := findings }

/-- The summary of a round. A round without observations is empty and blocks. -/
def fanIn (observations : List Observation) (policy : FanInPolicy) : Summary :=
  if observations.isEmpty then empty else ofFindings (observations.map (·.normalize)) policy

theorem findings_fanIn (observations : List Observation) (policy : FanInPolicy) :
    (fanIn observations policy).findings = observations.map (·.normalize) := by
  cases observations <;> rfl

end Summary
end Orchestration
