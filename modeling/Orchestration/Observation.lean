import Orchestration.Task

/-! Observations of task outcomes, brought into one form, and the summary of a round of
them that decisions are made on. -/
namespace Orchestration

inductive FanInMode where
  /-- every task must succeed -/
  | all
  /-- one success is enough -/
  | any
  /-- the success rate must reach a threshold -/
  | quorum
  /-- a mode of another name, which always blocks -/
  | unrecognized
  deriving DecidableEq, Inhabited

namespace FanInMode

def text : FanInMode → String
  | all => "all"
  | any => "any"
  | quorum => "quorum"
  | unrecognized => "unrecognized"

def ofName : String → FanInMode
  | "all" => all
  | "any" => any
  | "quorum" => quorum
  | _ => unrecognized

/-- The mode of a word in any ASCII case, with blanks around it. -/
def ofWord (word : String) : FanInMode := ofName (Text.lowerAscii (Text.trim word))

def toJson (m : FanInMode) : Json := .str m.text

def of? {δ : Type} [Document δ] (d : δ) : Option FanInMode := (Document.variant? d).map ofName

end FanInMode

structure FanInPolicy where
  mode : FanInMode
  threshold : Binary64
  deriving DecidableEq, Inhabited

namespace FanInPolicy

/-- Seven tenths. -/
def defaultThreshold : Binary64 := .ofDecimal false 7 (-1)

def default : FanInPolicy := ⟨.all, defaultThreshold⟩

def toJson (p : FanInPolicy) : Json :=
  .record [("mode", p.mode.toJson), ("threshold", .ofFloat p.threshold)]

def of? {δ : Type} [Document δ] (d : δ) : Option FanInPolicy := do
  let f ← Fields.of? ["mode", "threshold"] d
  let mode ← f.required "mode" FanInMode.of?
  let threshold ← f.defaulted "threshold" Document.float? defaultThreshold
  return ⟨mode, threshold⟩

end FanInPolicy

structure Finding where
  task : String
  status : TaskStatus
  result : Json
  confidence : Option Binary64
  issues : List Issue
  deriving Inhabited

namespace Finding

def toJson (f : Finding) : Json :=
  .record [("task_id", .str f.task), ("status", f.status.toJson), ("result", f.result),
    ("confidence", .ofOption .ofFloat f.confidence), ("issues", Issue.listToJson f.issues)]

def ofJson? (j : Json) : Option Finding := do
  let f ← Fields.of? ["task_id", "status", "result", "confidence", "issues"] j
  let task ← f.required "task_id" Json.string?
  let status ← f.required "status" TaskStatus.ofJson?
  let result ← f.defaulted "result" Json.value? .null
  let confidence ← f.optional "confidence" Json.float?
  let issues ← f.defaulted "issues" Issue.list? []
  return ⟨task, status, result, confidence, issues⟩

def listToJson (fs : List Finding) : Json := .arr (fs.map toJson)

def list? (j : Json) : Option (List Finding) := Json.listOf? ofJson? j

end Finding

structure Summary where
  successRate : Binary64
  blocking : Bool
  lowestConfidence : Binary64
  total : Nat
  successes : Nat
  failures : Nat
  partials : Nat
  issues : List Issue
  findings : List Finding
  deriving Inhabited

namespace Summary

/-- Nothing was observed, which always blocks. -/
def empty : Summary := ⟨.zero, true, .zero, 0, 0, 0, 0, [], []⟩

/-- There was nothing to wait for. -/
def nothingDelegated : Summary :=
  { empty with successRate := .one, blocking := false, lowestConfidence := .one }

/-- Every task succeeded and nothing blocks. -/
def isClean (s : Summary) : Bool := !s.blocking && Binary64.one.le s.successRate

def toJson (s : Summary) : Json :=
  .record [("success_rate", .ofFloat s.successRate), ("blocking_issues", .bool s.blocking),
    ("lowest_confidence", .ofFloat s.lowestConfidence), ("total_count", .nat s.total),
    ("success_count", .nat s.successes), ("failure_count", .nat s.failures),
    ("partial_count", .nat s.partials), ("issues", Issue.listToJson s.issues),
    ("observations", Finding.listToJson s.findings)]

def ofJson? (j : Json) : Option Summary := do
  let f ← Fields.of? ["success_rate", "blocking_issues", "lowest_confidence", "total_count",
    "success_count", "failure_count", "partial_count", "issues", "observations"] j
  let successRate ← f.required "success_rate" Json.float?
  let blocking ← f.required "blocking_issues" Json.bool?
  let lowestConfidence ← f.required "lowest_confidence" Json.float?
  let total ← f.required "total_count" Json.u64?
  let successes ← f.required "success_count" Json.u64?
  let failures ← f.required "failure_count" Json.u64?
  let partials ← f.required "partial_count" Json.u64?
  let issues ← f.defaulted "issues" Issue.list? []
  let findings ← f.defaulted "observations" Finding.list? []
  return ⟨successRate, blocking, lowestConfidence, total, successes, failures, partials, issues,
    findings⟩

end Summary
end Orchestration
