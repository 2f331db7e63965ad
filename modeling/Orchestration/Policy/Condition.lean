import Orchestration.Fault
import Orchestration.Text.Blank

/-! Conditions on one path of a context. A clause is an operator when it is an object with
an operator's name as its only key, and a literal to equal when it is anything else. A path
that leads nowhere fails every condition. -/
namespace Orchestration

inductive Operator where
  | lt | le | gt | ge | oneOf | anyIssueTypeIn
  deriving DecidableEq, Inhabited

namespace Operator

def text : Operator → String
  | lt => "lt"
  | le => "le"
  | gt => "gt"
  | ge => "ge"
  | oneOf => "in"
  | anyIssueTypeIn => "any_issue_type_in"

def read? : String → Option Operator
  | "lt" => some lt
  | "le" => some le
  | "gt" => some gt
  | "ge" => some ge
  | "in" => some oneOf
  | "any_issue_type_in" => some anyIssueTypeIn
  | _ => none

end Operator

inductive Condition where
  /-- equality; two numbers are equal when their doubles are -/
  | eq (value : Json)
  | lt (bound : Binary64)
  | le (bound : Binary64)
  | gt (bound : Binary64)
  | ge (bound : Binary64)
  | oneOf (values : List Json)
  /-- some entry of a list has an issue of one of these types -/
  | anyIssueTypeIn (types : List String)
  deriving Inhabited

namespace Condition

def equal (a b : Json) : Bool :=
  match a, b with
  | .num x, .num y => x.toBinary64.eq y.toBinary64
  | _, _ => a.same b

def ofOperator (path : String) (op : Operator) (operand : Json) :
    Except ConditionFault Condition :=
  let bad (expected : OperandKind) : Except ConditionFault Condition :=
    .error (.operand op.text path expected operand)
  let bound (make : Binary64 → Condition) : Except ConditionFault Condition :=
    match operand.float? with
    | some x => .ok (make x)
    | none => bad .number
  match op with
  | .lt => bound .lt
  | .le => bound .le
  | .gt => bound .gt
  | .ge => bound .ge
  | .oneOf =>
    match operand.array? with
    | some items => .ok (.oneOf items)
    | none => bad .list
  | .anyIssueTypeIn =>
    match operand.array?.bind (·.mapM Json.string?) with
    | some types => .ok (.anyIssueTypeIn (Table.distinct types))
    | none => bad .strings

def compile (path : String) (clause : Json) : Except ConditionFault Condition :=
  match clause with
  | .obj members =>
    match members.findSome? fun m => (Operator.read? m.1).map (·, m.2) with
    | none => .ok (.eq clause)
    | some (op, operand) =>
      if members.length ≠ 1 then .error (.keys path members.length)
      else ofOperator path op operand
  | _ => .ok (.eq clause)

def issueTypes (entries : List Json) : List String :=
  entries.flatMap fun entry =>
    (((entry.member? "issues").bind Json.array?).getD []).filterMap fun issue =>
      (issue.member? "type").bind Json.string?

def holds : Condition → Json → Bool
  | eq expected, v => equal v expected
  | lt n, v => (v.float?.map (·.lt n)).getD false
  | le n, v => (v.float?.map (·.le n)).getD false
  | gt n, v => (v.float?.map (n.lt ·)).getD false
  | ge n, v => (v.float?.map (n.le ·)).getD false
  | oneOf items, v => items.any (equal v ·)
  | anyIssueTypeIn types, v =>
    (v.array?.map fun entries => (issueTypes entries).any types.contains).getD false

def «matches» (c : Condition) : Option Json → Bool
  | none => false
  | some v => c.holds v

def toJson : Condition → Json
  | eq v => .record [("eq", v)]
  | lt x => .record [("lt", .ofFloat x)]
  | le x => .record [("le", .ofFloat x)]
  | gt x => .record [("gt", .ofFloat x)]
  | ge x => .record [("ge", .ofFloat x)]
  | oneOf items => .record [("in", .arr items)]
  | anyIssueTypeIn types => .record [("any_issue_type_in", .strings types)]

end Condition

/-! Paths: segments between dots, each a key of an object or a position in a list. -/
namespace Path

/-- A position: decimal digits below `2 ^ 64`, a plus sign before them allowed. -/
def index? (segment : List Char) : Option Nat :=
  let digits := match segment with
    | '+' :: rest => rest
    | _ => segment
  if digits.isEmpty || !digits.all (fun c => '0' ≤ c && c ≤ '9') then none
  else
    let n := digits.foldl (fun n c => n * 10 + (c.toNat - '0'.toNat)) 0
    if n < twoTo 64 then some n else none

def descend? (j : Json) (segment : List Char) : Option Json :=
  match j with
  | .obj members => Table.get? members (String.ofList segment)
  | .arr items => (index? segment).bind (items[·]?)
  | _ => none

def segments (path : String) : List (List Char) := Text.splitChars '.' path.toList

def resolve (root : Json) (path : String) : Option Json :=
  (segments path).foldlM descend? root

end Path
end Orchestration
