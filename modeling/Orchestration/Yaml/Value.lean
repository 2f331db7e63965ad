import Orchestration.Document
import Orchestration.Number.Decimal
import Orchestration.Yaml.Node

/-! What YAML content means to the readers of records. A scalar's kind is what is asked of
it: every scalar is a text, and a plain one may also be a number, a truth value or nothing.
Only where any value is asked for does the text decide. -/
namespace Orchestration.Yaml

def isNullWord (text : String) : Bool := ["null", "Null", "NULL", "~"].contains text

def truth? (text : String) : Option Bool :=
  if ["true", "True", "TRUE"].contains text then some true
  else if ["false", "False", "FALSE"].contains text then some false
  else none

/-! Numbers. -/

def digitsIn? (base : Nat) (cs : List Char) : Option Nat :=
  if cs.isEmpty then none
  else cs.foldlM (fun n c => (Text.hexDigit? c).bind fun d => if d < base then some (n * base + d) else none) 0

/-- An integer without sign. Decimal digits after a zero are no number. -/
def unsigned? : List Char → Option Nat
  | '0' :: 'x' :: cs => digitsIn? 16 cs
  | '0' :: 'o' :: cs => digitsIn? 8 cs
  | '0' :: 'b' :: cs => digitsIn? 2 cs
  | '0' :: _ :: _ => none
  | cs => digitsIn? 10 cs

def integer? (text : String) : Option Int :=
  match text.toList with
  | '+' :: cs => (unsigned? cs).map Int.ofNat
  | '-' :: cs => (unsigned? cs).map fun n => -n
  | cs => (unsigned? cs).map Int.ofNat

def natBelow? (limit : Nat) (text : String) : Option Nat :=
  if text.toList.head? = some '-' then none
  else (integer? text).bind fun i => if i.toNat < limit then some i.toNat else none

def i64? (text : String) : Option Int :=
  (integer? text).filter (fitsSigned 64)

/-- A double. A text too large for one is none, but infinity has a name. -/
def float? (text : String) : Option Binary64 :=
  if [".inf", ".Inf", ".INF", "+.inf", "+.Inf", "+.INF"].contains text then some (.infinite false)
  else if ["-.inf", "-.Inf", "-.INF"].contains text then some (.infinite true)
  else if [".nan", ".NaN", ".NAN"].contains text then some .nan
  else Decimal.finite? text.toList

/-- Digits that begin with a zero are a text, not a number. -/
def isZeroPadded (text : String) : Bool :=
  let cs := text.toList
  let cs := if cs.head? = some '-' ∨ cs.head? = some '+' then cs.tail else cs
  1 < cs.length && cs.head? = some '0' && cs.all Number.isDigit

/-! Values of their own. -/

/-- An integer as a value. None is between 64 and 128 bits wide; a wider one is no integer
any more, which the inner result says. -/
def integerValue? (text : String) : Option (Option Json) :=
  match integer? text with
  | none => some none
  | some i =>
    if fitsSigned 64 i || fitsUnsigned 64 i then some (some (.int i))
    else if fitsSigned 128 i || fitsUnsigned 128 i then none
    else some none

def plainValue? (text : String) : Option Json :=
  if text.isEmpty || isNullWord text then some .null
  else
    match truth? text with
    | some b => some (.bool b)
    | none => do
      match ← integerValue? text with
      | some j => return j
      | none =>
        let number := if isZeroPadded text then none else float? text
        return (number.map Json.float).getD (.str text)

/-- A tag that only its document knows. -/
def localTag? (tag : Option String) : Option String :=
  match tag.map String.toList with
  | some ('!' :: c :: cs) => some (String.ofList (c :: cs))
  | _ => none

def commonTag (kind : String) : String := "tag:yaml.org,2002:" ++ kind

def scalarValue? (tag : Option String) (style : Style) (text : String) : Option Json :=
  match tag with
  | none => if style = .plain then plainValue? text else some (.str text)
  | some t =>
    if (localTag? tag).isSome then none
    else if t = commonTag "bool" then (truth? text).map .bool
    else if t = commonTag "int" then (integerValue? text).join
    else if t = commonTag "float" then (float? text).map .float
    else if t = commonTag "null" then if isNullWord text then some .null else none
    else some (.str text)

namespace Node

/-- What has no text and is not quoted stands for an empty collection too. -/
def isBare : Node → Bool
  | .scalar _ .plain text => text.isEmpty
  | _ => false

def members? : Node → Option (List (String × Node))
  | .mapping _ entries _ => some entries
  | n => if n.isBare then some [] else none

def items? : Node → Option (List Node)
  | .sequence _ items _ => some items
  | n => if n.isBare then some [] else none

def isComplete : Node → Bool
  | .scalar .. => true
  | .sequence _ _ complete => complete
  | .mapping _ _ complete => complete

def isNull : Node → Bool
  | .scalar none .plain text => text.isEmpty || isNullWord text
  | .scalar (some tag) .plain text => tag = commonTag "null" && isNullWord text
  | _ => false

def plain? : Node → Option String
  | .scalar _ .plain text => some text
  | _ => none

/-- A scalar is the name of a variant, unless its tag is. -/
def variant? : Node → Option String
  | .scalar tag style text =>
    match localTag? tag with
    | none => some text
    | some name =>
      if style = .plain ∧ (text.isEmpty ∨ isNullWord text) then some name else none
  | _ => none

/-- The content as a value, if its collections are nested less deep than a bound. -/
def valueWithin? : Nat → Node → Option Json
  | _, .scalar tag style text => scalarValue? tag style text
  | 0, _ => none
  | depth + 1, .sequence tag items complete =>
    if (localTag? tag).isSome || !complete then none
    else (items.mapM fun n => valueWithin? depth n).map .arr
  | depth + 1, .mapping tag entries complete =>
    if (localTag? tag).isSome || !complete then none
    else (entries.mapM fun (e : String × Node) => (valueWithin? depth e.2).map (e.1, ·)).map .obj

/-- How deep collections may be nested within a clause or decision of a rule, which are at
the fourth level of their document. -/
def depthLimit : Nat := 124

end Node

instance : Document Node where
  members? := Node.members?
  complete := Node.isComplete
  row? _ _ := none
  items? := Node.items?
  isNull := Node.isNull
  string? := Node.text?
  bool? n := n.plain?.bind truth?
  float? n := n.plain?.bind float?
  natBelow? limit n := n.plain?.bind (natBelow? limit)
  i64? n := n.plain?.bind i64?
  variant? := Node.variant?
  value? := Node.valueWithin? Node.depthLimit

end Orchestration.Yaml
