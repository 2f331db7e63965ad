import Orchestration.Json

/-! What a document format offers to the readers of records. A JSON value knows the kind of
each scalar; a format whose plain scalars are text answers each question from that text. -/
namespace Orchestration

class Document (δ : Type) where
  /-- the members of a record or table, in the order of the document -/
  members? : δ → Option (List (String × δ))
  /-- whether these are all of them; if not, reading has met a fault after them -/
  complete : δ → Bool
  /-- the values of a record of so many fields that is written as a list, in the order of
  its fields; the last ones may be missing -/
  row? : Nat → δ → Option (List δ)
  items? : δ → Option (List δ)
  /-- whether an optional field with this content is absent -/
  isNull : δ → Bool
  string? : δ → Option String
  bool? : δ → Option Bool
  float? : δ → Option Binary64
  /-- an integer from 0 to below a limit of at most 64 bits -/
  natBelow? : Nat → δ → Option Nat
  /-- an integer of 64 bits with sign -/
  i64? : δ → Option Int
  /-- the name of a variant without content -/
  variant? : δ → Option String
  value? : δ → Option Json

namespace Json

def row? (width : Nat) : Json → Option (List Json)
  | .arr items => if items.length ≤ width then some items else none
  | _ => none

def bool? : Json → Option Bool
  | .bool b => some b
  | _ => none

def natBelow? (limit : Nat) : Json → Option Nat
  | .num (.int i) => if 0 ≤ i ∧ i < limit then some i.toNat else none
  | _ => none

def i64? : Json → Option Int
  | .num (.int i) => if fitsSigned 64 i then some i else none
  | _ => none

def isNull : Json → Bool
  | .null => true
  | _ => false

/-- A text, or an object that holds `null` under that name alone. -/
def variant? : Json → Option String
  | .str s => some s
  | .obj [(s, .null)] => some s
  | _ => none

end Json

instance : Document Json where
  members? := Json.object?
  complete _ := true
  row? := Json.row?
  items? := Json.array?
  isNull := Json.isNull
  string? := Json.string?
  bool? := Json.bool?
  float? := Json.float?
  natBelow? := Json.natBelow?
  i64? := Json.i64?
  variant? := Json.variant?
  value? := some

namespace Document

variable {δ : Type} [Document δ]

def u32? : δ → Option Nat := natBelow? (twoTo 32)

def u64? : δ → Option Nat := natBelow? (twoTo 64)

def listOf? {α : Type} (read : δ → Option α) (d : δ) : Option (List α) :=
  (items? d).bind (·.mapM read)

def strings? (d : δ) : Option (List String) := listOf? string? d

end Document
end Orchestration
