import Orchestration.Number.Binary64
import Orchestration.Table

/-! JSON values. A number is an integer or a double and keeps its kind. The members of an
object stand in increasing key order, one a key; what a text writes in another order, or
twice, is brought into that form by `Json.canonical`. -/
namespace Orchestration

inductive Number where
  | int (i : Int)
  | float (x : Binary64)
  deriving DecidableEq, Inhabited

namespace Number

/-- The nearest double. -/
def toBinary64 : Number → Binary64
  | .int i => .ofInt i
  | .float x => x

/-- Equality within a kind: an integer never equals a double here. -/
def same : Number → Number → Bool
  | .int i, .int j => i == j
  | .float x, .float y => x.eq y
  | _, _ => false

end Number

inductive Json where
  | null
  | bool (b : Bool)
  | num (n : Number)
  | str (s : String)
  | arr (items : List Json)
  | obj (members : List (String × Json))
  deriving Inhabited

namespace Json

def int (i : Int) : Json := .num (.int i)

def nat (n : Nat) : Json := .num (.int n)

def float (x : Binary64) : Json := .num (.float x)

def ofOption {α : Type} (f : α → Json) : Option α → Json
  | none => .null
  | some a => f a

def strings (items : List String) : Json := .arr (items.map .str)

/-- The object with these members, the last of equal keys counting. -/
def record (members : List (String × Json)) : Json := .obj (Table.ofList members)

mutual

/-- Every object within in key order, the last of equal keys counting. -/
def canonical : Json → Json
  | .arr items => .arr (canonicalItems items)
  | .obj members => .obj (Table.ofList (canonicalMembers members))
  | .null => .null
  | .bool b => .bool b
  | .num n => .num n
  | .str s => .str s

def canonicalItems : List Json → List Json
  | [] => []
  | j :: rest => canonical j :: canonicalItems rest

def canonicalMembers : List (String × Json) → List (String × Json)
  | [] => []
  | (k, j) :: rest => (k, canonical j) :: canonicalMembers rest

end

mutual

/-- Every infinite double and every one that is no number replaced by `null`. -/
def finite : Json → Json
  | .num (.float x) => if x.isFinite then .num (.float x) else .null
  | .num (.int i) => .num (.int i)
  | .arr items => .arr (finiteItems items)
  | .obj members => .obj (finiteMembers members)
  | .null => .null
  | .bool b => .bool b
  | .str s => .str s

def finiteItems : List Json → List Json
  | [] => []
  | j :: rest => finite j :: finiteItems rest

def finiteMembers : List (String × Json) → List (String × Json)
  | [] => []
  | (k, j) :: rest => (k, finite j) :: finiteMembers rest

end

mutual

/-- Equality of values, where numbers are equal only within their kind. -/
def same : Json → Json → Bool
  | .null, .null => true
  | .bool a, .bool b => a == b
  | .num a, .num b => a.same b
  | .str a, .str b => a == b
  | .arr a, .arr b => sameItems a b
  | .obj a, .obj b => sameMembers a b
  | _, _ => false

def sameItems : List Json → List Json → Bool
  | [], [] => true
  | a :: r, b :: s => same a b && sameItems r s
  | _, _ => false

def sameMembers : List (String × Json) → List (String × Json) → Bool
  | [], [] => true
  | (k, a) :: r, (l, b) :: s => k == l && same a b && sameMembers r s
  | _, _ => false

end

def string? : Json → Option String
  | .str s => some s
  | _ => none

def array? : Json → Option (List Json)
  | .arr items => some items
  | _ => none

def object? : Json → Option (Table Json)
  | .obj members => some members
  | _ => none

def number? : Json → Option Number
  | .num n => some n
  | _ => none

def float? (j : Json) : Option Binary64 := j.number?.map Number.toBinary64

def member? (j : Json) (key : String) : Option Json := j.object?.bind (Table.get? · key)

end Json
end Orchestration
