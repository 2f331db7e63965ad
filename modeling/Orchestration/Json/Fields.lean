import Orchestration.Document

/-! Reading records from documents. Members that are no field of the record are passed
over; a field that comes twice is refused. A field is required, optional (absent and
null mean the same) or defaulted (only absence gives the default). A record may also be
written as the list of its fields' values, unless it takes fields of any name. -/
namespace Orchestration

/-- The members of a record, in the order of the document. -/
structure Fields (δ : Type) where
  members : List (String × δ)

namespace Fields

variable {δ α : Type}

def repeated (names : List String) (members : List (String × δ)) : Bool :=
  names.any fun name => decide (1 < (members.filter (·.1 == name)).length)

/-- A record with its fields' names. -/
def named? [Document δ] (names : List String) (d : δ) : Option (Fields δ) := do
  let members ← Document.members? d
  if repeated names members || !Document.complete d then none else some ⟨members⟩

/-- A record of the named fields, in their order where it is written without names. -/
def of? [Document δ] (names : List String) (d : δ) : Option (Fields δ) :=
  match Document.row? names.length d with
  | some values => some ⟨names.zip values⟩
  | none => named? names d

def get? (f : Fields δ) (name : String) : Option δ := Table.get? f.members name

def required (f : Fields δ) (name : String) (read : δ → Option α) : Option α :=
  (f.get? name).bind read

def optional [Document δ] (f : Fields δ) (name : String) (read : δ → Option α) :
    Option (Option α) :=
  match f.get? name with
  | none => some none
  | some d => if Document.isNull d then some none else (read d).map some

def defaulted (f : Fields δ) (name : String) (read : δ → Option α) (default : α) : Option α :=
  match f.get? name with
  | none => some default
  | some d => read d

/-- The members under no name of the list, as a table of canonical values. -/
def others (f : Fields Json) (names : List String) : Table Json :=
  Table.ofList ((f.members.filter fun m => !names.contains m.1).map fun m => (m.1, m.2.canonical))

end Fields

namespace Json

def u32? : Json → Option Nat := natBelow? (twoTo 32)

def u64? : Json → Option Nat := natBelow? (twoTo 64)

def listOf? {α : Type} (read : Json → Option α) (j : Json) : Option (List α) :=
  j.array?.bind (·.mapM read)

def strings? (j : Json) : Option (List String) := listOf? string? j

/-- Any value, in canonical form. -/
def value? (j : Json) : Option Json := some j.canonical

def table? : Json → Option (Table Json)
  | .obj members => some (Table.ofList (canonicalMembers members))
  | _ => none

end Json
end Orchestration
