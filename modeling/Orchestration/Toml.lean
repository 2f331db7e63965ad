import Orchestration.Document
import Orchestration.Toml.Scalar

/-! TOML values, and how they are read from the beginning of a text. A table remembers how it
came to be, because that decides what may still be added to it. -/
namespace Orchestration

inductive Toml.TableKind where
  /-- between braces, and complete with them -/
  | braced
  /-- by keys with points, which may add to it -/
  | dotted
  /-- by a heading further down, before any of its own -/
  | implied
  /-- by a heading -/
  | headed
  deriving DecidableEq, Inhabited

inductive Toml where
  | text (s : String)
  | integer (i : Int)
  | float (x : Binary64)
  | truth (b : Bool)
  /-- a date, a time or both -/
  | moment
  | array (items : List Toml)
  /-- the tables of one heading that is in double brackets -/
  | tables (items : List Toml)
  | table (kind : Toml.TableKind) (entries : List (String × Toml))
  deriving Inhabited

namespace Toml

/-- Values within values, and keys of many parts, are at most this deep. -/
def depthLimit : Nat := 80

/-! Keys. -/

def isBareKeyChar (c : Char) : Bool := c.isAlphanum || c = '_' || c = '-'

def simpleKey? (cs : List Char) : Option (String × List Char) :=
  let (bare, rest) := cs.span isBareKeyChar
  if bare.isEmpty then (shortString? cs).map fun (k, rest) => (String.ofList k, rest)
  else some (String.ofList bare, rest)

/-- A key with the parts between its points, and the text after it and blanks. -/
def key? (cs : List Char) : Option (List String × List Char) :=
  go cs.length cs
where
  go : Nat → List Char → Option (List String × List Char)
    | 0, _ => none
    | fuel + 1, cs => do
      let (k, rest) ← simpleKey? (skipBlanks cs)
      match skipBlanks rest with
      | '.' :: rest =>
        let (more, rest) ← go fuel rest
        if depthLimit ≤ more.length + 1 then none else some (k :: more, rest)
      | rest => some ([k], rest)

/-! Entries. -/

/-- The entries with a value under a key, in place of what was there. -/
def replace (entries : List (String × Toml)) (k : String) (v : Toml) : List (String × Toml) :=
  if Table.contains entries k then entries.map fun e => if e.1 = k then (k, v) else e
  else entries ++ [(k, v)]

/-- The entries with a value added where a key of one or more parts leads. Tables on the way
are made by such keys; a table that a heading implies may be passed, but the value itself is
not put into it. -/
def assign? (entries : List (String × Toml)) : List String → Toml → Option (List (String × Toml))
  | [], _ => none
  | [k], v => if Table.contains entries k then none else some (entries ++ [(k, v)])
  | k :: next :: path, v =>
    match Table.get? entries k with
    | none =>
      (assign? [] (next :: path) v).map fun inner => replace entries k (.table .dotted inner)
    | some (.table .dotted inner) =>
      (assign? inner (next :: path) v).map fun inner => replace entries k (.table .dotted inner)
    | some (.table .implied inner) =>
      if path.isEmpty then none
      else (assign? inner (next :: path) v).map fun inner =>
        replace entries k (.table .implied inner)
    | some (.tables items) =>
      match path.isEmpty, items.getLast? with
      | false, some (.table kind inner) =>
        (assign? inner (next :: path) v).map fun inner =>
          replace entries k (.tables (items.dropLast ++ [.table kind inner]))
      | _, _ => none
    | some _ => none

/-! Values. -/

def skipGaps : Nat → List Char → List Char
  | 0, cs => cs
  | fuel + 1, cs =>
    let cs := skipComment (skipBlanks cs)
    match lineBreak? cs with
    | some rest => skipGaps fuel rest
    | none => cs

/-- A character of a word: a number, a date or a truth value. -/
def isWordChar (c : Char) : Bool := c.isAlphanum || "_+-.:".toList.contains c

def wordValue? (word : List Char) : Option Toml :=
  if word = "true".toList then some (.truth true)
  else if word = "false".toList then some (.truth false)
  else if isMoment word then some .moment
  else match integer? word with
    | some i => some (.integer i)
    | none => (float? word).map .float

/-- A word, which takes the time after a date and a blank with it. -/
def word? (cs : List Char) : Option (Toml × List Char) :=
  let (word, rest) := cs.span isWordChar
  let (word, rest) := match date? word, rest with
    | some [], ' ' :: more =>
      let (time, after) := more.span isWordChar
      if time.head?.any Number.isDigit then (word ++ ' ' :: time, after) else (word, rest)
    | _, _ => (word, rest)
  (wordValue? word).map (·, rest)

mutual

/-- A value, which may hold others so many levels deep. -/
def value? : Nat → Nat → List Char → Option (Toml × List Char)
  | 0, _, _ => none
  | fuel + 1, depth, cs =>
    match cs with
    | '[' :: rest => if depth = 0 then none else items? fuel (depth - 1) [] rest
    | '{' :: rest =>
      if depth = 0 then none
      else match skipBlanks rest with
        | '}' :: rest => some (.table .braced [], rest)
        | rest => bracedEntries? fuel (depth - 1) [] rest
    | c :: _ =>
      if c = '"' ∨ c = '\'' then (string? cs).map fun (s, rest) => (.text (String.ofList s), rest)
      else word? cs
    | [] => none

def items? : Nat → Nat → List Toml → List Char → Option (Toml × List Char)
  | 0, _, _, _ => none
  | fuel + 1, depth, done, cs =>
    match skipGaps cs.length cs with
    | ']' :: rest => some (.array done.reverse, rest)
    | cs => do
      let (v, rest) ← value? fuel depth cs
      match skipGaps rest.length rest with
      | ',' :: rest => items? fuel depth (v :: done) rest
      | ']' :: rest => some (.array (v :: done).reverse, rest)
      | _ => none

def bracedEntries? : Nat → Nat → List (String × Toml) → List Char → Option (Toml × List Char)
  | 0, _, _, _ => none
  | fuel + 1, depth, entries, cs => do
    let (path, rest) ← key? cs
    let (v, rest) ← value? fuel depth (skipBlanks (← expect? '=' rest))
    let entries ← assign? entries path v
    match skipBlanks rest with
    | ',' :: rest => bracedEntries? fuel depth entries rest
    | '}' :: rest => some (.table .braced entries, rest)
    | _ => none

end

/-! Reading records. -/

def members? : Toml → Option (List (String × Toml))
  | .table _ entries => some entries
  /- a date is a record too, but none of its fields is known to others -/
  | .moment => some []
  | _ => none

def array? : Toml → Option (List Toml)
  | .array items => some items
  | .tables items => some items
  | _ => none

def isEmptyCollection : Toml → Bool
  | .array items => items.isEmpty
  | .tables items => items.isEmpty
  | .table _ entries => entries.isEmpty
  | _ => false

/-- A text, or a table with nothing under that name alone. -/
def variant? : Toml → Option String
  | .text s => some s
  | .table _ [(s, v)] => if v.isEmptyCollection then some s else none
  | _ => none

end Toml

instance : Document Toml where
  members? := Toml.members?
  complete _ := true
  row? width v := v.array?.map (·.take width)
  items? := Toml.array?
  isNull _ := false
  string?
    | .text s => some s
    | _ => none
  bool?
    | .truth b => some b
    | _ => none
  float?
    | .float x => some x
    | .integer i => some (.ofInt i)
    | _ => none
  natBelow? limit
    | .integer i => if 0 ≤ i ∧ i < limit then some i.toNat else none
    | _ => none
  i64?
    | .integer i => some i
    | _ => none
  variant? := Toml.variant?
  /- settings hold no values of any kind -/
  value? _ := none

end Orchestration
