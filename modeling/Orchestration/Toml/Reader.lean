import Orchestration.Toml

/-! Reading a TOML text: its lines are headings and assignments, and each section of
assignments fills the table of the heading before it. -/
namespace Orchestration.Toml

inductive Line where
  | heading (path : List String) (repeated : Bool)
  | assignment (path : List String) (value : Toml)

def endOfLine? (cs : List Char) : Option (List Char) :=
  match skipComment (skipBlanks cs) with
  | [] => some []
  | cs => lineBreak? cs

def line? (cs : List Char) : Option (Line × List Char) :=
  match cs with
  | '[' :: '[' :: rest => do
    let (path, rest) ← key? rest
    match rest with
    | ']' :: ']' :: rest => some (.heading path true, rest)
    | _ => none
  | '[' :: rest => do
    let (path, rest) ← key? rest
    return (.heading path false, ← expect? ']' rest)
  | _ => do
    let (path, rest) ← key? cs
    let rest := skipBlanks (← expect? '=' rest)
    let (v, rest) ← value? (2 * rest.length + 2) (depthLimit - 1) rest
    return (.assignment path v, rest)

def lines? : Nat → List Char → Option (List Line)
  | 0, _ => none
  | fuel + 1, cs =>
    match skipBlanks cs with
    | [] => some []
    | cs =>
      match endOfLine? cs with
      | some rest => lines? fuel rest
      | none => do
        let (line, rest) ← line? cs
        return line :: (← lines? fuel (← endOfLine? rest))

abbrev Entries := List (String × Toml)

/-- The entries after a change to the table that a heading's last part is in. Tables on the way
are implied; of repeated ones the last is meant. -/
def changeAt? (change : Entries → Option Entries) : List String → Entries → Option Entries
  | [], entries => change entries
  | k :: path, entries =>
    match Table.get? entries k with
    | none => (changeAt? change path []).map fun inner =>
        replace entries k (.table .implied inner)
    | some (.table .braced _) => none
    | some (.table kind inner) =>
      (changeAt? change path inner).map fun inner => replace entries k (.table kind inner)
    | some (.tables items) =>
      match items.getLast? with
      | some (.table kind inner) =>
        (changeAt? change path inner).map fun inner =>
          replace entries k (.tables (items.dropLast ++ [.table kind inner]))
      | _ => none
    | some _ => none

/-- The entries of a section that follow those which are there already. -/
def section? (entries : Entries) (assignments : List (List String × Toml)) : Option Entries :=
  assignments.foldlM (fun entries (path, v) => assign? entries path v) entries

/-- The entries around a section that a heading stands over. -/
def withSection? (k : String) (repeated : Bool) (assignments : List (List String × Toml))
    (around : Entries) : Option Entries :=
  match repeated, Table.get? around k with
  | false, none => (section? [] assignments).map fun es => replace around k (.table .headed es)
  | false, some (.table .implied inner) =>
    (section? inner assignments).map fun es => replace around k (.table .headed es)
  | true, none =>
    (section? [] assignments).map fun es => replace around k (.tables [.table .headed es])
  | true, some (.tables items) =>
    (section? [] assignments).map fun es =>
      replace around k (.tables (items ++ [.table .headed es]))
  | _, _ => none

def takeSection : List Line → List (List String × Toml) × List Line
  | .assignment path v :: rest =>
    let (more, rest) := takeSection rest
    ((path, v) :: more, rest)
  | lines => ([], lines)

def withSections? : Nat → Entries → List Line → Option Entries
  | 0, entries, _ => some entries
  | fuel + 1, entries, .heading path repeated :: lines => do
    let k ← path.getLast?
    let (assignments, lines) := takeSection lines
    let entries ← changeAt? (withSection? k repeated assignments) path.dropLast entries
    withSections? fuel entries lines
  | _, entries, _ => some entries

def read? (text : String) : Option Toml := do
  let chars := text.toList
  let chars := if chars.head? = some '\ufeff' then chars.tail else chars
  let lines ← lines? (chars.length + 1) chars
  let (assignments, lines) := takeSection lines
  let root ← section? [] assignments
  return .table .headed (← withSections? (lines.length + 1) root lines)

end Orchestration.Toml
