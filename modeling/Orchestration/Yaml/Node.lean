import Orchestration.Table
import Orchestration.Yaml.Token

/-! The tree of a YAML document. Where the text turns out to be faulty, every sequence and
mapping that is still open keeps what was read of it and is marked as not complete, so that
a reader that goes through the tree in order meets a fault of its own first. -/
namespace Orchestration.Yaml

inductive Node where
  | scalar (tag : Option String) (style : Style) (text : String)
  | sequence (tag : Option String) (items : List Node) (complete : Bool)
  /-- keys are the texts of scalars; a mapping is not complete if it has another key -/
  | mapping (tag : Option String) (entries : List (String × Node)) (complete : Bool)
  deriving Inhabited

namespace Node

/-- What stands where nothing is written. -/
def empty : Node := .scalar none .plain ""

/-- What an alias within its own collection stands for: it has no end. -/
def endless : Node := .sequence none [] false

def text? : Node → Option String
  | .scalar _ _ text => some text
  | _ => none

/-- The mapping of keys and values, up to the first key that is no scalar. -/
def ofPairs (tag : Option String) (pairs : List (Node × Node)) (complete : Bool) : Node :=
  let named := pairs.map fun (k, v) => k.text?.map (·, v)
  .mapping tag ((named.takeWhile Option.isSome).filterMap id) (complete && named.all Option.isSome)

end Node

/-- What is still to be read, with the nodes that have been given a name. -/
structure Rest where
  tokens : List Token
  anchors : Table Node
  /-- the texts that handles of tags stand for -/
  handles : Table String

namespace Rest

def peek? (r : Rest) : Option Token := r.tokens.head?

def skip (r : Rest) : Rest := { r with tokens := r.tokens.tail }

/-- Past a token, if it is the next one. -/
def take? (r : Rest) (t : Token) : Option Rest := if r.peek? = some t then some r.skip else none

def withAnchor (r : Rest) (name : Option String) (n : Node) : Rest :=
  match name with
  | none => r
  | some name => { r with anchors := r.anchors.put name n }

end Rest

/-- A node, or the part of it before a fault, and what follows it unless there is a fault. -/
abbrev Reading (α : Type) := α × Option Rest

/-- The full text of a tag, if its handle is known. -/
def tagText? (r : Rest) (handle suffix : String) : Option String :=
  if handle.isEmpty then some suffix else (r.handles.get? handle).map (· ++ suffix)

/-- The properties before a node: an anchor and a tag, in either order. -/
def properties? (r : Rest) : Option (Option String × Option String × Rest) :=
  match r.tokens with
  | .anchor a :: .tag h s :: tokens => do return (some a, ← tagText? r h s, { r with tokens := tokens })
  | .tag h s :: .anchor a :: tokens => do return (some a, ← tagText? r h s, { r with tokens := tokens })
  | .anchor a :: tokens => some (some a, none, { r with tokens := tokens })
  | .tag h s :: tokens => do return (none, ← tagText? r h s, { r with tokens := tokens })
  | _ => some (none, none, r)

/-- Which nodes may stand somewhere: those in blocks, and a sequence at the indentation of the
mapping around it. -/
structure Allowance where
  block : Bool
  indentless : Bool

/-- Whether a value is left out, by the token that stands in its place. -/
def isOmitted (ends : List Token) (r : Rest) : Bool := r.peek?.any ends.contains

structure Grammar where
  /-- what stands instead of an item or key that is left out -/
  keyEnds : List Token
  valueEnds : List Token
  within : Allowance

def Grammar.block : Grammar :=
  ⟨[.key, .value, .blockEnd], [.key, .value, .blockEnd], ⟨true, true⟩⟩

def Grammar.flow : Grammar :=
  ⟨[.value, .flowEntry, .flowMappingEnd], [.flowEntry, .flowMappingEnd], ⟨false, false⟩⟩

def Grammar.pair : Grammar :=
  ⟨[.value, .flowEntry, .flowSequenceEnd], [.flowEntry, .flowSequenceEnd], ⟨false, false⟩⟩

mutual

/-- A node from its first token on. -/
def node : Nat → Allowance → Rest → Reading Node
  | 0, _, _ => (.empty, none)
  | fuel + 1, allowed, r =>
    match r.peek? with
    | some (.alias name) =>
      match r.anchors.get? name with
      | some n => (n, some r.skip)
      | none => (.empty, none)
    | _ =>
      match properties? r with
      | none => (.empty, none)
      | some (anchor, tag, r) =>
        let within := r.withAnchor anchor .endless
        let named : Reading Node → Reading Node := fun (n, after) =>
          (n, after.map (·.withAnchor anchor n))
        match r.peek? with
        | some (.scalar text style) =>
          let tag := if tag = some "!" then none else tag
          named (.scalar tag style text, some r.skip)
        | some .flowSequenceStart => named (flowSequence fuel tag [] true within.skip)
        | some .flowMappingStart => named (flowMapping fuel tag [] true within.skip)
        | some .blockSequenceStart =>
          if allowed.block then named (blockSequence fuel tag [] within.skip) else (.empty, none)
        | some .blockMappingStart =>
          if allowed.block then named (blockMapping fuel tag [] within.skip) else (.empty, none)
        | some .blockEntry =>
          if allowed.indentless then named (indentless fuel tag [] within)
          else if anchor.isSome || tag.isSome then named (.scalar tag .plain "", some r)
          else (.empty, none)
        | some _ =>
          if anchor.isSome || tag.isSome then named (.scalar tag .plain "", some r)
          else (.empty, none)
        | none => (.empty, none)

def nodeUnless : Nat → List Token → Allowance → Rest → Reading Node
  | 0, _, _, _ => (.empty, none)
  | fuel + 1, ends, allowed, r =>
    if isOmitted ends r then (.empty, some r) else node fuel allowed r

/-- The items of a sequence that dashes mark, with those before them in reverse. -/
def blockSequence : Nat → Option String → List Node → Rest → Reading Node
  | 0, tag, done, _ => (.sequence tag done.reverse false, none)
  | fuel + 1, tag, done, r =>
    match r.peek? with
    | some .blockEntry =>
      match nodeUnless fuel [.blockEntry, .blockEnd] ⟨true, false⟩ r.skip with
      | (n, some r) => blockSequence fuel tag (n :: done) r
      | (n, none) => (.sequence tag (n :: done).reverse false, none)
    | some .blockEnd => (.sequence tag done.reverse true, some r.skip)
    | _ => (.sequence tag done.reverse false, none)

/-- The items of a sequence at the indentation of the mapping around it. -/
def indentless : Nat → Option String → List Node → Rest → Reading Node
  | 0, tag, done, _ => (.sequence tag done.reverse false, none)
  | fuel + 1, tag, done, r =>
    match r.peek? with
    | some .blockEntry =>
      match nodeUnless fuel [.blockEntry, .key, .value, .blockEnd] ⟨true, false⟩ r.skip with
      | (n, some r) => indentless fuel tag (n :: done) r
      | (n, none) => (.sequence tag (n :: done).reverse false, none)
    | some _ => (.sequence tag done.reverse true, some r)
    | none => (.sequence tag done.reverse false, none)

/-- The value that may follow a key. -/
def valueAfter : Nat → Grammar → Rest → Reading Node
  | 0, _, _ => (.empty, none)
  | fuel + 1, g, r =>
    match r.peek? with
    | some .value => nodeUnless fuel g.valueEnds g.within r.skip
    | some _ => (.empty, some r)
    | none => (.empty, none)

def entry : Nat → Grammar → Rest → Reading (Node × Node)
  | 0, _, _ => ((.empty, .empty), none)
  | fuel + 1, g, r =>
    match nodeUnless fuel g.keyEnds g.within r with
    | (k, none) => ((k, .endless), none)
    | (k, some r) =>
      let (v, after) := valueAfter fuel g r
      ((k, v), after)

def blockMapping : Nat → Option String → List (Node × Node) → Rest → Reading Node
  | 0, tag, done, _ => (.ofPairs tag done.reverse false, none)
  | fuel + 1, tag, done, r =>
    match r.peek? with
    | some .key =>
      match entry fuel .block r.skip with
      | (e, some r) => blockMapping fuel tag (e :: done) r
      | (e, none) => (.ofPairs tag (e :: done).reverse false, none)
    | some .blockEnd => (.ofPairs tag done.reverse true, some r.skip)
    | _ => (.ofPairs tag done.reverse false, none)

def flowSequence : Nat → Option String → List Node → Bool → Rest → Reading Node
  | 0, tag, done, _, _ => (.sequence tag done.reverse false, none)
  | fuel + 1, tag, done, first, r =>
    if r.peek? = some .flowSequenceEnd then (.sequence tag done.reverse true, some r.skip)
    else
      match if first then some r else r.take? .flowEntry with
      | none => (.sequence tag done.reverse false, none)
      | some r =>
        if r.peek? = some .flowSequenceEnd then (.sequence tag done.reverse true, some r.skip)
        else
          match if r.peek? = some .key then single fuel r.skip else node fuel ⟨false, false⟩ r with
          | (n, some r) => flowSequence fuel tag (n :: done) false r
          | (n, none) => (.sequence tag (n :: done).reverse false, none)

/-- A mapping of one entry. The token in place of a key that is left out is passed over. -/
def single : Nat → Rest → Reading Node
  | 0, _ => (.ofPairs none [] false, none)
  | fuel + 1, r =>
    let g := Grammar.pair
    if isOmitted g.keyEnds r then
      let (v, after) := valueAfter fuel g r.skip
      (.ofPairs none [(.empty, v)] after.isSome, after)
    else
      let (e, after) := entry fuel g r
      (.ofPairs none [e] after.isSome, after)

def flowMapping : Nat → Option String → List (Node × Node) → Bool → Rest → Reading Node
  | 0, tag, done, _, _ => (.ofPairs tag done.reverse false, none)
  | fuel + 1, tag, done, first, r =>
    if r.peek? = some .flowMappingEnd then (.ofPairs tag done.reverse true, some r.skip)
    else
      match if first then some r else r.take? .flowEntry with
      | none => (.ofPairs tag done.reverse false, none)
      | some r =>
        if r.peek? = some .flowMappingEnd then (.ofPairs tag done.reverse true, some r.skip)
        else
          match if r.peek? = some .key then entry fuel .flow r.skip else keyAlone fuel r with
          | (e, some r) => flowMapping fuel tag (e :: done) false r
          | (e, none) => (.ofPairs tag (e :: done).reverse false, none)

def keyAlone : Nat → Rest → Reading (Node × Node)
  | 0, _ => ((.empty, .empty), none)
  | fuel + 1, r =>
    let (k, after) := node fuel ⟨false, false⟩ r
    ((k, .empty), after)

end

/-! Documents. -/

/-- The handles that every document knows. -/
def commonHandles : Table String := Table.ofList [("!", "!"), ("!!", "tag:yaml.org,2002:")]

/-- Directives before a document: at most one version, which is known, and no handle
twice. -/
def directives? : Bool → Table String → List Token → Option (Table String × List Token)
  | versioned, handles, .versionDirective major minor :: rest =>
    if versioned || major ≠ 1 || (minor ≠ 1 && minor ≠ 2) then none
    else directives? true handles rest
  | versioned, handles, .tagDirective handle expansion :: rest =>
    if handles.contains handle then none
    else directives? versioned (handles.put handle expansion) rest
  | _, handles, rest => some (handles, rest)

/-- What a text holds: its first document, and whether the text is in order and has no
other. -/
structure Contents where
  root : Node
  sound : Bool

def isDocumentEdge : Token → Bool
  | .versionDirective .. | .tagDirective .. | .documentStart | .documentEnd | .streamEnd => true
  | _ => false

def document (r : Rest) : Contents :=
  let fuel := 4 * r.tokens.length + 4
  match node fuel ⟨true, false⟩ r with
  | (n, some r) => ⟨n, endsSoundly r.tokens⟩
  | (n, none) => ⟨n, false⟩
where
  endsSoundly (ts : List Token) : Bool :=
    ts.dropWhile (· = .documentEnd) == [.streamEnd]

/-- The content of a text. One without a document is an empty node. -/
def read (text : String) : Contents :=
  match tokens text with
  | [] => ⟨.endless, false⟩
  | [.streamEnd] => ⟨.empty, true⟩
  | first :: rest =>
    if isDocumentEdge first ∧ first ≠ .documentEnd then
      match directives? false [] (first :: rest) with
      | some (handles, .documentStart :: more) =>
        let handles := commonHandles.foldl
          (fun t (e : String × String) => if t.contains e.1 then t else t.put e.1 e.2) handles
        match more with
        | next :: _ =>
          if isDocumentEdge next then ⟨.empty, document.endsSoundly more⟩
          else document ⟨more, [], handles⟩
        | [] => ⟨.endless, false⟩
      | _ => ⟨.endless, false⟩
    else document ⟨first :: rest, [], commonHandles⟩

end Orchestration.Yaml
