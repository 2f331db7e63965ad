import Orchestration.Yaml.Scalar

/-! The tokens of a YAML text. Indentation shows as tokens that open and close blocks, and a
key without a mark of its own is recognised by the colon after it, so that its token is put
in before it. -/
namespace Orchestration.Yaml

inductive Style where
  | plain | quoted | block
  deriving DecidableEq, Inhabited

inductive Token where
  | versionDirective (major minor : Nat)
  | tagDirective (handle expansion : String)
  | documentStart
  | documentEnd
  | blockSequenceStart
  | blockMappingStart
  | blockEnd
  | flowSequenceStart
  | flowSequenceEnd
  | flowMappingStart
  | flowMappingEnd
  | blockEntry
  | flowEntry
  | key
  | value
  | alias (name : String)
  | anchor (name : String)
  | tag (handle suffix : String)
  | scalar (text : String) (style : Style)
  | streamEnd
  deriving DecidableEq, Inhabited

/-- A token that may turn out to begin a key. -/
structure KeyPlace where
  /-- whether it has to be one, since it stands at the indentation of its block -/
  required : Bool
  /-- how many tokens are before it -/
  number : Nat
  index : Nat
  line : Nat
  column : Nat

structure Scan where
  cursor : Cursor
  /-- in reverse -/
  tokens : List Token
  /-- the column of the innermost block, `-1` before the first -/
  indent : Int
  outer : List Int
  keyAllowed : Bool
  /-- of the innermost bracket first; the last one is outside all of them -/
  keys : List (Option KeyPlace)

namespace Scan

def start (text : List Char) : Scan := ⟨.start text, [], -1, [], true, [none]⟩

def inFlow (s : Scan) : Bool := 1 < s.keys.length

def push (s : Scan) (t : Token) : Scan := { s with tokens := t :: s.tokens }

/-- Puts a token in after the first `number` ones. -/
def insert (s : Scan) (number : Nat) (t : Token) : Scan :=
  let later := s.tokens.length - number
  { s with tokens := s.tokens.take later ++ t :: s.tokens.drop later }

def withKey (s : Scan) (k : Option KeyPlace) : Scan := { s with keys := k :: s.keys.tail }

/-- Gives up the key that may be pending, unless it has to be one. -/
def dropKey? (s : Scan) : Option Scan :=
  match s.keys.head?.join with
  | some k => if k.required then none else some (s.withKey none)
  | none => some s

/-- Remembers that the next token may begin a key. -/
def saveKey? (s : Scan) : Option Scan :=
  if s.keyAllowed then do
    let s ← s.dropKey?
    let c := s.cursor
    return s.withKey (some ⟨!s.inFlow && s.indent = c.column, s.tokens.length, c.index, c.line, c.column⟩)
  else some s

/-- A key is on one line and not too long. -/
def keyReach : Nat := 1024

def isStale (c : Cursor) (k : KeyPlace) : Bool := k.line < c.line || k.index + keyReach < c.index

/-- Gives up the keys that are too far back. -/
def dropStale? (s : Scan) : Option Scan := do
  let keys ← s.keys.mapM fun k => match k with
    | none => some none
    | some k => if isStale s.cursor k then if k.required then none else some none else some (some k)
  return { s with keys := keys }

/-- Opens a block at a column, if it is deeper than the innermost one. -/
def openBlock (s : Scan) (column : Nat) (number : Nat) (t : Token) : Scan :=
  if s.inFlow || (column : Int) ≤ s.indent then s
  else ({ s with indent := column, outer := s.indent :: s.outer }).insert number t

/-- Closes the blocks that are deeper than a column. -/
def closeBlocks (s : Scan) (column : Int) : Scan :=
  if s.inFlow then s
  else
    let open' := (s.indent :: s.outer).takeWhile (column < ·)
    let others := (s.indent :: s.outer).dropWhile (column < ·)
    { s with
      tokens := List.replicate open'.length .blockEnd ++ s.tokens
      indent := others.headD (-1)
      outer := others.tail }

/-- Past blanks, comments and line breaks. Outside brackets a new line may begin with a
key. -/
def skipGap : Nat → Scan → Scan
  | 0, s => s
  | fuel + 1, s =>
    let c := s.cursor
    let c := if c.column = 0 && c.peek? = some '\ufeff' then c.skip else c
    let c := (c.takeWhile fun x => x = ' ' || ((s.inFlow || !s.keyAllowed) && x = '\t')).2
    let c := if c.peek? = some '#' then (c.takeWhile (!isBreak ·)).2 else c
    if c.atBreak then
      skipGap fuel { s with cursor := c.takeBreak.2, keyAllowed := s.keyAllowed || !s.inFlow }
    else { s with cursor := c }

def mark (s : Scan) (width : Nat) (t : Token) (keyAllowed : Bool) : Scan :=
  ({ s with cursor := s.cursor.skipMany width, keyAllowed := keyAllowed }).push t

def documentMark? (s : Scan) (t : Token) : Option Scan := do
  let s ← (s.closeBlocks (-1)).dropKey?
  return s.mark 3 t false

def finish? (s : Scan) : Option Scan := do
  let s ← (s.closeBlocks (-1)).dropKey?
  return s.push .streamEnd

/-! Directives. -/

def digits? (c : Cursor) : Option (Nat × Cursor) :=
  let (ds, c) := c.takeWhile Char.isDigit
  if ds.isEmpty || 9 < ds.length then none
  else some (ds.foldl (fun n d => n * 10 + (d.toNat - '0'.toNat)) 0, c)

def isUriChar (full : Bool) (c : Char) : Bool :=
  isNameChar c || ";/?:@&=+$.%!~*'()".toList.contains c || (full && (c = ',' || c = '[' || c = ']'))

/-- The text of a tag, with the bytes that it writes as numbers. -/
def unescapeUri? : List Char → Option String := fun cs => do
  let bytes ← go cs
  String.fromUTF8? (ByteArray.mk bytes.toArray)
where
  go : List Char → Option (List UInt8)
    | [] => some []
    | '%' :: a :: b :: rest => do
      let h ← Text.hexDigit? a
      let l ← Text.hexDigit? b
      return UInt8.ofNat (h * 16 + l) :: (← go rest)
    | '%' :: _ => none
    | c :: rest => do return (String.singleton c).toUTF8.toList ++ (← go rest)

def uri? (full : Bool) (head : List Char) (c : Cursor) : Option (String × Cursor) :=
  let (body, c) := c.takeWhile (isUriChar full)
  if head.isEmpty && body.isEmpty then none
  else (unescapeUri? (head ++ body)).map (·, c)

/-- A handle: a name that may be closed by a second mark. -/
def handle? (c : Cursor) : Option (List Char × Cursor) :=
  if c.peek? ≠ some '!' then none
  else
    let (name, c) := c.skip.takeWhile isNameChar
    if c.peek? = some '!' then some ('!' :: (name ++ ['!']), c.skip) else some ('!' :: name, c)

def skipBlanks (c : Cursor) : Cursor := (c.takeWhile isBlank).2

def directiveBody? (name : List Char) (c : Cursor) : Option (Token × Cursor) := do
  let c := skipBlanks c
  if name = "YAML".toList then
    let (major, c) ← digits? c
    if c.peek? ≠ some '.' then failure
    let (minor, c) ← digits? c.skip
    return (.versionDirective major minor, c)
  else if name = "TAG".toList then
    let (h, c) ← handle? c
    if h ≠ ['!'] ∧ h.getLast? ≠ some '!' then failure
    if !c.atBlank then failure
    let (expansion, c) ← uri? true [] (skipBlanks c)
    if !c.isGap then failure
    return (.tagDirective (String.ofList h) expansion, c)
  else failure

def directive? (s : Scan) : Option Scan := do
  let s ← (s.closeBlocks (-1)).dropKey?
  let (name, c) := s.cursor.skip.takeWhile isNameChar
  if name.isEmpty || !c.isGap then failure
  let (t, c) ← directiveBody? name c
  let c ← restOfLine? c
  return ({ s with cursor := c, keyAllowed := false }).push t

/-! Properties and scalars. -/

def anchor? (s : Scan) (make : String → Token) : Option Scan := do
  let s ← s.saveKey?
  let (name, c) := s.cursor.skip.takeWhile isNameChar
  let ends := c.isGap || c.peek?.any fun x => "?:,]\x7d%@`".toList.contains x
  if name.isEmpty || !ends then failure
  return ({ s with cursor := c, keyAllowed := false }).push (make (String.ofList name))

def tag? (s : Scan) : Option Scan := do
  let s ← s.saveKey?
  let c := s.cursor
  let (t, c) ←
    if c.ahead? 1 = some '<' then do
      let (suffix, c) ← uri? true [] (c.skipMany 2)
      if c.peek? ≠ some '>' then failure
      some (Token.tag "" suffix, c.skip)
    else do
      let (h, c) ← handle? c
      if 1 < h.length && h.getLast? = some '!' then
        let (suffix, c) ← uri? false [] c
        some (Token.tag (String.ofList h) suffix, c)
      else
        let body := h.tail
        let (more, c) := c.takeWhile (isUriChar false)
        let suffix ← unescapeUri? (body ++ more)
        some (if suffix.isEmpty then Token.tag "" "!" else Token.tag "!" suffix, c)
  if !(c.isGap || (s.inFlow && c.peek? = some ',')) then failure
  return ({ s with cursor := c, keyAllowed := false }).push t

def quotedScalar? (s : Scan) (double : Bool) : Option Scan := do
  let s ← s.saveKey?
  let (text, c) ← quoted? double s.cursor
  return ({ s with cursor := c, keyAllowed := false }).push (.scalar (String.ofList text) .quoted)

def plainScalar? (s : Scan) : Option Scan := do
  let s ← s.saveKey?
  let (text, c, onNewLine) ← plain? s.inFlow (s.indent + 1).toNat s.cursor
  return ({ s with cursor := c, keyAllowed := onNewLine }).push (.scalar (String.ofList text) .plain)

def blockScalar? (s : Scan) (literal : Bool) : Option Scan := do
  let s ← s.dropKey?
  let (text, c) ← block? literal s.indent s.cursor
  return ({ s with cursor := c, keyAllowed := true }).push (.scalar (String.ofList text) .block)

/-! Structure. -/

def openFlow? (s : Scan) (t : Token) : Option Scan := do
  let s ← s.saveKey?
  return ({ s with keys := none :: s.keys }).mark 1 t true

def closeFlow? (s : Scan) (t : Token) : Option Scan := do
  let s ← s.dropKey?
  return ({ s with keys := if s.inFlow then s.keys.tail else s.keys }).mark 1 t false

def flowEntry? (s : Scan) : Option Scan := do
  return (← s.dropKey?).mark 1 .flowEntry true

def blockEntry? (s : Scan) : Option Scan := do
  if !s.inFlow && !s.keyAllowed then failure
  let s := s.openBlock s.cursor.column s.tokens.length .blockSequenceStart
  return (← s.dropKey?).mark 1 .blockEntry true

def explicitKey? (s : Scan) : Option Scan := do
  if !s.inFlow && !s.keyAllowed then failure
  let s := s.openBlock s.cursor.column s.tokens.length .blockMappingStart
  return (← s.dropKey?).mark 1 .key (!s.inFlow)

def colon? (s : Scan) : Option Scan :=
  match s.keys.head?.join with
  | some k =>
    let s := (s.insert k.number .key).openBlock k.column k.number .blockMappingStart
    some ((s.withKey none).mark 1 .value false)
  | none =>
    if !s.inFlow && !s.keyAllowed then none
    else
      let s := s.openBlock s.cursor.column s.tokens.length .blockMappingStart
      some (s.mark 1 .value (!s.inFlow))

def beginsPlain (s : Scan) (x : Char) : Bool :=
  (!isBlank x && !"-?:,[]\x7b\x7d#&*!|>'\"%@`".toList.contains x) ||
    (x = '-' && !(s.cursor.ahead? 1).any isBlank) ||
    (!s.inFlow && (x = '?' || x = ':') && !s.cursor.isGapAhead 1)

/-- The tokens up to and with the next one of the text, or none if there is no such token. -/
def next? (s : Scan) : Option Scan := do
  let s := s.skipGap (s.cursor.rest.length + 1)
  let s ← s.dropStale?
  let s := s.closeBlocks s.cursor.column
  let c := s.cursor
  match c.peek? with
  | none => s.finish?
  | some x =>
    let gapNext := c.isGapAhead 1
    if c.column = 0 && x = '%' then s.directive?
    else if c.isDocumentMark '-' then s.documentMark? .documentStart
    else if c.isDocumentMark '.' then s.documentMark? .documentEnd
    else if x = '[' then s.openFlow? .flowSequenceStart
    else if x = '\x7b' then s.openFlow? .flowMappingStart
    else if x = ']' then s.closeFlow? .flowSequenceEnd
    else if x = '}' then s.closeFlow? .flowMappingEnd
    else if x = ',' then s.flowEntry?
    else if x = '-' && gapNext then s.blockEntry?
    else if x = '?' && (s.inFlow || gapNext) then s.explicitKey?
    else if x = ':' && (s.inFlow || gapNext) then s.colon?
    else if x = '*' then s.anchor? .alias
    else if x = '&' then s.anchor? .anchor
    else if x = '!' then s.tag?
    else if x = '|' && !s.inFlow then s.blockScalar? true
    else if x = '>' && !s.inFlow then s.blockScalar? false
    else if x = '\'' then s.quotedScalar? false
    else if x = '"' then s.quotedScalar? true
    else if s.beginsPlain x then s.plainScalar?
    else none

/-- The tokens before a fault that are certain: where one may still turn out to begin a key,
it and those after it are not. -/
def settled (s : Scan) : List Token :=
  let s := (s.skipGap (s.cursor.rest.length + 1)).dropStale?.getD s
  let pending := s.keys.filterMap fun k => k.map KeyPlace.number
  s.tokens.reverse.take (pending.foldl min s.tokens.length)

/-- The tokens of a text, as far as it has any. The last one is the end of the stream, unless
the text is faulty. -/
def run : Nat → Scan → List Token
  | 0, s => s.settled
  | fuel + 1, s =>
    match s.next? with
    | none => s.settled
    | some s =>
      if s.tokens.head? = some .streamEnd then s.tokens.reverse else run fuel s

end Scan

def tokens (text : String) : List Token :=
  let chars := text.toList
  if !chars.all isAllowed then []
  else
    let chars := if chars.head? = some '\ufeff' then chars.tail else chars
    Scan.run (chars.length + 2) (.start chars)

end Orchestration.Yaml
