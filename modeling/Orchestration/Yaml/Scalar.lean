import Orchestration.Text.CodePoint
import Orchestration.Yaml.Cursor

/-! The scalars of YAML texts: plain, quoted and block. A line break between words counts as
a blank, and each further one as itself. -/
namespace Orchestration.Yaml

structure Between where
  blanks : List Char
  /-- whether a line has been broken -/
  broken : Bool
  first : List Char
  further : List Char

namespace Between

def none : Between := ⟨[], false, [], []⟩

/-- A break that an escape has made disappear. -/
def escaped : Between := ⟨[], true, [], []⟩

def fold (b : Between) : List Char :=
  if b.broken then
    if b.first = ['\n'] then if b.further.isEmpty then [' '] else b.further
    else b.first ++ b.further
  else b.blanks

/-- Takes in the blanks and breaks at a cursor. A tab before column `indent` of a further
line is refused. `fuel` bounds their number. -/
def gather? (indent : Nat) : Nat → Between → Cursor → Option (Between × Cursor)
  | 0, b, c => some (b, c)
  | fuel + 1, b, c =>
    if c.atBlank then
      if b.broken then
        if c.column < indent && c.peek? = some '\t' then Option.none
        else gather? indent fuel b c.skip
      else gather? indent fuel { b with blanks := b.blanks ++ c.rest.take 1 } c.skip
    else if c.atBreak then
      let (text, c) := c.takeBreak
      if b.broken then gather? indent fuel { b with further := b.further ++ text } c
      else gather? indent fuel { b with blanks := [], broken := true, first := text } c
    else some (b, c)

end Between

/-! Plain scalars. -/

def isFlowMark (c : Char) : Bool := c = ',' || c = '[' || c = ']' || c = '{' || c = '}'

/-- The next word of a plain scalar, unless a colon stands before a mark that cannot follow
it. -/
def plainWord? (inFlow : Bool) : Nat → List Char → Cursor → Option (List Char × Cursor)
  | 0, word, c => some (word.reverse, c)
  | fuel + 1, word, c =>
    match c.peek? with
    | none => some (word.reverse, c)
    | some x =>
      if c.isGap then some (word.reverse, c)
      else if inFlow && x = ':' && (c.ahead? 1).any (fun y => isFlowMark y || y = '?') then none
      else if (x = ':' && c.isGapAhead 1) || (inFlow && isFlowMark x) then some (word.reverse, c)
      else plainWord? inFlow fuel (x :: word) c.skip

/-- A plain scalar from a cursor on: its text, where it ends, and whether it ends on a new
line. Outside brackets its lines begin at column `indent` or later. -/
def plain? (inFlow : Bool) (indent : Nat) (c : Cursor) : Option (List Char × Cursor × Bool) :=
  go (c.rest.length + 1) [] .none c
where
  go : Nat → List Char → Between → Cursor → Option (List Char × Cursor × Bool)
    | 0, text, between, c => some (text, c, between.broken)
    | fuel + 1, text, between, c =>
      if c.atDocumentMark || c.peek? = some '#' then some (text, c, between.broken)
      else do
        let (word, c) ← plainWord? inFlow (c.rest.length + 1) [] c
        let (text, between) := if word.isEmpty then (text, between)
          else (text ++ between.fold ++ word, Between.none)
        if !(c.atBlank || c.atBreak) then return (text, c, between.broken)
        let (between, c) ← between.gather? indent c.rest.length c
        if !inFlow && c.column < indent then return (text, c, between.broken)
        go fuel text between c

/-! Quoted scalars. -/

def escapeOf? : Char → Option Char
  | '0' => some '\x00'
  | 'a' => some '\x07'
  | 'b' => some '\x08'
  | 't' => some '\t'
  | '\t' => some '\t'
  | 'n' => some '\n'
  | 'v' => some '\x0b'
  | 'f' => some '\x0c'
  | 'r' => some '\r'
  | 'e' => some '\x1b'
  | ' ' => some ' '
  | '"' => some '"'
  | '/' => some '/'
  | '\\' => some '\\'
  | 'N' => some '\x85'
  | '_' => some '\xa0'
  | 'L' => some '\u2028'
  | 'P' => some '\u2029'
  | _ => none

def escapeWidth? : Char → Option Nat
  | 'x' => some 2
  | 'u' => some 4
  | 'U' => some 8
  | _ => none

def escape? (c : Cursor) : Option (Char × Cursor) := do
  let letter ← c.ahead? 1
  match escapeOf? letter with
  | some x => return (x, c.skipMany 2)
  | none =>
    let width ← escapeWidth? letter
    let digits := (c.rest.drop 2).take width
    if digits.length ≠ width then failure
    let x ← Text.charOfHex? digits
    return (x, c.skipMany (2 + width))

/-- The next word of a quoted scalar, and whether an escaped line break ends it. -/
def quotedWord? (double : Bool) : Nat → List Char → Cursor → Option (List Char × Cursor × Bool)
  | 0, word, c => some (word.reverse, c, false)
  | fuel + 1, word, c =>
    match c.peek? with
    | none => some (word.reverse, c, false)
    | some x =>
      if c.isGap then some (word.reverse, c, false)
      else if double then
        if x = '"' then some (word.reverse, c, false)
        else if x = '\\' then
          if (c.ahead? 1).any isBreak then some (word.reverse, (c.skip).takeBreak.2, true)
          else do
            let (y, c) ← escape? c
            quotedWord? double fuel (y :: word) c
        else quotedWord? double fuel (x :: word) c.skip
      else if x = '\'' then
        if c.ahead? 1 = some '\'' then quotedWord? double fuel ('\'' :: word) (c.skipMany 2)
        else some (word.reverse, c, false)
      else quotedWord? double fuel (x :: word) c.skip

def quoted? (double : Bool) (c : Cursor) : Option (List Char × Cursor) :=
  go (c.rest.length + 1) [] c.skip
where
  quote : Char := if double then '"' else '\''
  go : Nat → List Char → Cursor → Option (List Char × Cursor)
    | 0, _, _ => none
    | fuel + 1, text, c =>
      if c.atDocumentMark || c.atEnd then none
      else do
        let (word, c, escaped) ← quotedWord? double (c.rest.length + 1) [] c
        let text := text ++ word
        if !escaped && c.peek? = some quote then return (text, c.skip)
        let (between, c) ← (if escaped then Between.escaped else Between.none).gather? 0
          c.rest.length c
        go fuel (text ++ between.fold) c

/-! Block scalars. -/

/-- What happens to the line breaks at the end. -/
inductive Chomping where
  | strip | clip | keep
  deriving DecidableEq

def chomping? : Char → Option Chomping
  | '-' => some .strip
  | '+' => some .keep
  | _ => none

/-- The marks after a block indicator, in any order: chomping and indentation. -/
def blockHeader? (c : Cursor) : Option (Chomping × Nat × Cursor) :=
  match c.peek?.bind chomping? with
  | some k =>
    let c := c.skip
    match c.peek? with
    | some d => if d.isDigit then if d = '0' then none else some (k, d.toNat - '0'.toNat, c.skip)
      else some (k, 0, c)
    | none => some (k, 0, c)
  | none =>
    match c.peek? with
    | some d =>
      if d.isDigit then
        if d = '0' then none
        else
          let c := c.skip
          match c.peek?.bind chomping? with
          | some k => some (k, d.toNat - '0'.toNat, c.skip)
          | none => some (.clip, d.toNat - '0'.toNat, c)
      else some (.clip, 0, c)
    | none => some (.clip, 0, c)

/-- Past blanks and a comment to the next line break, which has to be there unless the text
ends. -/
def restOfLine? (c : Cursor) : Option Cursor :=
  let c := (c.takeWhile isBlank).2
  let c := if c.peek? = some '#' then (c.takeWhile (!isBreak ·)).2 else c
  if c.atEnd then some c else if c.atBreak then some c.takeBreak.2 else none

/-- Past the indentation of lines, and past empty lines, whose breaks are gathered. An
indentation of zero is not known yet; `deepest` is the deepest that was met. -/
def blockBreaks? (indent : Nat) : Nat → Nat → List Char → Cursor →
    Option (Nat × List Char × Cursor)
  | 0, deepest, breaks, c => some (deepest, breaks, c)
  | fuel + 1, deepest, breaks, c =>
    let blanks := c.rest.takeWhile (· = ' ')
    let blanks := if indent = 0 then blanks else blanks.take (indent - c.column)
    let c := c.skipMany blanks.length
    let deepest := max deepest c.column
    if (indent = 0 || c.column < indent) && c.peek? = some '\t' then none
    else if c.atBreak then
      let (text, c) := c.takeBreak
      blockBreaks? indent fuel deepest (breaks ++ text) c
    else some (deepest, breaks, c)

/-- A block scalar from its indicator on, within a block at column `parent`. -/
def block? (literal : Bool) (parent : Int) (c : Cursor) : Option (List Char × Cursor) := do
  let (chomping, increment, c) ← blockHeader? c.skip
  let c ← restOfLine? c
  let stated := if increment = 0 then 0 else (max parent 0).toNat + increment
  let (deepest, breaks, c) ← blockBreaks? stated (c.rest.length + 1) 0 [] c
  let indent := if stated = 0 then max (max deepest (parent + 1).toNat) 1 else stated
  go chomping indent (c.rest.length + 1) [] [] breaks false c
where
  /-- `first` is the break after the last line, `further` are those after it; `deep` says
  whether that line began with a blank. -/
  go (chomping : Chomping) (indent : Nat) :
      Nat → List Char → List Char → List Char → Bool → Cursor → Option (List Char × Cursor)
    | 0, _, _, _, _, _ => none
    | fuel + 1, text, first, further, deep, c =>
      if c.column = indent && !c.atEnd then do
        let blank := c.atBlank
        let joint :=
          if !literal && first = ['\n'] && !deep && !blank then
            if further.isEmpty then [' '] else further
          else first ++ further
        let (line, c) := c.takeWhile (!isBreak ·)
        let (first, c) := c.takeBreak
        let (_, further, c) ← blockBreaks? indent (c.rest.length + 1) 0 [] c
        go chomping indent fuel (text ++ joint ++ line) first further blank c
      else
        let tail := match chomping with
          | .strip => []
          | .clip => first
          | .keep => first ++ further
        some (text ++ tail, c)

end Orchestration.Yaml
