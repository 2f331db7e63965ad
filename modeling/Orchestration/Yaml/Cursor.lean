/-! A place in a YAML text: what is still to be read, and where that begins. -/
namespace Orchestration.Yaml

def isBreak (c : Char) : Bool :=
  c = '\n' || c = '\r' || c = '\x85' || c = '\u2028' || c = '\u2029'

def isBlank (c : Char) : Bool := c = ' ' || c = '\t'

def isNameChar (c : Char) : Bool := c.isAlphanum || c = '_' || c = '-'

def isAllowed (c : Char) : Bool :=
  c = '\t' || c = '\n' || c = '\r' || c = '\x85' ||
    (' ' ≤ c && c ≤ '~') || (0xA0 ≤ c.toNat && c.toNat ≠ 0xFFFE && c.toNat ≠ 0xFFFF)

structure Cursor where
  rest : List Char
  index : Nat
  line : Nat
  column : Nat
  deriving Inhabited

namespace Cursor

def start (text : List Char) : Cursor := ⟨text, 0, 0, 0⟩

def peek? (c : Cursor) : Option Char := c.rest.head?

def ahead? (c : Cursor) (places : Nat) : Option Char := c.rest[places]?

def skip (c : Cursor) : Cursor :=
  match c.rest with
  | [] => c
  | _ :: rest => ⟨rest, c.index + 1, c.line, c.column + 1⟩

def skipMany (c : Cursor) (places : Nat) : Cursor :=
  ⟨c.rest.drop places, c.index + places, c.line, c.column + places⟩

/-- Past a line break, and the text that it stands for. -/
def takeBreak (c : Cursor) : List Char × Cursor :=
  match c.rest with
  | '\r' :: '\n' :: rest => (['\n'], ⟨rest, c.index + 2, c.line + 1, 0⟩)
  | b :: rest =>
    if isBreak b then
      (if b = '\u2028' ∨ b = '\u2029' then [b] else ['\n'], ⟨rest, c.index + 1, c.line + 1, 0⟩)
    else ([], c)
  | [] => ([], c)

def isGapAhead (c : Cursor) (places : Nat) : Bool :=
  match c.ahead? places with
  | none => true
  | some x => isBlank x || isBreak x

def isGap (c : Cursor) : Bool := c.isGapAhead 0

def atBreak (c : Cursor) : Bool := c.peek?.any isBreak

def atBlank (c : Cursor) : Bool := c.peek?.any isBlank

def atEnd (c : Cursor) : Bool := c.rest.isEmpty

/-- The longest run of characters of a kind, none of them a line break, and what follows. -/
def takeWhile (p : Char → Bool) (c : Cursor) : List Char × Cursor :=
  let taken := c.rest.takeWhile p
  (taken, c.skipMany taken.length)

/-- Whether three marks and a gap stand at the beginning of a line. -/
def isDocumentMark (c : Cursor) (mark : Char) : Bool :=
  c.column = 0 && c.rest.take 3 == [mark, mark, mark] && c.isGapAhead 3

def atDocumentMark (c : Cursor) : Bool := c.isDocumentMark '-' || c.isDocumentMark '.'

end Cursor
end Orchestration.Yaml
