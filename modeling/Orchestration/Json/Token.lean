import Orchestration.Number.Reading
import Orchestration.Text.CodePoint

/-! The lexical side of JSON texts: one pass over the characters, in which every state
says what has been gathered of the token at hand. -/
namespace Orchestration.Json

inductive Token where
  | open (object : Bool)
  | close (object : Bool)
  | comma
  | colon
  | atom (value : Json)

/-- What the pass is in the middle of. Gathered characters stand in reverse. -/
inductive Lexing where
  | between
  /-- a number or one of the three names -/
  | word (gathered : List Char)
  | text (gathered : List Char)
  | escape (gathered : List Char)
  /-- inside `\u`, with the digits still to come and the value so far; `high` is a
  surrogate that waits for its partner -/
  | unit (gathered : List Char) (high : Option Nat) (missing : Nat) (value : Nat)
  /-- after a high surrogate, where only `\u` may follow -/
  | partner (gathered : List Char) (high : Nat) (backslash : Bool)

def isBlank (c : Char) : Bool := c = ' ' || c = '\n' || c = '\t' || c = '\r'

/-- A word runs until a character that no number and no name contains. -/
def isWordChar (c : Char) : Bool :=
  c.isAlphanum || c = '+' || c = '-' || c = '.'

def wordValue? (word : List Char) : Option Json :=
  if word = "null".toList then some .null
  else if word = "true".toList then some (.bool true)
  else if word = "false".toList then some (.bool false)
  else (Number.read? word).map .num

def punctuation? : Char → Option Token
  | '{' => some (.open true)
  | '}' => some (.close true)
  | '[' => some (.open false)
  | ']' => some (.close false)
  | ',' => some .comma
  | ':' => some .colon
  | _ => none

def escaped? : Char → Option Char
  | '"' => some '"'
  | '\\' => some '\\'
  | '/' => some '/'
  | 'b' => some '\x08'
  | 'f' => some '\x0c'
  | 'n' => some '\n'
  | 'r' => some '\r'
  | 't' => some '\t'
  | _ => none

/-- The state after the last digit of a `\u` escape: surrogates go in pairs. -/
def Lexing.afterUnit (gathered : List Char) (high : Option Nat) (unit : Nat) : Option Lexing :=
  match high with
  | none =>
    if 0xD800 ≤ unit ∧ unit < 0xDC00 then some (.partner gathered unit false)
    else if 0xDC00 ≤ unit ∧ unit < 0xE000 then none
    else some (.text (Char.ofNat unit :: gathered))
  | some h =>
    if 0xDC00 ≤ unit ∧ unit < 0xE000 then
      some (.text (Char.ofNat (0x10000 + (h - 0xD800) * 0x400 + (unit - 0xDC00)) :: gathered))
    else none

/-- The state between tokens after one more character, and the token it completes. -/
def Lexing.start? (c : Char) : Option (Lexing × List Token) :=
  if isBlank c then some (.between, [])
  else match punctuation? c with
    | some t => some (.between, [t])
    | none =>
      if c = '"' then some (.text [], [])
      else if isWordChar c then some (.word [c], [])
      else none

def Lexing.step? (s : Lexing) (c : Char) : Option (Lexing × List Token) :=
  match s with
  | .between => start? c
  | .word w =>
    if isWordChar c then some (.word (c :: w), [])
    else do
      let value ← wordValue? w.reverse
      let (next, more) ← start? c
      return (next, .atom value :: more)
  | .text g =>
    if c = '"' then some (.between, [.atom (.str (String.ofList g.reverse))])
    else if c = '\\' then some (.escape g, [])
    else if c.toNat < 0x20 then none
    else some (.text (c :: g), [])
  | .escape g =>
    if c = 'u' then some (.unit g none 4 0, [])
    else (escaped? c).map fun d => (.text (d :: g), [])
  | .unit g high missing value => do
    let d ← Text.hexDigit? c
    let value := value * 16 + d
    if missing ≤ 1 then return (← afterUnit g high value, [])
    else return (.unit g high (missing - 1) value, [])
  | .partner g high false => if c = '\\' then some (.partner g high true, []) else none
  | .partner g high true => if c = 'u' then some (.unit g (some high) 4 0, []) else none

/-- The token that the end of the text completes. -/
def Lexing.finish? : Lexing → Option (List Token)
  | .between => some []
  | .word w => (wordValue? w.reverse).map fun v => [.atom v]
  | _ => none

/-- The tokens of a text so far, in reverse, and what the pass is in the middle of: nothing
once it has met a character that cannot stand where it does. -/
structure Lexed where
  state : Option Lexing
  found : List Token

namespace Lexed

def start : Lexed := ⟨some .between, []⟩

def take (l : Lexed) (step : Option (Option Lexing × List Token)) : Lexed :=
  match step with
  | some (state, more) => ⟨state, more.reverse ++ l.found⟩
  | none => ⟨none, l.found⟩

def advance (l : Lexed) (c : Char) : Lexed :=
  match l.state with
  | some s => l.take ((s.step? c).map fun (next, more) => (some next, more))
  | none => l

def finish (l : Lexed) : Lexed :=
  match l.state with
  | some s => l.take (s.finish?.map (some .between, ·))
  | none => l

def tokens (l : Lexed) : List Token := l.found.reverse

def isSound (l : Lexed) : Bool := l.state.isSome

end Lexed

def lex (text : List Char) : Lexed := (text.foldl Lexed.advance .start).finish

end Orchestration.Json
