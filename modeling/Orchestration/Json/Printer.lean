import Orchestration.Json
import Orchestration.Number.Shortest

/-! Writing JSON values as text. Strings escape the quote, the backslash and control
characters, and nothing else. A double that is no number is written `null`. -/
namespace Orchestration

def Number.text : Number → List Char
  | .int i => (toString i).toList
  | .float x => if x.isFinite then x.text .record else "null".toList

namespace Json

/-- A double as a value: what is no finite number becomes `null`. -/
def ofFloat (x : Binary64) : Json := if x.isFinite then float x else .null

def lowerHex (n : Nat) : Char := Nat.digitChar n

def escapeChar (c : Char) : List Char :=
  match c with
  | '"' => ['\\', '"']
  | '\\' => ['\\', '\\']
  | '\n' => ['\\', 'n']
  | '\r' => ['\\', 'r']
  | '\t' => ['\\', 't']
  | '\x08' => ['\\', 'b']
  | '\x0c' => ['\\', 'f']
  | c =>
    if c.toNat < 0x20 then
      ['\\', 'u', '0', '0', lowerHex (c.toNat / 16), lowerHex (c.toNat % 16)]
    else [c]

def quote (s : String) : List Char := '"' :: (s.toList.flatMap escapeChar ++ ['"'])

mutual

def chars : Json → List Char
  | .null => "null".toList
  | .bool true => "true".toList
  | .bool false => "false".toList
  | .num n => n.text
  | .str s => quote s
  | .arr items => '[' :: (itemChars items ++ [']'])
  | .obj members => '{' :: (memberChars members ++ ['}'])

def itemChars : List Json → List Char
  | [] => []
  | [j] => chars j
  | j :: rest => chars j ++ ',' :: itemChars rest

def memberChars : List (String × Json) → List Char
  | [] => []
  | [(k, j)] => quote k ++ ':' :: chars j
  | (k, j) :: rest => quote k ++ ':' :: (chars j ++ ',' :: memberChars rest)

end

def compact (j : Json) : String := String.ofList (chars j)

def indent (depth : Nat) : List Char := List.replicate (2 * depth) ' '

mutual

/-- The text of a value with a line for each item and member, two blanks deeper each
level. -/
def prettyChars (depth : Nat) : Json → List Char
  | .arr [] => ['[', ']']
  | .arr items => '[' :: '\n' :: (prettyItems (depth + 1) items ++ '\n' :: (indent depth ++ [']']))
  | .obj [] => ['{', '}']
  | .obj members =>
    '{' :: '\n' :: (prettyMembers (depth + 1) members ++ '\n' :: (indent depth ++ ['}']))
  | .null => chars .null
  | .bool b => chars (.bool b)
  | .num n => chars (.num n)
  | .str s => chars (.str s)

def prettyItems (depth : Nat) : List Json → List Char
  | [] => []
  | [j] => indent depth ++ prettyChars depth j
  | j :: rest => indent depth ++ prettyChars depth j ++ ',' :: '\n' :: prettyItems depth rest

def prettyMembers (depth : Nat) : List (String × Json) → List Char
  | [] => []
  | [(k, j)] => indent depth ++ quote k ++ ':' :: ' ' :: prettyChars depth j
  | (k, j) :: rest =>
    indent depth ++ quote k ++ ':' :: ' ' :: (prettyChars depth j ++ ',' :: '\n' ::
      prettyMembers depth rest)

end

def pretty (j : Json) : String := String.ofList (prettyChars 0 j)

end Json
end Orchestration
