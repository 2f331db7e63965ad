import Orchestration.Json.Token

/-! Reading a JSON text. The tokens drive a stack of the arrays and objects that are still
open. Members keep the order and the repetitions of the text, so that a record can tell
which of its fields came first or came twice. -/
namespace Orchestration.Json

/-- An array or object under construction, its finished parts in reverse. -/
inductive Frame where
  | items (done : List Json)
  /-- `key` is the member under way -/
  | members (done : List (String × Json)) (key : Option String)

inductive Expect where
  /-- a value, or the end of an array that has just been opened -/
  | value (orClose : Bool)
  /-- a key, or the end of an object that has just been opened -/
  | key (orClose : Bool)
  | colon
  /-- a comma or the end of the innermost array or object -/
  | next
  /-- nothing: the value of the whole text is there -/
  | finish (value : Json)

structure Reading where
  expect : Expect
  stack : List Frame

/-- Arrays and objects may be nested this deep. -/
def depthLimit : Nat := 127

/-- A value is complete: it belongs to the innermost frame, or is the whole text. -/
def Reading.supply? (stack : List Frame) (value : Json) : Option Reading :=
  match stack with
  | [] => some ⟨.finish value, []⟩
  | .items done :: rest => some ⟨.next, .items (value :: done) :: rest⟩
  | .members done (some key) :: rest => some ⟨.next, .members ((key, value) :: done) none :: rest⟩
  | .members _ none :: _ => none

def Reading.close? (stack : List Frame) (object : Bool) : Option Reading :=
  match stack, object with
  | .items done :: rest, false => supply? rest (.arr done.reverse)
  | .members done none :: rest, true => supply? rest (.obj done.reverse)
  | _, _ => none

def Reading.step? (r : Reading) (t : Token) : Option Reading :=
  match r.expect, t with
  | .value _, .atom v => supply? r.stack v
  | .value _, .open object =>
    if depthLimit ≤ r.stack.length then none
    else if object then some ⟨.key true, .members [] none :: r.stack⟩
    else some ⟨.value true, .items [] :: r.stack⟩
  | .value true, .close false => close? r.stack false
  | .key _, .atom (.str key) =>
    match r.stack with
    | .members done none :: rest => some ⟨.colon, .members done (some key) :: rest⟩
    | _ => none
  | .key true, .close true => close? r.stack true
  | .colon, .colon => some ⟨.value false, r.stack⟩
  | .next, .comma =>
    match r.stack with
    | .items _ :: _ => some ⟨.value false, r.stack⟩
    | .members .. :: _ => some ⟨.key false, r.stack⟩
    | [] => none
  | .next, .close object => close? r.stack object
  | _, _ => none

/-- A frame with one more part at its end, closed where it stands. -/
def Frame.close : Frame → Option Json → Json
  | .items done, last => .arr (done.reverse ++ last.toList)
  | .members done key, last =>
    .obj (done.reverse ++ (key.bind fun k => last.map fun v => (k, v)).toList)

/-- The outermost array or object of a text that breaks off, with the last part of it if
that is an array. What else is unfinished is left out. -/
def Reading.begun (r : Reading) : Json :=
  match r.expect, r.stack.reverse with
  | .finish value, _ => value
  | _, outer :: .items done :: _ => outer.close (some (.arr done.reverse))
  | _, outer :: _ => outer.close none
  | _, [] => .null

structure Contents where
  root : Json
  sound : Bool

/-- Reads as many tokens as make sense one after the other, and says whether it was all. -/
def Reading.run (r : Reading) : List Token → Reading × Bool
  | [] => (r, true)
  | t :: rest =>
    match r.step? t with
    | some next => next.run rest
    | none => (r, false)

def contents (text : List Char) : Contents :=
  let lexed := lex text
  let (last, sound) := Reading.run ⟨.value false, []⟩ lexed.tokens
  let finished := match last.expect with
    | .finish _ => true
    | _ => false
  ⟨last.begun, lexed.isSound && sound && finished⟩

def readChars? (text : List Char) : Option Json :=
  let c := contents text
  if c.sound then some c.root else none

def read? (text : String) : Option Json := readChars? text.toList

/-- The characters of a text up to the bracket that opens one level too many, if they make sense
one after the other. -/
def tooDeep? (s : Lexing) (r : Reading) : List Char → Option (List Char)
  | [] => none
  | c :: rest =>
    match s.step? c with
    | none => none
    | some (next, tokens) =>
      match r.run tokens with
      | (r, true) => (tooDeep? next r rest).map (c :: ·)
      | (r, false) =>
        match r.expect, punctuation? c with
        | .value _, some (.open _) => some [c]
        | _, _ => none

/-- The column of the first bracket of a text that is nested too deep, in bytes, if the reading
comes that far. -/
def excess? (text : List Char) : Option Nat :=
  (tooDeep? .between ⟨.value false, []⟩ text).map fun read => (String.ofList read).utf8ByteSize

def readCanonical? (text : String) : Option Json := (read? text).map canonical

end Orchestration.Json
