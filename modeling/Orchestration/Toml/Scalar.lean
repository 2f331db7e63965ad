import Orchestration.Number.Decimal
import Orchestration.Text.CodePoint
import Orchestration.Time.Calendar

/-! The scalars of TOML texts. Each reader takes what it needs from the beginning of a text
and gives what is left. -/
namespace Orchestration.Toml

def isBlank (c : Char) : Bool := c = ' ' || c = '\t'

def isAllowed (c : Char) : Bool := c = '\t' || (' ' ≤ c && c ≠ '\x7f')

def skipBlanks (cs : List Char) : List Char := cs.dropWhile isBlank

def lineBreak? : List Char → Option (List Char)
  | '\n' :: rest => some rest
  | '\r' :: '\n' :: rest => some rest
  | _ => none

/-- The text after a comment, if there is one. A character that is not allowed ends it. -/
def skipComment : List Char → List Char
  | '#' :: rest => rest.dropWhile isAllowed
  | cs => cs

/-! Strings. The characters read so far stand in reverse. -/

def escapeOf? : Char → Option Char
  | 'b' => some '\x08'
  | 't' => some '\t'
  | 'n' => some '\n'
  | 'f' => some '\x0c'
  | 'r' => some '\r'
  | '"' => some '"'
  | '\\' => some '\\'
  | _ => none

def basicString? (text : List Char) : List Char → Option (List Char × List Char)
  | [] => none
  | '"' :: rest => some (text.reverse, rest)
  | '\\' :: 'u' :: a :: b :: c :: d :: rest => do
    basicString? ((← Text.charOfHex? [a, b, c, d]) :: text) rest
  | '\\' :: 'U' :: a :: b :: c :: d :: e :: f :: g :: h :: rest => do
    basicString? ((← Text.charOfHex? [a, b, c, d, e, f, g, h]) :: text) rest
  | '\\' :: x :: rest => do basicString? ((← escapeOf? x) :: text) rest
  | c :: rest => if isAllowed c then basicString? (c :: text) rest else none

def literalString? (text : List Char) : List Char → Option (List Char × List Char)
  | [] => none
  | '\'' :: rest => some (text.reverse, rest)
  | c :: rest => if isAllowed c then literalString? (c :: text) rest else none

/-- The end of a string of several lines, if it is here: three quotes, and before them up to
two that belong to the string. -/
def closing? (quote : Char) (text cs : List Char) : Option (List Char × List Char) :=
  let run := (cs.takeWhile (· = quote)).length
  if run < 3 then none
  else
    let inner := min (run - 3) 2
    some (text.reverse ++ List.replicate inner quote, cs.drop (inner + 3))

/-- A string of several lines. `skipping` says that blanks and breaks are passed over, as they
are after a break that has been escaped. -/
def basicLines? (skipping : Bool) (text : List Char) : List Char → Option (List Char × List Char)
  | [] => none
  | '\r' :: '\n' :: rest =>
    if skipping then basicLines? true text rest else basicLines? false ('\n' :: text) rest
  | '\n' :: rest =>
    if skipping then basicLines? true text rest else basicLines? false ('\n' :: text) rest
  | '\\' :: 'u' :: a :: b :: c :: d :: rest => do
    basicLines? false ((← Text.charOfHex? [a, b, c, d]) :: text) rest
  | '\\' :: 'U' :: a :: b :: c :: d :: e :: f :: g :: h :: rest => do
    basicLines? false ((← Text.charOfHex? [a, b, c, d, e, f, g, h]) :: text) rest
  | '\\' :: x :: rest =>
    match escapeOf? x with
    | some y => basicLines? false (y :: text) rest
    | none =>
      if (lineBreak? (skipBlanks (x :: rest))).isSome then basicLines? true text (x :: rest)
      else none
  | c :: rest =>
    if skipping && isBlank c then basicLines? true text rest
    else match closing? '"' text (c :: rest) with
      | some done => some done
      | none => if isAllowed c then basicLines? false (c :: text) rest else none

def literalLines? (text : List Char) : List Char → Option (List Char × List Char)
  | [] => none
  | '\r' :: '\n' :: rest => literalLines? ('\n' :: text) rest
  | '\n' :: rest => literalLines? ('\n' :: text) rest
  | c :: rest =>
    match closing? '\'' text (c :: rest) with
    | some done => some done
    | none => if isAllowed c then literalLines? (c :: text) rest else none

/-- A break right after the opening quotes does not count. -/
def skipFirstBreak (cs : List Char) : List Char := (lineBreak? cs).getD cs

/-- A string on one line, as keys may be. -/
def shortString? : List Char → Option (List Char × List Char)
  | '"' :: rest => basicString? [] rest
  | '\'' :: rest => literalString? [] rest
  | _ => none

def string? : List Char → Option (List Char × List Char)
  | '"' :: '"' :: '"' :: rest => basicLines? false [] (skipFirstBreak rest)
  | '\'' :: '\'' :: '\'' :: rest => literalLines? [] (skipFirstBreak rest)
  | cs => shortString? cs

/-! Numbers. -/

/-- Digits of a kind without the underscores between them. -/
def digits? (isDigit : Char → Bool) (cs : List Char) : Option (List Char) :=
  let pieces := go [] cs
  if pieces.all fun piece => !piece.isEmpty && piece.all isDigit then some pieces.flatten else none
where
  go (piece : List Char) : List Char → List (List Char)
    | [] => [piece.reverse]
    | '_' :: rest => piece.reverse :: go [] rest
    | c :: rest => go (c :: piece) rest

/-- Decimal digits that do not begin with a zero, unless they are one. -/
def wholeDigits? (cs : List Char) : Option (List Char) :=
  if 1 < cs.length && cs.head? = some '0' then none else digits? Number.isDigit cs

def sign : List Char → Bool × List Char
  | '-' :: rest => (true, rest)
  | '+' :: rest => (false, rest)
  | cs => (false, cs)

def based? (base : Nat) (cs : List Char) : Option Nat := do
  let digits ← digits? (fun c => (Text.hexDigit? c).any (· < base)) cs
  let values ← digits.mapM Text.hexDigit?
  return values.foldl (fun n d => n * base + d) 0

def integer? (cs : List Char) : Option Int := do
  let i : Int ← match cs with
    | '0' :: 'x' :: rest => (based? 16 rest).map Int.ofNat
    | '0' :: 'o' :: rest => (based? 8 rest).map Int.ofNat
    | '0' :: 'b' :: rest => (based? 2 rest).map Int.ofNat
    | _ =>
      let (negative, body) := sign cs
      (wholeDigits? body).map fun ds => if negative then -(Decimal.natOf ds) else Decimal.natOf ds
  if fitsSigned 64 i then some i else none

/-- The digits of a float as a plain decimal: a fraction or an exponent follows the whole
part. -/
def plainFloat? (cs : List Char) : Option (List Char) := do
  let isPart (c : Char) : Bool := Number.isDigit c || c = '_'
  let (whole, rest) := cs.span isPart
  let whole ← wholeDigits? whole
  let (fraction, rest) ← match rest with
    | '.' :: rest =>
      let (ds, rest) := rest.span isPart
      (digits? Number.isDigit ds).map fun ds => ('.' :: ds, rest)
    | _ => some ([], rest)
  match rest with
  | [] => if fraction.isEmpty then none else some (whole ++ fraction)
  | c :: rest =>
    if c = 'e' ∨ c = 'E' then do
      let (down, ds) := sign rest
      let ds ← digits? Number.isDigit ds
      return whole ++ fraction ++ 'e' :: ((if down then ['-'] else []) ++ ds)
    else none

/-- A float. One too large is refused, but one too small becomes the negative infinity. -/
def float? (cs : List Char) : Option Binary64 :=
  let (negative, body) := sign cs
  if body = "inf".toList then some (.infinite negative)
  else if body = "nan".toList then some .nan
  else do
    let d ← Decimal.unsigned? negative (← plainFloat? body)
    let x := d.toBinary64
    if x = .infinite false then none else some x

/-! Dates and times. Only their form is checked. -/

def twoDigits? (low high : Nat) : List Char → Option (Nat × List Char)
  | a :: b :: rest =>
    let n := Number.digitValue a * 10 + Number.digitValue b
    if Number.isDigit a && Number.isDigit b && low ≤ n && n ≤ high then some (n, rest) else none
  | _ => none

def expect? (c : Char) : List Char → Option (List Char)
  | x :: rest => if x = c then some rest else none
  | [] => none

def date? (cs : List Char) : Option (List Char) := do
  let year := cs.take 4
  if year.length ≠ 4 || !year.all Number.isDigit then failure
  let (month, cs) ← twoDigits? 1 12 (← expect? '-' (cs.drop 4))
  let days := Calendar.daysInMonth (Decimal.natOf year) month
  return (← twoDigits? 1 days (← expect? '-' cs)).2

def time? (cs : List Char) : Option (List Char) := do
  let (_, cs) ← twoDigits? 0 23 cs
  let (_, cs) ← twoDigits? 0 59 (← expect? ':' cs)
  let (_, cs) ← twoDigits? 0 60 (← expect? ':' cs)
  match cs with
  | '.' :: rest =>
    let (ds, rest) := rest.span Number.isDigit
    if ds.isEmpty then none else some rest
  | _ => some cs

def offset? : List Char → Option (List Char)
  | c :: rest =>
    if c = 'Z' ∨ c = 'z' then some rest
    else if c = '+' ∨ c = '-' then do
      let (_, cs) ← twoDigits? 0 23 rest
      return (← twoDigits? 0 59 (← expect? ':' cs)).2
    else none
  | [] => none

def isMoment (cs : List Char) : Bool :=
  match date? cs with
  | some [] => true
  | some (c :: rest) =>
    (c = 'T' || c = 't' || c = ' ') &&
      match time? rest with
      | some [] => true
      | some rest => offset? rest == some []
      | none => false
  | none => time? cs == some []

end Orchestration.Toml
