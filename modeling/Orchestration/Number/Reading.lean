import Orchestration.Json

/-! Numbers as JSON texts write them. Digits are gathered into a significand below
`2 ^ 64`; further digits of the whole part only raise the exponent, further digits of the
fraction are dropped. A number with neither point nor exponent that fits 64 bits is an
integer. Any other is a double: the significand is rounded first, then scaled by powers of
ten of at most `10 ^ 308`, each step rounded. -/
namespace Orchestration.Number

def isDigit (c : Char) : Bool := '0' ≤ c && c ≤ '9'

def digitValue (c : Char) : Nat := c.toNat - '0'.toNat

def significandLimit : Nat := twoTo 64

/-- The significand of the digits that fit, and the digits that do not. -/
def gather (significand : Nat) : List Char → Nat × List Char
  | [] => (significand, [])
  | c :: rest =>
    let next := significand * 10 + digitValue c
    if next < significandLimit then gather next rest else (significand, c :: rest)

def powerOfTen (k : Nat) : Binary64 := .ofDecimal false 1 k

/-- The double `x · 10 ^ exponent`, unless it is infinite. After three divisions by
`10 ^ 308` nothing is left of a significand below `2 ^ 64`. -/
def scaled? : Nat → Binary64 → Int → Option Binary64
  | 0, _, _ => some .zero
  | steps + 1, x, exponent =>
    if exponent.natAbs ≤ 308 then
      let y := if 0 ≤ exponent then x.mul (powerOfTen exponent.toNat)
        else x.div (powerOfTen exponent.natAbs)
      if y.isFinite then some y else none
    else if x.eq .zero then some .zero
    else if 0 ≤ exponent then none
    else scaled? steps (x.div (powerOfTen 308)) (exponent + 308)

def float? (negative : Bool) (significand : Nat) (exponent : Int) : Option Number :=
  (scaled? 4 (.ofNat significand) exponent).map fun x => .float (if negative then x.neg else x)

/-- Exponents are kept within 32 bits. -/
def exponentLimit : Nat := twoTo 31 - 1

/-- A number whose exponent is written in these digits, after a minus if it is `down`. -/
def withPower? (negative : Bool) (significand : Nat) (start : Int) (down : Bool)
    (digits : List Char) : Option Number :=
  if digits.isEmpty || !digits.all isDigit then none
  else
    let size := digits.foldl (fun n c => n * 10 + digitValue c) 0
    if exponentLimit < size then
      if significand ≠ 0 ∧ ¬ down then none
      else some (.float (if negative then Binary64.zero.neg else .zero))
    else float? negative significand (if down then start - size else start + size)

/-- A number with an exponent part, read after its `e`. -/
def withExponent? (negative : Bool) (significand : Nat) (start : Int) : List Char → Option Number
  | '+' :: digits => withPower? negative significand start false digits
  | '-' :: digits => withPower? negative significand start true digits
  | digits => withPower? negative significand start false digits

/-- What follows the digits: nothing, or an exponent part. -/
def finish? (negative : Bool) (significand : Nat) (exponent : Int) : List Char → Option Number
  | [] => float? negative significand exponent
  | c :: rest => if c = 'e' || c = 'E' then withExponent? negative significand exponent rest else none

/-- A number with a fraction, read after its point. -/
def withFraction? (negative : Bool) (significand : Nat) (exponent : Int) (cs : List Char) :
    Option Number :=
  let (digits, rest) := cs.span isDigit
  if digits.isEmpty then none
  else
    let (value, dropped) := gather significand digits
    finish? negative value (exponent - (digits.length - dropped.length : Nat)) rest

/-- The integer of a whole significand. Zero with a sign, and an integer below
`-2 ^ 63`, are doubles. -/
def whole (negative : Bool) (significand : Nat) : Number :=
  if !negative then .int significand
  else if significand = 0 ∨ twoTo 63 < significand then .float (Binary64.ofNat significand).neg
  else .int (-significand)

def unsigned? (negative : Bool) (cs : List Char) : Option Number :=
  match cs.span isDigit with
  | ([], _) => none
  | (first :: more, rest) =>
    if first = '0' ∧ more ≠ [] then none
    else
      let (significand, dropped) := gather 0 (first :: more)
      match rest with
      | '.' :: tail => withFraction? negative significand dropped.length tail
      | [] => if dropped.isEmpty then some (whole negative significand)
        else float? negative significand dropped.length
      | _ => finish? negative significand dropped.length rest

def read? : List Char → Option Number
  | '-' :: rest => unsigned? true rest
  | cs => unsigned? false cs

end Orchestration.Number
