import Orchestration.Number.Reading

/-! Decimal numbers that are rounded once, so that a text gives the double nearest to it. -/
namespace Orchestration

/-- The number `± significand · 10 ^ exponent`. -/
structure Decimal where
  negative : Bool
  significand : Nat
  exponent : Int
  deriving DecidableEq, Inhabited

namespace Decimal

/-- At or above this power of ten every double is infinite. -/
def highest : Int := 310

/-- Below this power of ten nothing is left of a number. -/
def lowest : Int := -330

/-- The nearest double. Numbers far out of range are decided by their size alone. -/
def toBinary64 (d : Decimal) : Binary64 :=
  let size : Int := (Nat.toDigits 10 d.significand).length + d.exponent
  if d.significand = 0 ∨ size < lowest then .ofQuotient d.negative 0 1
  else if highest < size then .infinite d.negative
  else .ofDecimal d.negative d.significand d.exponent

def natOf (digits : List Char) : Nat :=
  digits.foldl (fun n c => n * 10 + Number.digitValue c) 0

/-- What follows the digits: nothing, or an exponent. -/
def exponent? : List Char → Option Int
  | [] => some 0
  | c :: rest =>
    if c = 'e' ∨ c = 'E' then
      let (down, digits) := match rest with
        | '+' :: digits => (false, digits)
        | '-' :: digits => (true, digits)
        | digits => (false, digits)
      if digits.isEmpty || !digits.all Number.isDigit then none
      else some (if down then -natOf digits else natOf digits)
    else none

/-- A number without sign: digits with at most one point among them or at an end. -/
def unsigned? (negative : Bool) (cs : List Char) : Option Decimal :=
  let (whole, rest) := cs.span Number.isDigit
  let (fraction, rest) := match rest with
    | '.' :: rest => rest.span Number.isDigit
    | rest => ([], rest)
  if whole.isEmpty && fraction.isEmpty then none
  else (exponent? rest).map fun e => ⟨negative, natOf (whole ++ fraction), e - fraction.length⟩

def read? : List Char → Option Decimal
  | '+' :: cs => unsigned? false cs
  | '-' :: cs => unsigned? true cs
  | cs => unsigned? false cs

def finite? (cs : List Char) : Option Binary64 :=
  (read? cs).bind fun d => let x := d.toBinary64; if x.isFinite then some x else none

end Decimal
end Orchestration
