import Orchestration.Number.Binary64

/-! The shortest decimal text of a double: the fewest digits that read back as the same
double, and of those the nearest to it. Layouts fix where a point or an exponent is
written. -/
namespace Orchestration.Binary64

def digitCount (n : Nat) : Nat := (Nat.toDigits 10 n).length

/-- The exponent of the first decimal digit of the positive fraction `n / d`. -/
def decimalExponent (n d : Nat) : Int :=
  if d ≤ n then (digitCount (n / d) : Int) - 1
  else -(digitCount ((d + n - 1) / n - 1) : Int)

/-- The open or closed interval, in quarters of `2 ^ e`, of the reals that round to
`m · 2 ^ e`. Below a power of two the doubles lie twice as dense. -/
def roundingBounds (m : Nat) (e : Int) : Nat × Nat :=
  (if m = twoTo 52 ∧ -1074 < e then 4 * m - 1 else 4 * m - 2, 4 * m + 2)

/-- The point of the decimal grid with `places` digits that reads back as `m · 2 ^ e`
and lies nearest to it, as a multiple of the grid's unit. -/
def gridPoint? (m : Nat) (e : Int) (unit : Int) : Option Nat :=
  let (a, b) := fraction m e
  let (num, den) : Nat × Nat :=
    if unit < 0 then (a * tenTo (-unit).toNat, b) else (a, b * tenTo unit.toNat)
  -- the point `c` of the grid stands for `c / (num / den)` times the double
  let (low, high) := roundingBounds m e
  let inside (c : Nat) : Bool :=
    let x := 4 * m * c * den
    if m % 2 = 0 then decide (low * num ≤ x ∧ x ≤ high * num)
    else decide (low * num < x ∧ x < high * num)
  let q := num / den
  let r := num % den
  match inside q, inside (q + 1) with
  | false, false => none
  | true, false => some q
  | false, true => some (q + 1)
  | true, true =>
    if 2 * r < den ∨ (2 * r = den ∧ q % 2 = 0) then some q else some (q + 1)

/-- The number without its trailing zeros, and how many were dropped. At most `limit`
are. -/
def dropZeros : Nat → Nat → Nat × Nat
  | 0, n => (n, 0)
  | limit + 1, n =>
    if n ≠ 0 ∧ n % 10 = 0 then
      let (k, z) := dropZeros limit (n / 10)
      (k, z + 1)
    else (n, 0)

/-- The shortest digits of a positive double and the exponent of the last of them.
Seventeen digits always suffice. -/
def shortest (m : Nat) (e : Int) : Nat × Int :=
  let (a, b) := fraction m e
  let p := decimalExponent a b
  let found := (List.range 17).findSome? fun (k : Nat) =>
    let unit : Int := p - (k : Nat)
    (gridPoint? m e unit).map (·, unit)
  let (c, unit) := found.getD (0, 0)
  let (digits, dropped) := dropZeros 20 c
  (digits, unit + dropped)

/-- Where a decimal text has its point and when it has an exponent. -/
structure Layout where
  /-- least and greatest exponent of the first digit that is written positionally -/
  positional : Option (Int × Int)
  /-- whether a whole number ends in `.0` -/
  pointZero : Bool

namespace Layout

/-- Records write numbers positionally from `1e-5` to below `1e16`, and a double always
shows a point or an exponent. -/
def record : Layout := ⟨some (-5, 15), true⟩

/-- Messages write every number positionally and a whole number without a point. -/
def message : Layout := ⟨none, false⟩

def isPositional (l : Layout) (first : Int) : Bool :=
  match l.positional with
  | none => true
  | some (low, high) => decide (low ≤ first ∧ first ≤ high)

end Layout

def zeros (n : Nat) : List Char := List.replicate n '0'

def positionalText (pointZero : Bool) (digits : List Char) (first : Int) : List Char :=
  if first < 0 then '0' :: '.' :: (zeros (-first - 1).toNat ++ digits)
  else
    let whole := first.toNat + 1
    if digits.length ≤ whole then
      digits ++ zeros (whole - digits.length) ++ (if pointZero then ['.', '0'] else [])
    else digits.take whole ++ '.' :: digits.drop whole

def exponentText (digits : List Char) (first : Int) : List Char :=
  let tail := digits.drop 1
  digits.take 1 ++ (if tail.isEmpty then [] else '.' :: tail) ++
    'e' :: (if first < 0 then '-' else '+') :: Nat.toDigits 10 first.natAbs

/-- The text of a double. Infinities and no number have the texts that messages use. -/
def text (l : Layout) : Binary64 → List Char
  | .nan => "NaN".toList
  | .infinite s => if s then "-inf".toList else "inf".toList
  | .finite s m e _ =>
    let sign := if s then ['-'] else []
    if m = 0 then sign ++ positionalText l.pointZero ['0'] 0
    else
      let (c, unit) := shortest m e
      let digits := Nat.toDigits 10 c
      let first := unit + digits.length - 1
      sign ++ (if l.isPositional first then positionalText l.pointZero digits first
        else exponentText digits first)

end Orchestration.Binary64
