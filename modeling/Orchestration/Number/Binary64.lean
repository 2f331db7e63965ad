import Orchestration.Number.Power

/-! Doubles as exact dyadic numbers. A finite double is a sign, a significand and a
power of two in canonical form, so that equality of values of this type is equality of
representations; order and rounding are stated on whole numbers only. Rounding goes to
the nearest double, a tie to the even significand, and beyond the largest to infinity. -/
namespace Orchestration

/-- A normal significand fills 53 bits; a smaller one has the least exponent. -/
def Binary64.Canonical (m : Nat) (e : Int) : Prop :=
  (m < twoTo 53 ∧ -1074 ≤ e ∧ e ≤ 971) ∧ (twoTo 52 ≤ m ∨ e = -1074)

instance (m : Nat) (e : Int) : Decidable (Binary64.Canonical m e) := by
  unfold Binary64.Canonical; infer_instance

/-- The finite double `± m · 2 ^ e`, an infinity, or no number. -/
inductive Binary64 where
  | finite (negative : Bool) (m : Nat) (e : Int) (canonical : Binary64.Canonical m e)
  | infinite (negative : Bool)
  | nan
  deriving DecidableEq

namespace Binary64

def zero : Binary64 := .finite false 0 (-1074) (by decide)

def one : Binary64 := .finite false (twoTo 52) (-52) (by decide)

instance : Inhabited Binary64 := ⟨zero⟩

/-- A significand and exponent out of the canonical range stand for infinity. -/
def pack (negative : Bool) (m : Nat) (e : Int) : Binary64 :=
  if h : Canonical m e then .finite negative m e h else .infinite negative

/-- The whole number nearest to `n / d`, a tie going to the even one. -/
def roundHalfEven (n d : Nat) : Nat :=
  let q := n / d
  let r := n % d
  if d < 2 * r ∨ (2 * r = d ∧ q % 2 = 1) then q + 1 else q

/-- The fraction `n / d` divided by `2 ^ e`. -/
def scale (n d : Nat) (e : Int) : Nat × Nat :=
  if e < 0 then (n * twoTo (-e).toNat, d) else (n, d * twoTo e.toNat)

/-- The exponent at which the significand of `n / d` has 53 bits, or the least one. -/
def exponentOf (n d : Nat) : Int :=
  let e : Int := max ((n.log2 : Int) - d.log2 - 53) (-1074)
  let (a, b) := scale n d e
  if twoTo 53 ≤ a / b then e + 1 else e

/-- The double nearest to `± n / d`. -/
def ofQuotient (negative : Bool) (n d : Nat) : Binary64 :=
  if n = 0 then .finite negative 0 (-1074) (by decide)
  else
    let e := exponentOf n d
    let (a, b) := scale n d e
    let m := roundHalfEven a b
    if m = twoTo 53 then pack negative (twoTo 52) (e + 1) else pack negative m e

def ofNat (n : Nat) : Binary64 := ofQuotient false n 1

def ofInt (i : Int) : Binary64 := ofQuotient (decide (i < 0)) i.natAbs 1

/-- The double nearest to `± n · 10 ^ e`. -/
def ofDecimal (negative : Bool) (n : Nat) (e : Int) : Binary64 :=
  if e < 0 then ofQuotient negative n (tenTo (-e).toNat)
  else ofQuotient negative (n * tenTo e.toNat) 1

def neg : Binary64 → Binary64
  | .finite s m e h => .finite (!s) m e h
  | .infinite s => .infinite (!s)
  | .nan => .nan

def isFinite : Binary64 → Bool
  | .finite .. => true
  | _ => false

/-- The magnitude of a finite double as a fraction. -/
def fraction (m : Nat) (e : Int) : Nat × Nat :=
  if e < 0 then (m, twoTo (-e).toNat) else (m * twoTo e.toNat, 1)

/-- The rounded product of two finite doubles; other operands give no number. -/
def mul : Binary64 → Binary64 → Binary64
  | .finite s m e _, .finite t n f _ =>
    let (a, b) := fraction m e
    let (c, d) := fraction n f
    ofQuotient (s != t) (a * c) (b * d)
  | _, _ => .nan

/-- The rounded quotient of two finite doubles; other operands and division by zero
give no number. -/
def div : Binary64 → Binary64 → Binary64
  | .finite s m e _, .finite t n f _ =>
    let (a, b) := fraction m e
    let (c, d) := fraction n f
    if c = 0 then .nan else ofQuotient (s != t) (a * d) (b * c)
  | _, _ => .nan

/-- The place of a number among all doubles: its value times `2 ^ 1074`, and for an
infinity a bound that no finite double reaches. Both zeros have place 0. -/
def place? : Binary64 → Option Int
  | .finite s m e _ =>
    let n : Int := (m * twoTo (e + 1074).toNat : Nat)
    some (if s then -n else n)
  | .infinite s => some (if s then -twoTo 2098 else twoTo 2098)
  | .nan => none

/-- Whether two numbers stand in the relation; no number stands in none. -/
def related (r : Int → Int → Bool) (x y : Binary64) : Bool :=
  match x.place?, y.place? with
  | some a, some b => r a b
  | _, _ => false

def lt : Binary64 → Binary64 → Bool := related (· < ·)

def le : Binary64 → Binary64 → Bool := related (· ≤ ·)

def eq : Binary64 → Binary64 → Bool := related (· == ·)

/-- The smaller of two; the first of equals, and the other one of no number. -/
def min (x y : Binary64) : Binary64 :=
  match x with
  | .nan => y
  | _ => if lt y x then y else x

/-- The larger of two; the first of equals, and the other one of no number. -/
def max (x y : Binary64) : Binary64 :=
  match x with
  | .nan => y
  | _ => if lt x y then y else x

/-- The number itself within the bounds, else the bound it exceeds. -/
def clamp (x low high : Binary64) : Binary64 :=
  if lt x low then low else if lt high x then high else x

def clampUnit (x : Binary64) : Binary64 := x.clamp zero one

/-- The whole number nearest to `k` times a number, a tie going to the even one. What is below
zero, or no number, counts as zero; an infinity has no such number. -/
def timesNat? (x : Binary64) (k : Nat) : Option Nat :=
  match x with
  | .finite false m e _ =>
    let (a, b) := fraction m e
    some (roundHalfEven (a * k) b)
  | .infinite false => none
  | _ => some 0

theorem related_nan_left (r : Int → Int → Bool) (y : Binary64) : related r .nan y = false := rfl

theorem related_nan_right (r : Int → Int → Bool) (x : Binary64) : related r x .nan = false := by
  cases x <;> rfl

theorem lt_irrefl (x : Binary64) : lt x x = false := by
  cases h : x.place? <;> simp [lt, related, h]

theorem le_of_lt {x y : Binary64} (h : lt x y = true) : le x y = true := by
  cases hx : x.place? <;> cases hy : y.place? <;> simp_all [lt, le, related]
  omega

end Binary64
end Orchestration
