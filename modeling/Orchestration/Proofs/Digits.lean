import Mathlib.Data.List.Lex
import Mathlib.Tactic.Linarith
import Mathlib.Tactic.Ring
import Orchestration.Number.Decimal
import Orchestration.Time.Timestamp

/-! Texts of digits. A number is had again from its digits, zeros before them change nothing, and
among texts of one length the order of the texts is that of the numbers. -/
namespace Orchestration

namespace Number

theorem isDigit_iff (c : Char) : isDigit c = true ↔ 48 ≤ c.toNat ∧ c.toNat ≤ 57 := by
  simp only [isDigit, Bool.and_eq_true, decide_eq_true_eq, Char.le_def, UInt32.le_iff_toNat_le]
  rfl

theorem digitValue_lt {c : Char} (digit : isDigit c = true) : digitValue c < 10 := by
  rw [isDigit_iff] at digit
  have zero : '0'.toNat = 48 := rfl
  unfold digitValue
  omega

theorem toDigits_digits {n : Nat} {c : Char} (member : c ∈ Nat.toDigits 10 n) :
    isDigit c = true := by
  have digit := Nat.isDigit_of_mem_toDigits (by decide) (by decide) member
  simpa [isDigit, Char.isDigit, Char.le_def, UInt32.le_iff_toNat_le] using digit

end Number

namespace Decimal

theorem natOf_eq (cs : List Char) : natOf cs = Nat.ofDigitChars 10 cs 0 := by
  unfold natOf Nat.ofDigitChars Number.digitValue
  simp only [Nat.mul_comm 10]

theorem natOf_toDigits (n : Nat) : natOf (Nat.toDigits 10 n) = n := by
  rw [natOf_eq]
  exact Nat.ofDigitChars_toDigits (by decide) (by decide)

theorem natOf_cons (c : Char) (cs : List Char) :
    natOf (c :: cs) = Number.digitValue c * 10 ^ cs.length + natOf cs := by
  rw [natOf_eq, natOf_eq, Nat.ofDigitChars_cons, Nat.ofDigitChars_eq_ofDigitChars_zero]
  simp [Number.digitValue, Nat.mul_comm]

theorem natOf_lt {cs : List Char} (digits : ∀ c ∈ cs, Number.isDigit c = true) :
    natOf cs < 10 ^ cs.length := by
  induction cs with
  | nil => simp [natOf]
  | cons c rest ih =>
    have first := Number.digitValue_lt (digits c List.mem_cons_self)
    have more := ih fun d member => digits d (List.mem_cons_of_mem _ member)
    rw [natOf_cons, List.length_cons, Nat.pow_succ]
    calc Number.digitValue c * 10 ^ rest.length + natOf rest
        < Number.digitValue c * 10 ^ rest.length + 10 ^ rest.length := by omega
      _ = (Number.digitValue c + 1) * 10 ^ rest.length := by ring
      _ ≤ 10 * 10 ^ rest.length := Nat.mul_le_mul_right _ first
      _ = 10 ^ rest.length * 10 := Nat.mul_comm _ _

theorem digitValue_lt_iff {c d : Char} (first : Number.isDigit c = true)
    (second : Number.isDigit d = true) :
    (c < d ↔ Number.digitValue c < Number.digitValue d) ∧
      (c = d ↔ Number.digitValue c = Number.digitValue d) := by
  rw [Number.isDigit_iff] at first second
  have zero : '0'.toNat = 48 := rfl
  unfold Number.digitValue
  rw [Char.lt_def, UInt32.lt_iff_toNat_lt, ← Char.toNat_inj]
  change (c.toNat < d.toNat ↔ _) ∧ _
  omega

/-- Among texts of one length the smaller number comes first. -/
theorem lt_iff_natOf {a b : List Char} (same : a.length = b.length)
    (first : ∀ c ∈ a, Number.isDigit c = true) (second : ∀ c ∈ b, Number.isDigit c = true) :
    a < b ↔ natOf a < natOf b := by
  induction a generalizing b with
  | nil =>
    obtain rfl : b = [] := List.length_eq_zero_iff.mp same.symm
    simp
  | cons c rest ih =>
    cases b with
    | nil => simp at same
    | cons d more =>
      have equal : rest.length = more.length := by simpa using same
      simp only [List.mem_cons, forall_eq_or_imp] at first second
      have low := natOf_lt first.2
      have high := natOf_lt second.2
      obtain ⟨less, eq⟩ := digitValue_lt_iff first.1 second.1
      rw [List.cons_lt_cons_iff, ih equal first.2 second.2, less, eq, natOf_cons, natOf_cons, equal]
      rw [equal] at low
      generalize 10 ^ more.length = unit at *
      constructor
      · rintro (lead | ⟨tied, tail⟩)
        · nlinarith
        · rw [tied]
          omega
      · intro total
        rcases Nat.lt_trichotomy (Number.digitValue c) (Number.digitValue d) with
          lead | tied | trail
        · exact .inl lead
        · rw [tied] at total
          exact .inr ⟨tied, by omega⟩
        · nlinarith

end Decimal

namespace Timestamp

variable {w n : Nat}

theorem padded_digits (w n : Nat) : ∀ c ∈ padded w n, Number.isDigit c = true := by
  intro c member
  rcases List.mem_append.mp member with zero | digit
  · rw [(List.mem_replicate.mp zero).2]
    decide
  · exact Number.toDigits_digits digit

theorem natOf_padded (w n : Nat) : Decimal.natOf (padded w n) = n := by
  unfold padded
  rw [Decimal.natOf_eq, Nat.ofDigitChars_append, Nat.ofDigitChars_replicate_zero, Nat.mul_zero,
    ← Decimal.natOf_eq, Decimal.natOf_toDigits]

theorem length_padded (some : 0 < w) (fits : n < 10 ^ w) : (padded w n).length = w := by
  have digits := (Nat.length_toDigits_le_iff (b := 10) (n := n) (by decide) some).mpr fits
  unfold padded
  rw [List.length_append, List.length_replicate]
  omega

theorem padded_lt_iff {m : Nat} (some : 0 < w) (fits : n < 10 ^ w) (fits' : m < 10 ^ w) :
    padded w n < padded w m ↔ n < m := by
  rw [Decimal.lt_iff_natOf _ (padded_digits w n) (padded_digits w m), natOf_padded, natOf_padded]
  rw [length_padded some fits, length_padded some fits']

theorem padded_inj {m : Nat} : padded w n = padded w m ↔ n = m := by
  constructor
  · intro same
    rw [← natOf_padded w n, same, natOf_padded]
  · rintro rfl
    rfl

end Timestamp

theorem append_lt_append_iff {a a' : List Char} (same : a.length = a'.length) (b b' : List Char) :
    a ++ b < a' ++ b' ↔ a < a' ∨ a = a' ∧ b < b' := by
  induction a generalizing a' with
  | nil =>
    obtain rfl : a' = [] := List.length_eq_zero_iff.mp same.symm
    simp
  | cons c rest ih =>
    cases a' with
    | nil => simp at same
    | cons d more =>
      rw [List.cons_append, List.cons_append, List.cons_lt_cons_iff, List.cons_lt_cons_iff,
        ih (by simpa using same), List.cons.injEq]
      tauto


theorem ofList_lt_iff (a b : List Char) : String.ofList a < String.ofList b ↔ a < b := by
  rw [String.lt_iff, String.toList_ofList, String.toList_ofList]

end Orchestration
