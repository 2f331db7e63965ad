import Mathlib.Tactic.Ring
import Orchestration.FanIn

/-! The rate of successes as a double. Counts below 2⁵³ are doubles themselves, and the
nearest double to a quotient of two of them is one only where the counts are the same: a
single task that did not succeed is seen in the rate. -/
namespace Orchestration

theorem twoTo_add (a b : Nat) : twoTo (a + b) = twoTo a * twoTo b := Nat.pow_add ..

theorem twoTo_le {a b : Nat} (le : a ≤ b) : twoTo a ≤ twoTo b := Nat.pow_le_pow_right (by decide) le

theorem twoTo_lt {a b : Nat} (lt : a < b) : twoTo a < twoTo b := Nat.pow_lt_pow_right (by decide) lt

namespace Binary64

theorem lt_eq_false_of_le {x y : Binary64} (h : le x y = true) : lt y x = false := by
  cases hx : x.place? <;> cases hy : y.place? <;> simp_all [lt, le, related]

theorem log2_le {n : Nat} (some : 0 < n) : twoTo n.log2 ≤ n :=
  Nat.log2_self_le (Nat.ne_of_gt some)

theorem lt_log2 (n : Nat) : n < twoTo (n.log2 + 1) := Nat.lt_log2_self

theorem roundHalfEven_le {n d k : Nat} (some : 0 < d) (le : n ≤ k * d) :
    roundHalfEven n d ≤ k := by
  have floor : n / d ≤ k := Nat.div_le_of_le_mul (by rwa [Nat.mul_comm] at le)
  unfold roundHalfEven
  dsimp only
  by_cases full : n / d = k
  · have rest : n % d = 0 := by
      have split := Nat.div_add_mod n d
      rw [full, Nat.mul_comm] at split
      omega
    rw [rest, if_neg (by omega)]
    exact floor
  · split <;> omega

theorem le_roundHalfEven {n d k : Nat} (some : 0 < d) (le : k * d ≤ n) :
    k ≤ roundHalfEven n d := by
  have floor : k ≤ n / d := (Nat.le_div_iff_mul_le some).mpr le
  unfold roundHalfEven
  dsimp only
  split <;> omega

theorem roundHalfEven_one (n : Nat) : roundHalfEven n 1 = n :=
  Nat.le_antisymm (roundHalfEven_le Nat.one_pos (by omega)) (le_roundHalfEven Nat.one_pos (by omega))

theorem scale_neg (n d k : Nat) (some : 0 < k) : scale n d (-(k : Int)) = (n * twoTo k, d) := by
  have negative : -(k : Int) < 0 := by omega
  rw [scale, if_pos negative, Int.neg_neg, Int.toNat_natCast]

theorem scale_nonneg (n d k : Nat) : scale n d (k : Int) = (n, d * twoTo k) := by
  have whole : ¬(k : Int) < 0 := by omega
  rw [scale, if_neg whole, Int.toNat_natCast]

theorem exponentOf_guess {n d k : Nat} (some : 0 < d) (below : 0 < k)
    (guess : Max.max ((n.log2 : Int) - d.log2 - 53) (-1074) = -(k : Int)) :
    exponentOf n d = if twoTo 53 * d ≤ n * twoTo k then -(k : Int) + 1 else -(k : Int) := by
  unfold exponentOf
  rw [guess]
  dsimp only
  rw [scale_neg _ _ _ below]
  simp only [Nat.le_div_iff_mul_le some]

/-- The exponent of a fraction below one: the significand has 53 bits, or the exponent is the
least one. -/
theorem exponentOf_fraction {n d : Nat} (some : 0 < n) (below : n < d) :
    ∃ k : Nat, 53 ≤ k ∧ k ≤ 1074 ∧ exponentOf n d = -(k : Int) ∧ n * twoTo k < twoTo 53 * d ∧
      (twoTo 52 * d ≤ n * twoTo k ∨ k = 1074) := by
  have nLow := log2_le some
  have nHigh := lt_log2 n
  have dLow := log2_le (Nat.lt_trans some below)
  have dHigh := lt_log2 d
  have logs : n.log2 ≤ d.log2 := by
    refine Nat.le_of_not_lt fun more => ?_
    have far : twoTo (d.log2 + 1) ≤ twoTo n.log2 := twoTo_le more
    omega
  by_cases deep : d.log2 - n.log2 + 53 ≤ 1074
  · -- the first guess is right, or one too low
    obtain ⟨gap, eq⟩ := Nat.exists_eq_add_of_le logs
    have guess : Max.max ((n.log2 : Int) - d.log2 - 53) (-1074) = -((gap + 53 : Nat) : Int) := by omega
    have low : twoTo 52 * d ≤ n * twoTo (gap + 53) := by
      calc twoTo 52 * d ≤ twoTo 52 * twoTo (d.log2 + 1) := Nat.mul_le_mul_left _ (Nat.le_of_lt dHigh)
        _ = twoTo n.log2 * twoTo (gap + 53) := by
          rw [← twoTo_add, ← twoTo_add]
          congr 1
          omega
        _ ≤ n * twoTo (gap + 53) := Nat.mul_le_mul_right _ nLow
    have high : n * twoTo (gap + 53) < twoTo 54 * d := by
      calc n * twoTo (gap + 53) < twoTo (n.log2 + 1) * twoTo (gap + 53) :=
            Nat.mul_lt_mul_of_pos_right nHigh (twoTo_pos _)
        _ = twoTo 54 * twoTo d.log2 := by
          rw [← twoTo_add, ← twoTo_add]
          congr 1
          omega
        _ ≤ twoTo 54 * d := Nat.mul_le_mul_left _ dLow
    by_cases full : twoTo 53 * d ≤ n * twoTo (gap + 53)
    · have wide : 0 < gap := by
        refine Nat.pos_of_ne_zero fun flat => ?_
        rw [flat, Nat.zero_add, Nat.mul_comm] at full
        have back := Nat.le_of_mul_le_mul_right full (twoTo_pos 53)
        omega
      obtain ⟨gap, rfl⟩ := Nat.exists_eq_succ_of_ne_zero (Nat.ne_of_gt wide)
      have half : twoTo (gap.succ + 53) = 2 * twoTo (gap + 53) := by rw [← twoTo_succ]
      rw [half] at full high low
      have fifty : twoTo 53 = 2 * twoTo 52 := twoTo_succ 52
      have more : twoTo 54 = 2 * twoTo 53 := twoTo_succ 53
      refine ⟨gap + 53, by omega, by omega, ?_, ?_, .inl ?_⟩
      · rw [exponentOf_guess (by omega) (by omega) guess, if_pos (by rw [half]; exact full)]
        omega
      · rw [more, Nat.mul_assoc, Nat.mul_left_comm] at high
        omega
      · rw [fifty, Nat.mul_assoc, Nat.mul_left_comm n] at full
        omega
    · refine ⟨gap + 53, by omega, by omega, ?_, by omega, .inl low⟩
      rw [exponentOf_guess (by omega) (by omega) guess, if_neg full]
  · have guess : Max.max ((n.log2 : Int) - d.log2 - 53) (-1074) = -((1074 : Nat) : Int) := by omega
    have high : n * twoTo 1074 < twoTo 53 * d := by
      calc n * twoTo 1074 < twoTo (n.log2 + 1) * twoTo 1074 :=
            Nat.mul_lt_mul_of_pos_right nHigh (twoTo_pos _)
        _ ≤ twoTo 53 * twoTo d.log2 := by
          rw [← twoTo_add, ← twoTo_add]
          exact twoTo_le (by omega)
        _ ≤ twoTo 53 * d := Nat.mul_le_mul_left _ dLow
    refine ⟨1074, by omega, by omega, ?_, high, .inr rfl⟩
    rw [exponentOf_guess (by omega) (by omega) guess, if_neg (Nat.not_le.mpr high)]

theorem roundHalfEven_self {d : Nat} (some : 0 < d) (k : Nat) : roundHalfEven (d * k) d = k :=
  Nat.le_antisymm (roundHalfEven_le some (Nat.le_of_eq (Nat.mul_comm ..)))
    (le_roundHalfEven some (Nat.le_of_eq (Nat.mul_comm ..)))

theorem ofQuotient_self {k : Nat} (some : 0 < k) : ofQuotient false k k = one := by
  have guess : Max.max ((k.log2 : Int) - k.log2 - 53) (-1074) = -((53 : Nat) : Int) := by omega
  have exponent : exponentOf k k = -((52 : Nat) : Int) := by
    rw [exponentOf_guess some (by decide) guess, if_pos (Nat.le_of_eq (Nat.mul_comm ..))]
    omega
  unfold ofQuotient
  rw [if_neg (Nat.ne_of_gt some)]
  dsimp only
  rw [exponent, scale_neg k k 52 (by decide)]
  dsimp only
  rw [roundHalfEven_self some]
  rfl

theorem place?_pack {m k : Nat} (bits : m < twoTo 53) (deep : k ≤ 1074)
    (normal : twoTo 52 ≤ m ∨ k = 1074) :
    (pack false m (-(k : Int))).place? = some ((m * twoTo (1074 - k) : Nat) : Int) := by
  have canonical : Canonical m (-(k : Int)) := ⟨⟨bits, by omega, by omega⟩, by omega⟩
  have shift : (-(k : Int) + 1074).toNat = 1074 - k := by omega
  rw [pack, dif_pos canonical]
  simp only [place?, shift, Bool.false_eq_true, if_false]

theorem place?_one : one.place? = some ((twoTo 1074 : Nat) : Int) := by
  have shift : (-52 + 1074 : Int).toNat = 1022 := by decide
  simp only [place?, one, shift, ← twoTo_add, Bool.false_eq_true, if_false]

/-- The place of a fraction up to one: the exponent leaves a significand of 53 bits, or is the
least one. -/
theorem place?_ofQuotient {n d : Nat} (positive : 0 < d) (within : n ≤ d) :
    ∃ k : Nat, k ≤ 1074 ∧ (n < d → 53 ≤ k) ∧
      (ofQuotient false n d).place? =
        some ((roundHalfEven (n * twoTo k) d * twoTo (1074 - k) : Nat) : Int) ∧
      n * twoTo k < twoTo 53 * d ∧ (twoTo 52 * d ≤ n * twoTo k ∨ k = 1074) := by
  by_cases none : n = 0
  · subst none
    have zero : roundHalfEven 0 d = 0 := roundHalfEven_self positive 0
    refine ⟨1074, Nat.le_refl _, by omega, ?_, ?_, .inr rfl⟩
    · rw [Nat.zero_mul, zero]
      rfl
    · rw [Nat.zero_mul]
      exact Nat.mul_pos (twoTo_pos _) positive
  rcases Nat.lt_or_eq_of_le within with below | rfl
  · obtain ⟨k, least, most, exponent, high, low⟩ :=
      exponentOf_fraction (Nat.pos_of_ne_zero none) below
    have bits : roundHalfEven (n * twoTo k) d ≤ twoTo 53 :=
      roundHalfEven_le positive (Nat.le_of_lt high)
    refine ⟨k, most, fun _ => least, ?_, high, low⟩
    unfold ofQuotient
    rw [if_neg none]
    dsimp only
    rw [exponent, scale_neg _ _ _ (by omega)]
    dsimp only
    split
    · -- the significand has run over into the next power of two
      rename_i full
      have next : -(k : Int) + 1 = -((k - 1 : Nat) : Int) := by omega
      have same : twoTo 52 * twoTo (1074 - (k - 1)) = twoTo 53 * twoTo (1074 - k) := by
        rw [← twoTo_add, ← twoTo_add]
        congr 1
        omega
      rw [next, place?_pack (twoTo_lt (by decide)) (by omega) (.inl (Nat.le_refl _)), same, full]
    · rename_i partly
      refine place?_pack (Nat.lt_of_le_of_ne bits partly) most ?_
      exact low.imp_left (le_roundHalfEven positive)
  · refine ⟨52, by decide, by omega, ?_, ?_, .inl (Nat.le_of_eq (Nat.mul_comm ..))⟩
    · rw [ofQuotient_self positive, roundHalfEven_self positive, ← twoTo_add]
      exact place?_one
    · rw [Nat.mul_comm]
      exact Nat.mul_lt_mul_of_pos_right (twoTo_lt (by decide)) positive

theorem ofQuotient_below_one {n d : Nat} (below : n * twoTo 53 + d ≤ d * twoTo 53)
    (positive : 0 < d) : one.le (ofQuotient false n d) = false := by
  have fraction : n < d := by
    refine Nat.lt_of_mul_lt_mul_right (a := twoTo 53) ?_
    omega
  obtain ⟨k, most, least, place, _⟩ := place?_ofQuotient positive (Nat.le_of_lt fraction)
  obtain ⟨more, split⟩ := Nat.exists_eq_add_of_le (least fraction)
  -- the exact value lies at least one unit of the last place below the power of two
  have room : roundHalfEven (n * twoTo k) d + 1 ≤ twoTo k := by
    have unit : n * twoTo k + d ≤ d * twoTo k := by
      rw [split, twoTo_add, ← Nat.mul_assoc, ← Nat.mul_assoc]
      calc n * twoTo 53 * twoTo more + d ≤ n * twoTo 53 * twoTo more + d * twoTo more :=
            Nat.add_le_add_left (Nat.le_mul_of_pos_right _ (twoTo_pos _)) _
        _ = (n * twoTo 53 + d) * twoTo more := (Nat.add_mul ..).symm
        _ ≤ d * twoTo 53 * twoTo more := Nat.mul_le_mul_right _ below
    have whole : n * twoTo k ≤ (twoTo k - 1) * d := by
      rw [Nat.sub_mul, Nat.mul_comm (twoTo _) d]
      omega
    have rounded := roundHalfEven_le positive whole
    have := twoTo_pos k
    omega
  have less : roundHalfEven (n * twoTo k) d * twoTo (1074 - k) < twoTo 1074 := by
    calc roundHalfEven (n * twoTo k) d * twoTo (1074 - k)
        < twoTo k * twoTo (1074 - k) := Nat.mul_lt_mul_of_pos_right room (twoTo_pos _)
      _ = twoTo 1074 := by rw [← twoTo_add, Nat.add_sub_cancel' most]
  simp only [le, related, place?_one, place, decide_eq_false_iff_not]
  omega

theorem ofNat_exact {n : Nat} (small : n < twoTo 53) : ∃ m e canonical b, 0 < b ∧
    ofNat n = .finite false m e canonical ∧ fraction m e = (n * b, b) := by
  by_cases zero : n = 0
  · subst zero
    refine ⟨0, -1074, by decide, twoTo 1074, twoTo_pos _, rfl, ?_⟩
    rw [Nat.zero_mul]
    rfl
  · have low := log2_le (Nat.pos_of_ne_zero zero)
    have high := lt_log2 n
    have short : n.log2 ≤ 52 := by
      refine Nat.le_of_not_lt fun long => ?_
      have far : twoTo 53 ≤ twoTo n.log2 := twoTo_le long
      omega
    obtain ⟨gap, eq⟩ := Nat.exists_eq_add_of_le short
    have none : Nat.log2 1 = 0 := by decide
    have guess : Max.max ((n.log2 : Int) - Nat.log2 1 - 53) (-1074) = -((gap + 1 : Nat) : Int) := by
      rw [none]
      omega
    have fills : twoTo 52 ≤ n * twoTo gap := by
      calc twoTo 52 = twoTo n.log2 * twoTo gap := by rw [← twoTo_add, ← eq]
        _ ≤ n * twoTo gap := Nat.mul_le_mul_right _ low
    have fits : n * twoTo gap < twoTo 53 := by
      calc n * twoTo gap < twoTo (n.log2 + 1) * twoTo gap :=
            Nat.mul_lt_mul_of_pos_right high (twoTo_pos _)
        _ = twoTo 53 := by
          rw [← twoTo_add]
          congr 1
          omega
    have exponent : exponentOf n 1 = -(gap : Int) := by
      have double : n * twoTo (gap + 1) = 2 * (n * twoTo gap) := by
        rw [twoTo_succ, Nat.mul_left_comm]
      have fifty : twoTo 53 = 2 * twoTo 52 := twoTo_succ 52
      rw [exponentOf_guess Nat.one_pos (by omega) guess, if_pos (by omega)]
      omega
    have canonical : Canonical (n * twoTo gap) (-(gap : Int)) :=
      ⟨⟨fits, by omega, by omega⟩, .inl fills⟩
    refine ⟨n * twoTo gap, -(gap : Int), canonical, twoTo gap, twoTo_pos _, ?_, ?_⟩
    · have scaled : scale n 1 (-(gap : Int)) = (n * twoTo gap, 1) := by
        by_cases flat : gap = 0
        · subst flat
          have unit : twoTo 0 = 1 := rfl
          simp [scale, unit]
        · exact scale_neg n 1 gap (Nat.pos_of_ne_zero flat)
      unfold ofNat ofQuotient
      rw [if_neg zero]
      dsimp only
      rw [exponent, scaled]
      dsimp only
      rw [roundHalfEven_one, if_neg (Nat.ne_of_lt fits), pack, dif_pos canonical]
    · by_cases flat : gap = 0
      · subst flat
        have unit : twoTo 0 = 1 := rfl
        simp [fraction, unit]
      · have negative : -(gap : Int) < 0 := by omega
        rw [fraction, if_pos negative, Int.neg_neg, Int.toNat_natCast]

theorem fraction_positive {m : Nat} (some : 0 < m) (e : Int) :
    ∃ a b, 0 < a ∧ 0 < b ∧ fraction m e = (a, b) := by
  unfold fraction
  split
  · exact ⟨_, _, some, twoTo_pos _, rfl⟩
  · exact ⟨_, _, Nat.mul_pos some (twoTo_pos _), Nat.one_pos, rfl⟩

/-- A number of 54 bits or more has an exponent that leaves 53 of them. -/
theorem exponentOf_large {n gap : Nat} (long : n.log2 = gap + 53) :
    exponentOf n 1 = ((gap + 1 : Nat) : Int) := by
  have none : Nat.log2 1 = 0 := by decide
  have guess : Max.max ((n.log2 : Int) - Nat.log2 1 - 53) (-1074) = ((gap : Nat) : Int) := by
    rw [none, long]
    omega
  have full : twoTo 53 ≤ n / (1 * twoTo gap) := by
    rw [Nat.one_mul, Nat.le_div_iff_mul_le (twoTo_pos _), ← twoTo_add, Nat.add_comm, ← long]
    refine log2_le (Nat.pos_of_ne_zero fun zero => ?_)
    rw [zero, Nat.log2_zero] at long
    omega
  unfold exponentOf
  rw [guess]
  dsimp only
  rw [scale_nonneg]
  dsimp only
  rw [if_pos full]
  rfl

/-- A number of 54 bits or more is rounded to 53 of them, which may carry into one more. -/
theorem ofNat_long {n gap : Nat} (long : n.log2 = gap + 53) (most : gap ≤ 969) :
    ∃ m e canonical, 0 < m ∧ ofNat n = .finite false m e canonical ∧
      m * twoTo (e + 1074).toNat =
        roundHalfEven n (twoTo (gap + 1)) * twoTo (gap + 1) * twoTo 1074 := by
  have some : 0 < n := by
    refine Nat.pos_of_ne_zero fun zero => ?_
    rw [zero, Nat.log2_zero] at long
    omega
  have low := log2_le some
  have high := lt_log2 n
  have fills : twoTo 52 ≤ roundHalfEven n (twoTo (gap + 1)) := by
    refine le_roundHalfEven (twoTo_pos _) ?_
    rwa [← twoTo_add, show 52 + (gap + 1) = n.log2 by omega]
  have fits : roundHalfEven n (twoTo (gap + 1)) ≤ twoTo 53 := by
    refine roundHalfEven_le (twoTo_pos _) (Nat.le_of_lt ?_)
    rwa [← twoTo_add, show 53 + (gap + 1) = n.log2 + 1 by omega]
  have scaled : scale n 1 ((gap + 1 : Nat) : Int) = (n, twoTo (gap + 1)) := by
    rw [scale_nonneg, Nat.one_mul]
  unfold ofNat ofQuotient
  rw [if_neg (Nat.ne_of_gt some)]
  dsimp only
  rw [exponentOf_large long, scaled]
  dsimp only
  split
  · rename_i carried
    have canonical : Canonical (twoTo 52) ((gap + 1 : Nat) + 1) :=
      ⟨⟨twoTo_lt (by decide), by omega, by omega⟩, .inl (Nat.le_refl _)⟩
    rw [pack, dif_pos canonical]
    refine ⟨_, _, canonical, twoTo_pos _, rfl, ?_⟩
    rw [carried, ← twoTo_add, ← twoTo_add, ← twoTo_add]
    exact congrArg twoTo (by omega)
  · rename_i partly
    have canonical : Canonical (roundHalfEven n (twoTo (gap + 1))) (gap + 1 : Nat) :=
      ⟨⟨Nat.lt_of_le_of_ne fits partly, by omega, by omega⟩, .inl fills⟩
    rw [pack, dif_pos canonical]
    have shift : (((gap + 1 : Nat) : Int) + 1074).toNat = gap + 1 + 1074 := by omega
    refine ⟨_, _, canonical, Nat.lt_of_lt_of_le (twoTo_pos _) fills, rfl, ?_⟩
    rw [shift, Nat.mul_assoc, ← twoTo_add]

/-- Numbers that do not fit into a significand have 54 bits or more. -/
theorem log2_of_long {n : Nat} (long : twoTo 53 ≤ n) (small : n < twoTo 1023) :
    ∃ gap, n.log2 = gap + 53 ∧ gap ≤ 969 := by
  have low := log2_le (Nat.lt_of_lt_of_le (twoTo_pos 53) long)
  have high := lt_log2 n
  have least : 53 ≤ n.log2 := by
    refine Nat.le_of_not_lt fun less => ?_
    have below : twoTo (n.log2 + 1) ≤ twoTo 53 := twoTo_le less
    omega
  have most : n.log2 ≤ 1022 := by
    refine Nat.le_of_not_lt fun more => ?_
    have far : twoTo 1023 ≤ twoTo n.log2 := twoTo_le more
    omega
  exact ⟨n.log2 - 53, by omega, by omega⟩

/-- Numbers above zero and below 2¹⁰²³ come to doubles above zero. -/
theorem ofNat_positive {n : Nat} (some : 0 < n) (small : n < twoTo 1023) :
    ∃ m e canonical, 0 < m ∧ ofNat n = .finite false m e canonical := by
  by_cases short : n < twoTo 53
  · obtain ⟨m, e, canonical, b, positive, eq, magnitude⟩ := ofNat_exact short
    refine ⟨m, e, canonical, Nat.pos_of_ne_zero fun zero => ?_, eq⟩
    subst zero
    have above := Nat.mul_pos some positive
    have none : (fraction 0 e).1 = 0 := by
      unfold fraction
      split <;> simp
    rw [magnitude] at none
    exact absurd none (Nat.ne_of_gt above)
  · obtain ⟨gap, long, most⟩ := log2_of_long (Nat.le_of_not_lt short) small
    obtain ⟨m, e, canonical, above, eq, _⟩ := ofNat_long long most
    exact ⟨m, e, canonical, above, eq⟩

end Binary64

namespace Summary

theorem rate_quotient {successes total : Nat} (le : successes ≤ total) (some : 0 < total)
    (small : total < twoTo 53) : ∃ b d, 0 < b ∧ 0 < d ∧
      rate successes total = .ofQuotient false (successes * b * d) (b * (total * d)) := by
  obtain ⟨m, e, canonical, b, bPos, eq, numerator⟩ :=
    Binary64.ofNat_exact (Nat.lt_of_le_of_lt le small)
  obtain ⟨n, f, canonical', d, dPos, eq', denominator⟩ := Binary64.ofNat_exact small
  refine ⟨b, d, bPos, dPos, ?_⟩
  unfold rate
  rw [eq, eq']
  unfold Binary64.div
  dsimp only
  rw [numerator, denominator]
  dsimp only
  rw [if_neg (Nat.ne_of_gt (Nat.mul_pos some dPos))]
  rfl

/-- Below 2⁵³ the rate is one only if all succeeded. -/
theorem successes_of_rate {successes total : Nat} (le : successes ≤ total)
    (small : total < twoTo 53) (full : Binary64.one.le (rate successes total) = true) :
    successes = total := by
  refine Nat.le_antisymm le (Nat.le_of_not_lt fun less => ?_)
  have some : 0 < total := by omega
  obtain ⟨b, d, bPos, dPos, quotient⟩ := rate_quotient le some small
  have below : successes * b * d * twoTo 53 + b * (total * d) ≤ b * (total * d) * twoTo 53 := by
    have room : successes * twoTo 53 + total ≤ total * twoTo 53 := by
      have step : successes * twoTo 53 + twoTo 53 ≤ total * twoTo 53 := by
        rw [← Nat.succ_mul]
        exact Nat.mul_le_mul_right _ less
      omega
    calc successes * b * d * twoTo 53 + b * (total * d)
        = (successes * twoTo 53 + total) * (b * d) := by ring
      _ ≤ total * twoTo 53 * (b * d) := Nat.mul_le_mul_right _ room
      _ = b * (total * d) * twoTo 53 := by ring
  have short := Binary64.ofQuotient_below_one below
    (Nat.mul_pos bPos (Nat.mul_pos some dPos))
  rw [quotient, short] at full
  cases full

/-- A number that is a double divided by itself is one, however it was rounded. -/
theorem rate_self {total : Nat} (some : 0 < total) (small : total < twoTo 1023) :
    rate total total = .one := by
  obtain ⟨m, e, canonical, positive, eq⟩ := Binary64.ofNat_positive some small
  obtain ⟨a, b, above, below, magnitude⟩ := Binary64.fraction_positive positive e
  unfold rate
  rw [eq]
  unfold Binary64.div
  dsimp only
  rw [magnitude]
  dsimp only
  rw [if_neg (Nat.ne_of_gt above), Nat.mul_comm b a]
  exact Binary64.ofQuotient_self (Nat.mul_pos above below)

end Summary

/-! The bound is sharp. -/
example : Binary64.one.le (Summary.rate (twoTo 53) (twoTo 53 + 1)) = true := by decide +kernel

end Orchestration
