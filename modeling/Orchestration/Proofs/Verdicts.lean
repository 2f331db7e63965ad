import Mathlib.Algebra.Order.Field.Basic
import Mathlib.Algebra.Order.Field.Rat
import Orchestration.Proofs.Tallies

/-! Verdicts on rounds. Whether a round is in the way depends on its rate of successes, and a
higher rate never stands in the way where a lower one did not. That is so of the exact rate, and
of its nearest double as far as the counts are doubles themselves. -/
namespace Orchestration

namespace Binary64

/-- The value of a double. An infinity has a value that no finite double reaches. -/
def value? (x : Binary64) : Option ℚ := x.place?.map fun (p : Int) => (p : ℚ) / twoTo 1074

section Values

variable {x y : Binary64} {a b : ℚ}

theorem related_value? {r : Int → Int → Bool} {s : ℚ → ℚ → Prop}
    (same : ∀ p q, r p q = true ↔ s (p / twoTo 1074) (q / twoTo 1074))
    (left : x.value? = some a) (right : y.value? = some b) : related r x y = true ↔ s a b := by
  unfold value? at left right
  obtain ⟨p, place, rfl⟩ := Option.map_eq_some_iff.mp left
  obtain ⟨q, place', rfl⟩ := Option.map_eq_some_iff.mp right
  simp only [related, place, place', same]

theorem unit_pos : (0 : ℚ) < twoTo 1074 := Nat.cast_pos.mpr (twoTo_pos _)

theorem lt_iff_value? (left : x.value? = some a) (right : y.value? = some b) :
    x.lt y = true ↔ a < b := by
  refine related_value? (fun p q => ?_) left right
  rw [div_lt_div_iff_of_pos_right unit_pos, Int.cast_lt, decide_eq_true_iff]

theorem le_iff_value? (left : x.value? = some a) (right : y.value? = some b) :
    x.le y = true ↔ a ≤ b := by
  refine related_value? (fun p q => ?_) left right
  rw [div_le_div_iff_of_pos_right unit_pos, Int.cast_le, decide_eq_true_iff]

theorem eq_iff_value? (left : x.value? = some a) (right : y.value? = some b) :
    x.eq y = true ↔ a = b := by
  refine related_value? (fun p q => ?_) left right
  rw [div_left_inj' unit_pos.ne', Int.cast_inj, beq_iff_eq]

theorem value?_zero : zero.value? = some 0 := by
  rw [value?, show zero.place? = some 0 from rfl, Option.map_some, Int.cast_zero, zero_div]

theorem value?_one : one.value? = some 1 := by
  rw [value?, place?_one, Option.map_some, Int.cast_natCast, div_self unit_pos.ne']

theorem values_of_le (below : x.le y = true) : ∃ a b, x.value? = some a ∧ y.value? = some b := by
  unfold le related at below
  split at below
  · rename_i p q place place'
    exact ⟨_, _, congrArg (Option.map _) place, congrArg (Option.map _) place'⟩
  · cases below

end Values

end Binary64

def FanInMode.blocksAt (mode : FanInMode) (rate : ℚ) (threshold : Binary64) : Prop :=
  match mode with
  | all => rate < 1
  | any => rate = 0
  | quorum => ∃ least, threshold.value? = some least ∧ rate < least
  | unrecognized => True

namespace FanInMode

variable {mode : FanInMode} {rate higher : ℚ} {threshold raised : Binary64}

theorem blocks_iff {x : Binary64} (value : x.value? = some rate) :
    mode.blocks x threshold = true ↔ mode.blocksAt rate threshold := by
  cases mode with
  | all => exact Binary64.lt_iff_value? value Binary64.value?_one
  | any => exact Binary64.eq_iff_value? value Binary64.value?_zero
  | quorum =>
    cases reached : threshold.value? with
    | none =>
      have none : threshold = .nan :=
        Binary64.place?_eq_none.mp (Option.map_eq_none_iff.mp reached)
      subst none
      simp [blocks, blocksAt, Binary64.lt, Binary64.related_nan_right, reached]
    | some least =>
      refine (Binary64.lt_iff_value? value reached).trans ⟨fun less => ⟨least, reached, less⟩, ?_⟩
      rintro ⟨other, same, less⟩
      exact Option.some.inj (reached.symm.trans same) ▸ less
  | unrecognized => exact iff_of_true rfl trivial

theorem blocksAt_lower (nonnegative : 0 ≤ rate) (rises : rate ≤ higher)
    (blocks : mode.blocksAt higher threshold) : mode.blocksAt rate threshold := by
  cases mode with
  | all => exact lt_of_le_of_lt rises blocks
  | any => exact le_antisymm (rises.trans (le_of_eq blocks)) nonnegative
  | quorum =>
    obtain ⟨least, reached, less⟩ := blocks
    exact ⟨least, reached, lt_of_le_of_lt rises less⟩
  | unrecognized => trivial

theorem blocksAt_raised (higher : threshold.le raised = true)
    (blocks : mode.blocksAt rate threshold) : mode.blocksAt rate raised := by
  cases mode with
  | quorum =>
    obtain ⟨least, reached, less⟩ := blocks
    obtain ⟨a, b, lower, upper⟩ := Binary64.values_of_le higher
    have order := (Binary64.le_iff_value? lower upper).mp higher
    refine ⟨b, upper, lt_of_lt_of_le less ?_⟩
    exact Option.some.inj (lower.symm.trans reached) ▸ order
  | all | any | unrecognized => exact blocks

theorem all_of_quorum (within : threshold.le .one = true)
    (blocks : quorum.blocksAt rate threshold) : all.blocksAt rate raised := by
  obtain ⟨least, reached, less⟩ := blocks
  exact lt_of_lt_of_le less ((Binary64.le_iff_value? reached Binary64.value?_one).mp within)

theorem quorum_of_any (positive : Binary64.zero.lt threshold = true)
    (blocks : any.blocksAt rate raised) : quorum.blocksAt rate threshold := by
  obtain ⟨a, least, _, reached⟩ := Binary64.values_of_le (Binary64.le_of_lt positive)
  refine ⟨least, reached, ?_⟩
  rw [show rate = 0 from blocks]
  exact (Binary64.lt_iff_value? Binary64.value?_zero reached).mp positive

end FanInMode

namespace Summary

/-! ### Rates -/

section Rates

variable {successes total successes' total' : Nat}

theorem rate_value? (within : successes ≤ total) (some : 0 < total) (small : total < twoTo 53) :
    ∃ r : ℚ, (rate successes total).value? = Option.some r ∧ 0 ≤ r := by
  obtain ⟨b, d, bPos, dPos, quotient⟩ := rate_quotient within some small
  have positive : 0 < b * (total * d) := Nat.mul_pos bPos (Nat.mul_pos some dPos)
  have fraction : successes * b * d ≤ b * (total * d) := by
    calc successes * b * d = b * (successes * d) := by ac_rfl
      _ ≤ b * (total * d) := Nat.mul_le_mul_left _ (Nat.mul_le_mul_right _ within)
  obtain ⟨k, _, _, place, _⟩ := Binary64.place?_ofQuotient positive fraction
  refine ⟨_, quotient ▸ congrArg (Option.map _) place, ?_⟩
  exact div_nonneg (Int.cast_nonneg (Int.natCast_nonneg _)) Binary64.unit_pos.le

theorem rate_le (within : successes ≤ total) (some : 0 < total) (small : total < twoTo 53)
    (within' : successes' ≤ total') (some' : 0 < total') (small' : total' < twoTo 53)
    (rises : successes * total' ≤ successes' * total) :
    (rate successes total).le (rate successes' total') = true := by
  obtain ⟨b, d, bPos, dPos, quotient⟩ := rate_quotient within some small
  obtain ⟨b', d', bPos', dPos', quotient'⟩ := rate_quotient within' some' small'
  have fraction {s t b d : Nat} (within : s ≤ t) : s * b * d ≤ b * (t * d) := by
    calc s * b * d = s * (b * d) := Nat.mul_assoc ..
      _ ≤ t * (b * d) := Nat.mul_le_mul_right _ within
      _ = b * (t * d) := Nat.mul_left_comm ..
  rw [quotient, quotient']
  refine Binary64.ofQuotient_le (Nat.mul_pos bPos (Nat.mul_pos some dPos))
    (Nat.mul_pos bPos' (Nat.mul_pos some' dPos')) (fraction within) (fraction within') ?_
  calc successes * b * d * (b' * (total' * d'))
      = successes * total' * (b * d * (b' * d')) := by ring
    _ ≤ successes' * total * (b * d * (b' * d')) := Nat.mul_le_mul_right _ rises
    _ = successes' * b' * d' * (b * (total * d)) := by ring

theorem rate_lt_one {r : ℚ} (within : successes ≤ total) (some : 0 < total)
    (small : total < twoTo 53) (value : (rate successes total).value? = Option.some r) :
    r < 1 ↔ successes < total := by
  rw [← not_le, ← Nat.not_le, ← Binary64.le_iff_value? Binary64.value?_one value, not_iff_not]
  constructor
  · exact fun reached => (successes_of_rate within small reached).ge
  · intro reached
    rw [Nat.le_antisymm within reached, rate_self some (small.trans (twoTo_lt (by decide)))]
    decide +kernel

/-- One success among as many as can be told is seen in the rate. -/
theorem rate_eq_zero {r : ℚ} (within : successes ≤ total) (some : 0 < total)
    (small : total < twoTo 53) (value : (rate successes total).value? = Option.some r)
    (nonnegative : 0 ≤ r) : r = 0 ↔ successes = 0 := by
  constructor
  · intro zero
    subst zero
    refine Nat.eq_zero_of_not_pos fun positive => ?_
    have most : 0 < twoTo 53 - 1 ∧ twoTo 53 - 1 < twoTo 53 := by decide
    obtain ⟨least, value', _⟩ := rate_value? (show 1 ≤ twoTo 53 - 1 from most.1) most.1 most.2
    have rises := rate_le most.1 most.1 most.2 within some small
      (Nat.mul_le_mul positive (Nat.le_sub_one_of_lt small))
    have low := (Binary64.le_iff_value? value' value).mp rises
    have above : Binary64.zero.lt (rate 1 (twoTo 53 - 1)) = true := by decide +kernel
    exact absurd low (not_le.mpr ((Binary64.lt_iff_value? Binary64.value?_zero value').mp above))
  · intro zero
    subst zero
    have falls := rate_le within some small (Nat.zero_le 1) Nat.one_pos (by decide) (by simp)
    rw [show rate 0 1 = .zero by decide +kernel] at falls
    exact le_antisymm ((Binary64.le_iff_value? value Binary64.value?_zero).mp falls) nonnegative

end Rates

/-! ### Grades -/

/-- A verdict on rounds of some sizes that more successes never turn against a round, nor a lower
threshold or a weaker mode. -/
structure Graded (fits : Nat → Prop) (blocks : List Observation → FanInPolicy → Prop) : Prop where
  turned : ∀ {before after o better policy}, fits (before ++ o :: after).length →
    better.normalize.status = .success →
    ¬blocks (before ++ o :: after) policy → ¬blocks (before ++ better :: after) policy
  appended : ∀ {observations better policy}, fits observations.length →
    fits (observations.length + 1) → better.normalize.status = .success →
    ¬blocks observations policy → ¬blocks (observations ++ [better]) policy
  raised : ∀ {observations mode threshold higher}, fits observations.length →
    threshold.le higher = true →
    blocks observations ⟨mode, threshold⟩ → blocks observations ⟨mode, higher⟩
  quorum_of_all : ∀ {observations threshold other}, fits observations.length →
    threshold.le .one = true →
    ¬blocks observations ⟨.all, other⟩ → ¬blocks observations ⟨.quorum, threshold⟩
  any_of_quorum : ∀ {observations threshold other}, fits observations.length →
    Binary64.zero.lt threshold = true →
    ¬blocks observations ⟨.quorum, threshold⟩ → ¬blocks observations ⟨.any, other⟩

def succeeded (observations : List Observation) : Nat :=
  observations.countP (·.normalize.status = .success)

/-- A verdict that depends on a rate is graded where the rate keeps the order of the exact one. -/
theorem Graded.of_rate {fits : Nat → Prop} {blocks : List Observation → FanInPolicy → Prop}
    (rateOf : List Observation → ℚ)
    (nonnegative : ∀ {a}, fits a.length → 0 ≤ rateOf a)
    (rises : ∀ {a b}, fits a.length → fits b.length →
      succeeded a * b.length ≤ succeeded b * a.length → rateOf a ≤ rateOf b)
    (judged : ∀ {a} policy, fits a.length →
      (blocks a policy ↔ policy.mode.blocksAt (rateOf a) policy.threshold)) :
    Graded fits blocks := by
  have better {a b : List Observation} (policy : FanInPolicy) (first : fits a.length)
      (second : fits b.length) (more : succeeded a * b.length ≤ succeeded b * a.length) :
      ¬blocks a policy → ¬blocks b policy := by
    rw [judged policy first, judged policy second]
    exact mt (FanInMode.blocksAt_lower (nonnegative first) (rises first second more))
  refine ⟨?_, ?_, ?_, ?_, ?_⟩
  · intro before after o better' policy sized success
    have same : (before ++ better' :: after).length = (before ++ o :: after).length := by simp
    refine better policy sized (same ▸ sized) ?_
    rw [same]
    refine Nat.mul_le_mul_right _ ?_
    simp only [succeeded, List.countP_append, List.countP_cons, success]
    split <;> simp
  · intro observations better' policy sized sized' success
    have longer : (observations ++ [better']).length = observations.length + 1 := List.length_append
    refine better policy sized (longer ▸ sized') ?_
    have among : succeeded observations ≤ observations.length := List.countP_le_length
    have more : succeeded (observations ++ [better']) = succeeded observations + 1 := by
      simp [succeeded, success]
    rw [longer, more, Nat.mul_add, Nat.add_mul]
    omega
  · intro observations mode threshold higher sized above
    rw [judged _ sized, judged _ sized]
    exact FanInMode.blocksAt_raised above
  · intro observations threshold other sized within
    rw [judged _ sized, judged _ sized]
    exact mt (FanInMode.all_of_quorum within)
  · intro observations threshold other sized positive
    rw [judged _ sized, judged _ sized]
    exact mt (FanInMode.quorum_of_any positive)

def exactRate (s : Summary) : ℚ := s.successes / s.total

def blocksExactly (observations : List Observation) (policy : FanInPolicy) : Prop :=
  policy.mode.blocksAt (fanIn observations policy).exactRate policy.threshold

variable (observations : List Observation) (policy : FanInPolicy)

theorem exactRate_fanIn : (fanIn observations policy).exactRate =
    (succeeded observations : ℚ) / observations.length := by
  have counted := counted_fanIn observations policy .success
  unfold exactRate
  rw [total_fanIn, show (fanIn observations policy).successes = _ from counted]
  rfl

theorem graded_exactly : Graded (0 < ·) blocksExactly := by
  refine .of_rate (fun a => (succeeded a : ℚ) / a.length) (fun _ => ?_) (fun some some' more => ?_)
    fun policy _ => ?_
  · exact div_nonneg (Nat.cast_nonneg _) (Nat.cast_nonneg _)
  · rw [div_le_div_iff₀ (Nat.cast_pos.mpr some) (Nat.cast_pos.mpr some')]
    exact_mod_cast more
  · rw [blocksExactly, exactRate_fanIn]

theorem blocking_at {observations : List Observation}
    (sized : 0 < observations.length ∧ observations.length < twoTo 53) (policy : FanInPolicy) :
    ∃ r : ℚ, (rate (succeeded observations) observations.length).value? = some r ∧ 0 ≤ r ∧
      (fanIn observations policy).successRate.value? = some r ∧
      ((fanIn observations policy).blocking = true ↔
        policy.mode.blocksAt r policy.threshold) := by
  obtain ⟨r, value, nonnegative⟩ := rate_value? List.countP_le_length sized.1 sized.2
  obtain ⟨rated, verdict⟩ := judged_fanIn observations policy
  rw [if_neg sized.1.ne'] at rated
  refine ⟨r, value, nonnegative, rated ▸ value, ?_⟩
  rw [verdict, decide_eq_false sized.1.ne', Bool.false_or, rated]
  exact FanInMode.blocks_iff value

theorem graded_rounded : Graded (fun n => 0 < n ∧ n < twoTo 53)
    fun observations policy => (fanIn observations policy).blocking = true := by
  refine .of_rate (fun a => ((rate (succeeded a) a.length).value?).getD 0) (fun sized => ?_)
    (fun sized sized' more => ?_) fun policy sized => ?_
  · obtain ⟨r, value, nonnegative, _⟩ := blocking_at sized .default
    rwa [value]
  · obtain ⟨r, value, _⟩ := blocking_at sized .default
    obtain ⟨r', value', _⟩ := blocking_at sized' .default
    rw [value, value']
    exact (Binary64.le_iff_value? value value').mp (rate_le List.countP_le_length sized.1 sized.2
      List.countP_le_length sized'.1 sized'.2 more)
  · obtain ⟨r, value, _, _, judged⟩ := blocking_at sized policy
    rwa [value]

/-- Only a quorum can tell the nearest double of a rate from the rate. -/
theorem blocking_iff_exactly {observations : List Observation}
    (sized : 0 < observations.length ∧ observations.length < twoTo 53) {policy : FanInPolicy}
    (other : policy.mode ≠ .quorum) :
    (fanIn observations policy).blocking = true ↔ blocksExactly observations policy := by
  obtain ⟨r, value, nonnegative, _, judged⟩ := blocking_at sized policy
  have among : succeeded observations ≤ observations.length := List.countP_le_length
  have positive : (0 : ℚ) < observations.length := Nat.cast_pos.mpr sized.1
  rw [judged, blocksExactly, exactRate_fanIn]
  cases mode : policy.mode with
  | all =>
    change r < 1 ↔ (succeeded observations : ℚ) / observations.length < 1
    rw [rate_lt_one among sized.1 sized.2 value, div_lt_one positive, Nat.cast_lt]
  | any =>
    change r = 0 ↔ (succeeded observations : ℚ) / observations.length = 0
    rw [rate_eq_zero among sized.1 sized.2 value nonnegative, div_eq_zero_iff,
      or_iff_left positive.ne', Nat.cast_eq_zero]
  | quorum => exact absurd mode other
  | unrecognized => exact Iff.rfl

/-- In a round of one observation or more, to turn an observation into a success or to add one
never makes the verdict on the exact rate stand in the way, and to raise the threshold never takes
it out of the way; what a quorum of no more than one refuses is refused if all are to succeed, and
what is refused if one success is enough is refused by every quorum above zero. The same goes for
the verdict on the nearest double, as far as the counts are doubles themselves; only a quorum can
tell it from the exact one. -/
theorem verdicts_graded :
    Graded (0 < ·) blocksExactly ∧
    Graded (fun n => 0 < n ∧ n < twoTo 53)
      (fun observations policy => (fanIn observations policy).blocking = true) ∧
    ∀ observations policy, 0 < observations.length → observations.length < twoTo 53 →
      (∃ r, (fanIn observations policy).successRate.value? = some r ∧
        ((fanIn observations policy).blocking = true ↔
          policy.mode.blocksAt r policy.threshold)) ∧
      (policy.mode ≠ .quorum →
        ((fanIn observations policy).blocking = true ↔ blocksExactly observations policy)) := by
  refine ⟨graded_exactly, graded_rounded, fun observations policy some small => ?_⟩
  obtain ⟨r, _, _, value, judged⟩ := blocking_at ⟨some, small⟩ policy
  exact ⟨⟨r, value, judged⟩, blocking_iff_exactly ⟨some, small⟩⟩

/-- One of two is just enough for a quorum of a half, and so it stays with one more success. -/
theorem half_graded :
    let half : Binary64 := .ofDecimal false 5 (-1)
    let result (status : TaskStatus) : Observation := .typed (.bare "s" "t" "w" status ⟨0, 0⟩)
    let both := [result .success, result .failed]
    (fanIn both ⟨.quorum, half⟩).successRate = half ∧
      (fanIn both ⟨.all, half⟩).blocking = true ∧
      (fanIn (both ++ [result .success]) ⟨.quorum, half⟩).blocking = false ∧
      (fanIn both ⟨.any, half⟩).blocking = false ∧ ¬blocksExactly both ⟨.any, half⟩ := by
  intro half result both
  obtain ⟨_, rounded, same⟩ := verdicts_graded
  have enough : ¬(fanIn both ⟨.quorum, half⟩).blocking = true := by decide +kernel
  have sized : 0 < both.length ∧ both.length < twoTo 53 := by decide
  have some : ¬(fanIn both ⟨.any, half⟩).blocking = true :=
    rounded.any_of_quorum sized (by decide +kernel) enough
  have succeeds : (result .success).normalize.status = .success := rfl
  have more := rounded.appended sized (by decide) succeeds enough
  refine ⟨by decide +kernel, by decide +kernel, eq_false_of_ne_true more,
    eq_false_of_ne_true some, ?_⟩
  exact mt ((same both ⟨.any, half⟩ sized.1 sized.2).2 (by decide)).mpr some

/-! Beyond 2⁵³ a count is rounded before the quotient is taken, and one more success may lower the
rate. -/
example : (rate (twoTo 53) (twoTo 53 + 2)).lt (rate (twoTo 53 - 1) (twoTo 53 + 1)) = true := by
  decide +kernel

end Summary
end Orchestration
