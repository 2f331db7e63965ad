import Orchestration.Proofs.Rate

/-! The order of doubles. Two of one place are the same, up to the sign of a zero. The smallest of
some numbers does not depend on the turn in which they come. And the nearest double keeps the order
of what it is nearest to, as far as fractions up to one go. -/
namespace Orchestration.Binary64

/-! ### Places -/

section Places

variable {x y : Binary64}

theorem place?_eq_none : x.place? = none ↔ x = .nan := by
  cases x with
  | nan => exact iff_of_true rfl rfl
  | finite | infinite => exact iff_of_false nofun nofun

/-- A number whose significand is not full has the least exponent, so the place tells both. -/
theorem significand_inj {m n : Nat} {e f : Int} (first : Canonical m e) (second : Canonical n f)
    (same : m * twoTo (e + 1074).toNat = n * twoTo (f + 1074).toNat) : m = n ∧ e = f := by
  have apart {m n : Nat} {e f : Int} (first : Canonical m e) (second : Canonical n f)
      (same : m * twoTo (e + 1074).toNat = n * twoTo (f + 1074).toNat) : ¬e < f := by
    intro less
    obtain ⟨⟨mBits, eLeast, _⟩, _⟩ := first
    obtain ⟨_, nBits⟩ := second
    obtain ⟨gap, split⟩ := Nat.exists_eq_add_of_le
      (show (e + 1074).toNat + 1 ≤ (f + 1074).toNat by omega)
    rw [split, Nat.add_right_comm, twoTo_succ, twoTo_add] at same
    have shorter : m = n * (2 * twoTo gap) := by
      refine Nat.eq_of_mul_eq_mul_right (twoTo_pos (e + 1074).toNat) (same.trans ?_)
      ac_rfl
    have full : twoTo 52 ≤ n := nBits.resolve_right (by omega)
    have wide := Nat.mul_le_mul full (Nat.mul_le_mul_left 2 (twoTo_pos gap))
    have bits : twoTo 53 = twoTo 52 * 2 := (twoTo_succ 52).trans (Nat.mul_comm ..)
    omega
  have level : e = f :=
    Int.le_antisymm (Int.not_lt.mp (apart second first same.symm))
      (Int.not_lt.mp (apart first second same))
  subst level
  exact ⟨Nat.eq_of_mul_eq_mul_right (twoTo_pos _) same, rfl⟩

theorem place_lt {m : Nat} {e : Int} (canonical : Canonical m e) :
    m * twoTo (e + 1074).toNat < twoTo 2098 := by
  obtain ⟨⟨bits, _, most⟩, _⟩ := canonical
  calc m * twoTo (e + 1074).toNat < twoTo 53 * twoTo (e + 1074).toNat :=
        Nat.mul_lt_mul_of_pos_right bits (twoTo_pos _)
    _ = twoTo (53 + (e + 1074).toNat) := (twoTo_add ..).symm
    _ ≤ twoTo 2098 := twoTo_le (by omega)

theorem eq_of_place? (same : x.place? = y.place?) : x = y ∨ x.place? = some 0 := by
  have far := twoTo_pos 2098
  cases x with
  | finite s m e canonical =>
    have near := place_lt canonical
    cases y with
    | finite t n f canonical' =>
      have level : m * twoTo (e + 1074).toNat = n * twoTo (f + 1074).toNat := by
        simp only [place?, Option.some.injEq] at same
        split at same <;> split at same <;> omega
      obtain ⟨rfl, rfl⟩ := significand_inj canonical canonical' level
      simp only [place?, Option.some.injEq] at same ⊢
      by_cases signs : s = t
      · exact .inl (by rw [signs])
      · generalize m * twoTo (e + 1074).toNat = size at same ⊢
        cases s <;> cases t <;> simp at signs same ⊢ <;> omega
    | infinite t =>
      simp only [place?, Option.some.injEq] at same
      split at same <;> split at same <;> omega
    | nan => cases same
  | infinite s =>
    cases y with
    | finite t n f canonical' =>
      have near := place_lt canonical'
      simp only [place?, Option.some.injEq] at same
      split at same <;> split at same <;> omega
    | infinite t =>
      simp only [place?, Option.some.injEq] at same
      generalize twoTo 2098 = limit at far same
      left
      cases s <;> cases t <;> simp at same ⊢ <;> omega
    | nan => cases same
  | nan => exact .inl (place?_eq_none.mp same.symm).symm

end Places

theorem clampUnit_bounded (x : Binary64) : x.clampUnit = .nan ∨
    zero.le x.clampUnit = true ∧ x.clampUnit.le one = true := by
  have proper : zero.le one = true := by decide +kernel
  unfold clampUnit clamp
  split
  · exact .inr ⟨by decide +kernel, proper⟩
  · rename_i reaches
    split
    · exact .inr ⟨proper, by decide +kernel⟩
    · rename_i within
      cases place : x.place? with
      | none => exact .inl (place?_eq_none.mp place)
      | some p =>
        right
        simp only [lt, le, related, place, place?_one, show zero.place? = some 0 from rfl,
          decide_eq_true_iff] at reaches within ⊢
        omega

/-! ### The smallest of some numbers -/

/-- Not above: what is no number is above every number. -/
def AtMost (x y : Binary64) : Prop := y = .nan ∨ x.le y = true

structure IsLowest (cs : List Binary64) (x : Binary64) : Prop where
  among : x ∈ cs
  least : ∀ c ∈ cs, x.AtMost c

section Lowest

variable {x y z : Binary64}

theorem AtMost.refl (x : Binary64) : x.AtMost x := by
  cases at_ : x.place? with
  | none => exact .inl (place?_eq_none.mp at_)
  | some p => exact .inr (by simp [le, related, at_])

theorem AtMost.trans (first : x.AtMost y) (second : y.AtMost z) : x.AtMost z := by
  rcases second with rfl | second
  · exact .inl rfl
  rcases first with rfl | first
  · cases second
  · right
    cases hx : x.place? <;> cases hy : y.place? <;> cases hz : z.place? <;>
      simp_all [le, related]
    omega

theorem AtMost.place?_eq (below : x.AtMost y) (above : y.AtMost x) : x.place? = y.place? := by
  rcases below with rfl | below <;> rcases above with rfl | above
  · rfl
  · cases above
  · rw [le, related_nan_left] at below
    cases below
  · cases hx : x.place? <;> cases hy : y.place? <;> simp_all [le, related]
    omega

theorem min_cases (x y : Binary64) :
    (min x y = x ∧ x.AtMost y) ∨ (min x y = y ∧ y.AtMost x) := by
  unfold min
  split
  · exact .inr ⟨rfl, .inl rfl⟩
  · rename_i number
    split
    · rename_i less
      exact .inr ⟨rfl, .inr (le_of_lt less)⟩
    · rename_i less
      refine .inl ⟨rfl, ?_⟩
      cases hx : x.place? with
      | none => exact absurd (place?_eq_none.mp hx) number
      | some p =>
        cases hy : y.place? with
        | none => exact .inl (place?_eq_none.mp hy)
        | some q =>
          right
          simp [lt, le, related, hx, hy] at less ⊢
          exact less

theorem min_atMost (x y : Binary64) : (min x y).AtMost x ∧ (min x y).AtMost y := by
  obtain ⟨which, below⟩ | ⟨which, below⟩ := min_cases x y
  · exact which.symm ▸ ⟨.refl x, below⟩
  · exact which.symm ▸ ⟨below, .refl y⟩

theorem isLowest_foldl (rest : List Binary64) (x : Binary64) :
    IsLowest (x :: rest) (rest.foldl min x) := by
  induction rest generalizing x with
  | nil => exact ⟨List.mem_singleton_self x, by simp [AtMost.refl]⟩
  | cons y rest ih =>
    obtain ⟨among, least⟩ := ih (min x y)
    obtain ⟨first, others⟩ := List.forall_mem_cons.mp least
    obtain ⟨left, right⟩ := min_atMost x y
    refine ⟨?_, List.forall_mem_cons.mpr ⟨first.trans left,
      List.forall_mem_cons.mpr ⟨first.trans right, others⟩⟩⟩
    rcases List.mem_cons.mp among with here | later
    · rw [List.foldl_cons, here]
      obtain ⟨which, _⟩ | ⟨which, _⟩ := min_cases x y <;> simp [which]
    · exact List.mem_cons_of_mem _ (List.mem_cons_of_mem _ later)

theorem IsLowest.place?_eq {cs ds : List Binary64} (same : ∀ c, c ∈ cs ↔ c ∈ ds)
    (first : IsLowest cs x) (second : IsLowest ds y) : x.place? = y.place? :=
  AtMost.place?_eq (first.least y ((same y).mpr second.among))
    (second.least x ((same x).mp first.among))

end Lowest

/-! ### Rounding keeps the order -/

theorem roundHalfEven_mono {n d n' d' : Nat} (some : 0 < d) (some' : 0 < d')
    (le : n * d' ≤ n' * d) : roundHalfEven n d ≤ roundHalfEven n' d' := by
  have floors : n / d ≤ n' / d' := by
    rw [Nat.le_div_iff_mul_le some']
    refine Nat.le_of_mul_le_mul_right ?_ some
    calc n / d * d' * d = n / d * d * d' := Nat.mul_right_comm ..
      _ ≤ n * d' := Nat.mul_le_mul_right _ (Nat.div_mul_le_self n d)
      _ ≤ n' * d := le
  unfold roundHalfEven
  dsimp only
  by_cases same : n / d = n' / d'
  · rw [same]
    have rests : n % d * d' ≤ n' % d' * d := by
      have split := Nat.div_add_mod n d
      have split' := Nat.div_add_mod n' d'
      rw [← split, ← split', same, Nat.add_mul, Nat.add_mul] at le
      have level : d * (n' / d') * d' = d' * (n' / d') * d := by ac_rfl
      omega
    have doubled : 2 * (n % d) * d' ≤ 2 * (n' % d') * d := by
      rw [Nat.mul_assoc, Nat.mul_assoc]
      exact Nat.mul_le_mul_left 2 rests
    -- what is past the half, or on it, is so in the larger fraction, too
    have past (beyond : d < 2 * (n % d)) : d' < 2 * (n' % d') := by
      refine Nat.lt_of_mul_lt_mul_right (a := d) ?_
      calc d' * d = d * d' := Nat.mul_comm ..
        _ < 2 * (n % d) * d' := Nat.mul_lt_mul_of_pos_right beyond some'
        _ ≤ 2 * (n' % d') * d := doubled
    have half (tie : 2 * (n % d) = d) : d' ≤ 2 * (n' % d') := by
      refine Nat.le_of_mul_le_mul_right ?_ some
      rwa [tie, Nat.mul_comm d] at doubled
    split <;> split <;> omega
  · split <;> split <;> omega

/-- The nearest double of a larger fraction is no smaller. -/
theorem ofQuotient_le {n d n' d' : Nat} (positive : 0 < d) (positive' : 0 < d') (within : n ≤ d)
    (within' : n' ≤ d') (less : n * d' ≤ n' * d) :
    (ofQuotient false n d).le (ofQuotient false n' d') = true := by
  obtain ⟨k, deep, _, place, high, low⟩ := place?_ofQuotient positive within
  obtain ⟨k', deep', _, place', high', low'⟩ := place?_ofQuotient positive' within'
  have places : roundHalfEven (n * twoTo k) d * twoTo (1074 - k) ≤
      roundHalfEven (n' * twoTo k') d' * twoTo (1074 - k') := by
    rcases Nat.lt_trichotomy k k' with coarser | rfl | finer
    · -- a coarser grid is that of a larger fraction
      have normal : twoTo 52 * d ≤ n * twoTo k := low.resolve_right (by omega)
      have halved : n' * twoTo k < twoTo 52 * d' := by
        refine Nat.lt_of_mul_lt_mul_left (a := 2) ?_
        calc 2 * (n' * twoTo k) = n' * twoTo (k + 1) := by rw [twoTo_succ, Nat.mul_left_comm]
          _ ≤ n' * twoTo k' := Nat.mul_le_mul_left _ (twoTo_le coarser)
          _ < twoTo 53 * d' := high'
          _ = 2 * (twoTo 52 * d') := by rw [← Nat.mul_assoc, ← twoTo_succ]
      refine absurd ?_ (Nat.lt_irrefl (n * d' * twoTo k))
      calc n * d' * twoTo k ≤ n' * d * twoTo k := Nat.mul_le_mul_right _ less
        _ = n' * twoTo k * d := Nat.mul_right_comm ..
        _ < twoTo 52 * d' * d := Nat.mul_lt_mul_of_pos_right halved positive
        _ = twoTo 52 * d * d' := Nat.mul_right_comm ..
        _ ≤ n * twoTo k * d' := Nat.mul_le_mul_right _ normal
        _ = n * d' * twoTo k := Nat.mul_right_comm ..
    · refine Nat.mul_le_mul_right _ (roundHalfEven_mono positive positive' ?_)
      rw [Nat.mul_right_comm, Nat.mul_right_comm n']
      exact Nat.mul_le_mul_right _ less
    · have bits : roundHalfEven (n * twoTo k) d ≤ twoTo 53 :=
        roundHalfEven_le positive (Nat.le_of_lt high)
      have full : twoTo 52 ≤ roundHalfEven (n' * twoTo k') d' :=
        le_roundHalfEven positive' (low'.resolve_right (by omega))
      calc roundHalfEven (n * twoTo k) d * twoTo (1074 - k)
          ≤ twoTo 53 * twoTo (1074 - k) := Nat.mul_le_mul_right _ bits
        _ = twoTo (53 + (1074 - k)) := (twoTo_add ..).symm
        _ ≤ twoTo (52 + (1074 - k')) := twoTo_le (by omega)
        _ = twoTo 52 * twoTo (1074 - k') := twoTo_add ..
        _ ≤ roundHalfEven (n' * twoTo k') d' * twoTo (1074 - k') := Nat.mul_le_mul_right _ full
  simp only [le, related, place, place', decide_eq_true_iff]
  exact Int.ofNat_le.mpr places

end Orchestration.Binary64
