import Mathlib.Tactic.IntervalCases
import Orchestration.Time.Calendar

/-! Dates and counts of days. Years are taken to begin in March, so that a leap day is the last
day of its year; the day of a date is then a sum of three terms. Every day has a date, which
gives the day back, and the order of dates is that of their days. -/
namespace Orchestration.Calendar

/-- Days from the first of March of the year 0 to that of another year. -/
def yearStart (y : Int) : Int := 365 * y + y / 4 - y / 100 + y / 400

def monthStart (m : Int) : Int := (153 * m + 2) / 5

def yearFromMarch (y : Int) (m : Nat) : Int := if m ≤ 2 then y - 1 else y

def monthFromMarch (m : Nat) : Int := ((m : Int) + 9) % 12

theorem isLeap_iff (y : Int) : isLeap y = true ↔ y % 4 = 0 ∧ (y % 100 ≠ 0 ∨ y % 400 = 0) := by
  simp [isLeap]

theorem yearStart_eq (y : Int) :
    y / 400 * 146097 + (y % 400 * 365 + y % 400 / 4 - y % 400 / 100) = yearStart y := by
  unfold yearStart
  omega

/-- A year that begins in March ends with the February of the next one. -/
theorem yearStart_succ (y : Int) :
    yearStart (y + 1) = yearStart y + 365 + if isLeap (y + 1) then 1 else 0 := by
  unfold yearStart
  by_cases leap : isLeap (y + 1) = true
  · rw [if_pos leap]
    rw [isLeap_iff] at leap
    omega
  · rw [if_neg leap]
    rw [isLeap_iff] at leap
    omega

theorem yearStart_le {y z : Int} (le : y ≤ z) : yearStart y ≤ yearStart z := by
  unfold yearStart
  omega

theorem daysOfDate_eq (y : Int) (m d : Nat) : daysOfDate y m d =
    yearStart (yearFromMarch y m) + monthStart (monthFromMarch m) + d - 719469 := by
  unfold daysOfDate yearFromMarch monthFromMarch
  dsimp only
  rw [← yearStart_eq]
  unfold monthStart
  omega

/-! ### The date of a day

A cycle of 400 years has four centuries, each of 25 groups of four years. -/

/-- A day of a cycle lies `s` days into year `k` of group `q` of century `c`. Only a leap year
has a day 365, and it is the last of its group. -/
theorem split_cycle {e : Int} (low : 0 ≤ e) (high : e ≤ 146096) : ∃ c q k s : Int,
    e = 36524 * c + 1461 * q + 365 * k + s ∧ (0 ≤ c ∧ c ≤ 3) ∧ (0 ≤ q ∧ q ≤ 24) ∧
      (0 ≤ k ∧ k ≤ 3) ∧ 0 ≤ s ∧ (s ≤ 364 ∨ s = 365 ∧ k = 3 ∧ (q ≤ 23 ∨ c = 3)) := by
  have ⟨c, f, one, bounds⟩ : ∃ c f : Int, e = 36524 * c + f ∧ (0 ≤ c ∧ c ≤ 3) ∧ 0 ≤ f ∧
      (f ≤ 36523 ∨ f = 36524 ∧ c = 3) := by
    by_cases last : e = 146096
    · exact ⟨3, 36524, by omega⟩
    · exact ⟨e / 36524, e % 36524, by omega⟩
  have ⟨q, r, two, bounds'⟩ : ∃ q r : Int, f = 1461 * q + r ∧ (0 ≤ q ∧ q ≤ 24) ∧ 0 ≤ r ∧
      (r ≤ 1459 ∨ r = 1460 ∧ (q ≤ 23 ∨ c = 3)) := ⟨f / 1461, f % 1461, by omega⟩
  by_cases last : r = 1460
  · exact ⟨c, q, 3, 365, by omega⟩
  · exact ⟨c, q, r / 365, r % 365, by omega⟩

section Cycle

variable {era c q k s : Int} (hc : 0 ≤ c ∧ c ≤ 3) (hq : 0 ≤ q ∧ q ≤ 24) (hk : 0 ≤ k ∧ k ≤ 3)
include hc hq hk

/-- The year of a day, as it is computed from the day alone. -/
theorem yearOfEra_eq (hs : 0 ≤ s) (ends : s ≤ 364 ∨ s = 365 ∧ k = 3 ∧ (q ≤ 23 ∨ c = 3)) :
    let e := 36524 * c + 1461 * q + 365 * k + s
    (e - e / 1460 + e / 36524 - e / 146096) / 365 = 100 * c + 4 * q + k := by
  intro e
  have centuries : e / 36524 - e / 146096 = c := by
    by_cases last : e = 146096
    · omega
    · have : e / 146096 = 0 := by omega
      omega
  by_cases late : 24 * c + q + 365 * k + s < 1460
  · have : e / 1460 = 25 * c + q := by omega
    omega
  · have : e / 1460 = 25 * c + q + 1 := by omega
    omega

theorem yearStart_cycle : yearStart (era * 400 + (100 * c + 4 * q + k)) =
    era * 146097 + (36524 * c + 1461 * q + 365 * k) := by
  have four : (era * 400 + (100 * c + 4 * q + k)) / 4 = era * 100 + 25 * c + q := by omega
  have hundred : (era * 400 + (100 * c + 4 * q + k)) / 100 = era * 4 + c := by omega
  have all : (era * 400 + (100 * c + 4 * q + k)) / 400 = era := by omega
  unfold yearStart
  rw [four, hundred, all]
  omega

theorem isLeap_cycle : isLeap (era * 400 + (100 * c + 4 * q + k) + 1) = true ↔
    k = 3 ∧ (q ≤ 23 ∨ c = 3) := by
  rw [isLeap_iff]
  omega

end Cycle

def dateInYear (y dayOfYear : Int) : Int × Nat × Nat :=
  let m := (5 * dayOfYear + 2) / 153
  (if m < 10 then y else y + 1, (if m < 10 then m + 3 else m - 9).toNat,
    (dayOfYear - monthStart m + 1).toNat)

theorem dateOfDays_eq (days : Int) : ∃ y n, days + 719468 = yearStart y + n ∧ 0 ≤ n ∧
    (n ≤ 364 ∨ n = 365 ∧ isLeap (y + 1) = true) ∧ dateOfDays days = dateInYear y n := by
  let era := (days + 719468) / 146097
  have low : 0 ≤ (days + 719468) % 146097 := by omega
  have high : (days + 719468) % 146097 ≤ 146096 := by omega
  obtain ⟨c, q, k, s, split, hc, hq, hk, hs, ends⟩ := split_cycle low high
  have start : yearStart (era * 400 + (100 * c + 4 * q + k)) =
      era * 146097 + (36524 * c + 1461 * q + 365 * k) := yearStart_cycle hc hq hk
  refine ⟨era * 400 + (100 * c + 4 * q + k), s, ?_, hs, ?_, ?_⟩
  · rw [start]
    clear start
    omega
  · rw [isLeap_cycle hc hq hk]
    clear start split low high
    omega
  · have year := yearOfEra_eq hc hq hk hs ends
    dsimp only at year
    have day : 36524 * c + 1461 * q + 365 * k + s -
        (365 * (100 * c + 4 * q + k) + (100 * c + 4 * q + k) / 4 -
          (100 * c + 4 * q + k) / 100) = s := by
      clear start split low high year ends
      omega
    unfold dateOfDays dateInYear monthStart
    dsimp only
    rw [split, year, day]
    have months : (5 * s + 2) / 153 ≤ 11 := by omega
    clear start split low high year day ends
    simp only [Prod.mk.injEq, and_true]
    split <;> split <;> omega

structure IsDate (y : Int) (m d : Nat) : Prop where
  month : 1 ≤ m ∧ m ≤ 12
  day : 1 ≤ d ∧ d ≤ daysInMonth y m

theorem dateOfDays_isDate (days : Int) :
    IsDate (dateOfDays days).1 (dateOfDays days).2.1 (dateOfDays days).2.2 := by
  obtain ⟨y, n, _, low, high, eq⟩ := dateOfDays_eq days
  rw [eq]
  unfold dateInYear
  dsimp only
  have months : 0 ≤ (5 * n + 2) / 153 ∧ (5 * n + 2) / 153 ≤ 11 := by omega
  generalize month : (5 * n + 2) / 153 = m at *
  constructor
  · split <;> omega
  · unfold monthStart daysInMonth
    by_cases early : m < 10
    · simp only [early, if_true]
      split
      · omega
      · split <;> omega
    · simp only [early, if_false]
      split
      · split
        · omega
        · rename_i common
          have short : n ≤ 364 := high.resolve_right fun last => common last.2
          omega
      · split <;> omega

theorem daysOfDate_dateOfDays (days : Int) :
    daysOfDate (dateOfDays days).1 (dateOfDays days).2.1 (dateOfDays days).2.2 = days := by
  obtain ⟨y, n, split, low, high, eq⟩ := dateOfDays_eq days
  rw [eq, daysOfDate_eq]
  unfold dateInYear yearFromMarch monthFromMarch
  dsimp only
  have months : 0 ≤ (5 * n + 2) / 153 ∧ (5 * n + 2) / 153 ≤ 11 := by omega
  have inside : 0 ≤ n - monthStart ((5 * n + 2) / 153) := by
    unfold monthStart
    omega
  generalize (5 * n + 2) / 153 = m at *
  by_cases early : m < 10
  · have year : ¬ (m + 3).toNat ≤ 2 := by omega
    have month : (((m + 3).toNat : Int) + 9) % 12 = m := by omega
    simp only [early, if_true, year, if_false, month]
    omega
  · have year : (m - 9).toNat ≤ 2 := by omega
    have month : (((m - 9).toNat : Int) + 9) % 12 = m := by omega
    simp only [early, if_false, year, if_true, month, Int.add_sub_cancel]
    omega

/-! ### The order of dates -/

section Order

variable {y : Int} {m d : Nat} (date : IsDate y m d)
include date

/-- A month is over before the next one of the year begins. -/
theorem monthStart_add_le (inside : monthFromMarch m < 11) :
    monthStart (monthFromMarch m) + d ≤ monthStart (monthFromMarch m + 1) := by
  obtain ⟨⟨_, _⟩, _, within⟩ := date
  unfold monthFromMarch monthStart daysInMonth at *
  interval_cases m <;> simp at within inside ⊢ <;> omega

/-- The year that began in March is over before the next one begins. -/
theorem yearStart_add_le : yearStart (yearFromMarch y m) + monthStart (monthFromMarch m) + d ≤
    yearStart (yearFromMarch y m + 1) := by
  obtain ⟨⟨_, _⟩, _, within⟩ := date
  rw [yearStart_succ]
  have more : (0 : Int) ≤ if isLeap (yearFromMarch y m + 1) then 1 else 0 := by
    split <;> decide
  unfold monthFromMarch monthStart daysInMonth at *
  by_cases february : m = 2
  · subst february
    by_cases leap : isLeap y = true
    · simp [yearFromMarch, leap] at within ⊢
      omega
    · simp [yearFromMarch, leap] at within ⊢
      omega
  · generalize (if isLeap (yearFromMarch y m + 1) then (1 : Int) else 0) = extra at *
    interval_cases m <;> simp at within february ⊢ <;> omega

/-- A date lies before a later month of its year, and before a later year. -/
theorem date_le {z n : Int} (month : 0 ≤ n ∧ n ≤ 11)
    (later : yearFromMarch y m < z ∨ yearFromMarch y m = z ∧ monthFromMarch m < n) :
    yearStart (yearFromMarch y m) + monthStart (monthFromMarch m) + d ≤
      yearStart z + monthStart n := by
  have begun : 0 ≤ monthStart n := by
    unfold monthStart
    omega
  rcases later with year | ⟨same, month'⟩
  · have ahead := yearStart_add_le date
    have years := yearStart_le (show yearFromMarch y m + 1 ≤ z by omega)
    omega
  · have ahead := monthStart_add_le date (by omega)
    have months : monthStart (monthFromMarch m + 1) ≤ monthStart n := by
      unfold monthStart
      omega
    rw [same]
    omega

end Order

def Earlier (a b : Int × Nat × Nat) : Prop :=
  a.1 < b.1 ∨ a.1 = b.1 ∧ (a.2.1 < b.2.1 ∨ a.2.1 = b.2.1 ∧ a.2.2 < b.2.2)

theorem Earlier.total {a b : Int × Nat × Nat} (other : a ≠ b) (not : ¬ Earlier a b) :
    Earlier b a := by
  obtain ⟨y, m, d⟩ := a
  obtain ⟨z, n, e⟩ := b
  simp only [Earlier, ne_eq, Prod.mk.injEq] at *
  omega

theorem daysOfDate_lt {y z : Int} {m n d e : Nat} (first : IsDate y m d) (second : IsDate z n e)
    (earlier : Earlier (y, m, d) (z, n, e)) : daysOfDate y m d < daysOfDate z n e := by
  have ⟨⟨_, _⟩, _, _⟩ := first
  have ⟨⟨_, _⟩, _, _⟩ := second
  dsimp only [Earlier] at earlier
  -- the order of year and month is the same whether years begin in January or in March
  have before (less : y < z ∨ y = z ∧ m < n) : yearFromMarch y m < yearFromMarch z n ∨
      yearFromMarch y m = yearFromMarch z n ∧ monthFromMarch m < monthFromMarch n := by
    unfold yearFromMarch monthFromMarch
    split <;> split <;> omega
  have month : 0 ≤ monthFromMarch n ∧ monthFromMarch n ≤ 11 := by
    unfold monthFromMarch
    omega
  rw [daysOfDate_eq, daysOfDate_eq]
  rcases earlier with year | ⟨rfl, less | ⟨rfl, day⟩⟩
  · have ahead := date_le first month (before (.inl year))
    omega
  · have ahead := date_le first month (before (.inr ⟨rfl, less⟩))
    omega
  · omega

/-- The order of dates is the order of days. -/
theorem dateOfDays_earlier_iff {a b : Int} : Earlier (dateOfDays a) (dateOfDays b) ↔ a < b := by
  have back := daysOfDate_lt (dateOfDays_isDate a) (dateOfDays_isDate b)
  have forth := daysOfDate_lt (dateOfDays_isDate b) (dateOfDays_isDate a)
  rw [daysOfDate_dateOfDays, daysOfDate_dateOfDays] at back forth
  constructor
  · exact back
  · intro less
    by_contra notEarlier
    by_cases same : dateOfDays a = dateOfDays b
    · have equal := daysOfDate_dateOfDays a
      rw [same, daysOfDate_dateOfDays] at equal
      omega
    · have later : b < a := forth (Earlier.total same notEarlier)
      omega

end Orchestration.Calendar
