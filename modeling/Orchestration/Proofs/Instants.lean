import Mathlib.Data.List.TakeWhile
import Orchestration.Proofs.Calendar
import Orchestration.Proofs.Digits

/-! Instants and their texts. An instant whose year can be told is read back from its text, and
whatever text is read gives such an instant. A second that is a leap second is told as the
sixtieth of its minute, and offsets are whole minutes, so that it stays the last one. -/
namespace Orchestration.Timestamp

/-- The years that can be told, and a leap second only at the end of a minute. -/
structure Shown (t : Timestamp) : Prop where
  year : years.1 ≤ (Calendar.dateOfDays (t.seconds / 86400)).1 ∧
    (Calendar.dateOfDays (t.seconds / 86400)).1 ≤ years.2
  nanos : t.nanos < tenTo 9 ∨ t.nanos < 2 * tenTo 9 ∧ t.seconds % 60 = 59

theorem digit_not_blank {c : Char} (digit : Number.isDigit c = true) : Text.isBlank c = false := by
  rw [Number.isDigit_iff] at digit
  simp [Text.isBlank, Text.blankRanges]
  omega

theorem trimStart_cons {c : Char} (solid : Text.isBlank c = false) (rest : List Char) :
    Text.trimStartChars (c :: rest) = c :: rest := by
  simp [Text.trimStartChars, solid]

theorem trimStart_digits {cs : List Char} (filled : cs ≠ [])
    (digits : ∀ c ∈ cs, Number.isDigit c = true) (rest : List Char) :
    Text.trimStartChars (cs ++ rest) = cs ++ rest := by
  obtain ⟨c, more, rfl⟩ := List.exists_cons_of_ne_nil filled
  exact trimStart_cons (digit_not_blank (digits c List.mem_cons_self)) _

theorem takeWhile_digits {cs rest : List Char} (digits : ∀ c ∈ cs, Number.isDigit c = true)
    (ends : ∀ c ∈ rest.head?, Number.isDigit c = false) :
    (cs ++ rest).takeWhile Number.isDigit = cs := by
  rw [List.takeWhile_append_of_pos digits]
  cases rest with
  | nil => simp
  | cons c more => simp [ends c rfl]

/-- Digits are read up to the width, or up to the first character that is none. -/
theorem number?_digits {width : Nat} {cs rest : List Char} (filled : cs ≠ [])
    (digits : ∀ c ∈ cs, Number.isDigit c = true)
    (ends : cs.length = width ∨
      cs.length ≤ width ∧ ∀ c ∈ rest.head?, Number.isDigit c = false) :
    number? width (cs ++ rest) = some (Decimal.natOf cs, rest) := by
  have read : ((cs ++ rest).take width).takeWhile Number.isDigit = cs := by
    rcases ends with exactly | ⟨within, stop⟩
    · have whole := takeWhile_digits digits (show ∀ c ∈ ([] : List Char).head?, _ from by simp)
      rw [List.append_nil] at whole
      rw [← exactly, List.take_left, whole]
    · rw [List.take_append, List.take_of_length_le within]
      apply takeWhile_digits digits
      intro c first
      cases rest with
      | nil => simp at first
      | cons d more =>
        cases room : width - cs.length with
        | zero => simp [room] at first
        | succ n =>
          simp [room] at first
          exact stop c (by simp [first])
  unfold number?
  rw [trimStart_digits filled digits]
  simp only [read]
  rw [if_neg (by simpa using filled), List.drop_left]
  rfl

theorem number?_padded {w n : Nat} (wide : 0 < w) (fits : n < 10 ^ w) (rest : List Char) :
    number? w (padded w n ++ rest) = some (n, rest) := by
  have length := length_padded wide fits
  have filled : padded w n ≠ [] := by
    intro none
    rw [none] at length
    simp at length
    omega
  rw [number?_digits filled (padded_digits w n) (.inl length), natOf_padded]

theorem mark?_cons {m : Char} (solid : Text.isBlank m = false) (rest : List Char) :
    mark? m (m :: rest) = some rest := by
  unfold mark?
  rw [trimStart_cons solid]
  simp

theorem padded_eq_cons {w n : Nat} (wide : 0 < w) (fits : n < 10 ^ w) :
    ∃ c more, padded w n = c :: more ∧ Number.isDigit c = true := by
  have length := length_padded wide fits
  have digits := padded_digits w n
  cases eq : padded w n with
  | nil =>
    rw [eq] at length
    simp at length
    omega
  | cons c more => exact ⟨c, more, rfl, digits c (by simp [eq])⟩

theorem year?_padded {n : Nat} (fits : n < 10 ^ 4) (rest : List Char) :
    year? (padded 4 n ++ '-' :: rest) = some ((n : Int), '-' :: rest) := by
  have read := number?_padded (by decide) fits ('-' :: rest)
  obtain ⟨c, more, eq, digit⟩ := padded_eq_cons (by decide) fits
  rw [eq, List.cons_append] at read ⊢
  unfold year?
  rw [trimStart_cons (digit_not_blank digit)]
  dsimp only
  split
  · rename_i sign
    rw [(List.cons.inj sign).1] at digit
    exact absurd digit (by decide)
  · rename_i sign
    rw [(List.cons.inj sign).1] at digit
    exact absurd digit (by decide)
  · rw [read]
    rfl

/-- After a sign all digits are read, however many, up to the dash. -/
theorem number?_unbounded (n : Nat) (rest : List Char) :
    ∃ c more, padded 4 n ++ '-' :: rest = c :: more ∧ Number.isDigit c = true ∧
      number? (c :: more).length (c :: more) = some (n, '-' :: rest) := by
  have filled : padded 4 n ≠ [] := by
    unfold padded
    simp
  have read : number? (padded 4 n ++ '-' :: rest).length (padded 4 n ++ '-' :: rest) =
      some (n, '-' :: rest) := by
    rw [number?_digits filled (padded_digits 4 n) (.inr ⟨by simp, by simp; decide⟩), natOf_padded]
  obtain ⟨c, more, eq⟩ := List.exists_cons_of_ne_nil filled
  have digit := padded_digits 4 n c (by simp [eq])
  rw [eq, List.cons_append] at read ⊢
  exact ⟨c, _, rfl, digit, read⟩

theorem year?_yearText (year : Int) (rest : List Char) :
    year? (yearText year ++ '-' :: rest) = some (year, '-' :: rest) := by
  unfold yearText
  split
  · rename_i plain
    rw [year?_padded (by omega)]
    simpa using plain.1
  · obtain ⟨c, more, eq, digit, read⟩ := number?_unbounded year.natAbs rest
    rw [List.cons_append, eq]
    unfold year?
    split
    · rw [trimStart_cons (by decide)]
      change (number? (c :: more).length (c :: more)).bind _ = _
      rw [read]
      have back : -(year.natAbs : Int) = year := by omega
      simpa [digit] using back
    · rw [trimStart_cons (by decide)]
      change (number? (c :: more).length (c :: more)).bind _ = _
      rw [read]
      have back : (year.natAbs : Int) = year := by omega
      simpa [digit] using back

theorem daysInMonth_le (year : Int) (month : Nat) : Calendar.daysInMonth year month ≤ 31 := by
  unfold Calendar.daysInMonth
  split
  · split <;> decide
  · split <;> decide

theorem timeMark?_cons (rest : List Char) : timeMark? ('T' :: rest) = some rest := by
  unfold timeMark?
  exact if_pos (.inl rfl)

theorem offset?_universal : offset? ['Z'] = some (0, []) := by
  decide

/-- The parts that an instant is told in give it back. -/
theorem ofParts?_told {t : Timestamp} (shown : t.Shown) {y : Int} {m d : Nat}
    (parts : Calendar.dateOfDays (t.seconds / 86400) = (y, m, d)) :
    ofParts? y m d ((t.seconds % 86400).toNat / 3600) ((t.seconds % 86400).toNat / 60 % 60)
      ((t.seconds % 86400).toNat % 60 + t.nanos / tenTo 9) (t.nanos % tenTo 9) 0 = some t := by
  have date := Calendar.dateOfDays_isDate (t.seconds / 86400)
  have back := Calendar.daysOfDate_dateOfDays (t.seconds / 86400)
  obtain ⟨year, nanos⟩ := shown
  have told : t.isTold = true := by simpa [isTold] using year
  rw [parts] at date back year
  dsimp only at date back year
  obtain ⟨month, day⟩ := date
  have unit : tenTo 9 = 1000000000 := rfl
  simp only [unit] at nanos ⊢
  unfold ofParts?
  rw [if_neg (by omega), if_neg (by omega), if_neg (by simp; omega)]
  have same : (⟨Calendar.daysOfDate y m d * 86400 +
      ((t.seconds % 86400).toNat / 3600 * 3600 + (t.seconds % 86400).toNat / 60 % 60 * 60 +
        ((t.seconds % 86400).toNat % 60 + t.nanos / 1000000000 -
          if (t.seconds % 86400).toNat % 60 + t.nanos / 1000000000 = 60 then 1 else 0) : Nat) - 0,
      t.nanos % 1000000000 +
        (if (t.seconds % 86400).toNat % 60 + t.nanos / 1000000000 = 60 then 1 else 0) *
          1000000000⟩ : Timestamp) = t := by
    obtain ⟨seconds, n⟩ := t
    rw [back, Timestamp.mk.injEq]
    dsimp only at *
    split <;> omega
  dsimp only
  rw [unit, same, if_pos told]

/-- A date and time is read back, with whatever fraction is read after it. -/
theorem readChars?_wholeText {t : Timestamp} (shown : t.Shown) {tail : List Char}
    (fraction : fraction? (tail ++ ['Z']) = some (t.nanos % tenTo 9, ['Z'])) :
    readChars? (t.wholeText ++ tail ++ ['Z']) = some t := by
  have date := Calendar.dateOfDays_isDate (t.seconds / 86400)
  have most := daysInMonth_le (Calendar.dateOfDays (t.seconds / 86400)).1
    (Calendar.dateOfDays (t.seconds / 86400)).2.1
  have second : (t.seconds % 86400).toNat % 60 + t.nanos / tenTo 9 ≤ 60 := by
    have unit : tenTo 9 = 1000000000 := rfl
    have nanos := shown.nanos
    rw [unit] at nanos ⊢
    omega
  cases parts : Calendar.dateOfDays (t.seconds / 86400) with
  | mk y monthDay =>
    obtain ⟨m, d⟩ := monthDay
    rw [parts] at date most
    obtain ⟨month, day⟩ := date
    dsimp only at month day most
    unfold wholeText
    rw [parts]
    simp only [List.append_assoc, List.cons_append]
    apply Option.bind_eq_some_iff.mpr ⟨_, year?_yearText .., ?_⟩
    apply Option.bind_eq_some_iff.mpr ⟨_, mark?_cons (by decide) _, ?_⟩
    apply Option.bind_eq_some_iff.mpr ⟨_, number?_padded (by decide) (by omega) .., ?_⟩
    apply Option.bind_eq_some_iff.mpr ⟨_, mark?_cons (by decide) _, ?_⟩
    apply Option.bind_eq_some_iff.mpr ⟨_, number?_padded (by decide) (by omega) .., ?_⟩
    apply Option.bind_eq_some_iff.mpr ⟨_, timeMark?_cons _, ?_⟩
    apply Option.bind_eq_some_iff.mpr ⟨_, number?_padded (by decide) (by omega) .., ?_⟩
    apply Option.bind_eq_some_iff.mpr ⟨_, mark?_cons (by decide) _, ?_⟩
    apply Option.bind_eq_some_iff.mpr ⟨_, number?_padded (by decide) (by omega) .., ?_⟩
    apply Option.bind_eq_some_iff.mpr ⟨_, mark?_cons (by decide) _, ?_⟩
    apply Option.bind_eq_some_iff.mpr ⟨_, number?_padded (by decide) (by omega) .., ?_⟩
    apply Option.bind_eq_some_iff.mpr ⟨_, fraction, ?_⟩
    apply Option.bind_eq_some_iff.mpr ⟨_, offset?_universal, ?_⟩
    exact ofParts?_told shown parts

theorem fraction?_digits {w n : Nat} (wide : 0 < w) (most : w ≤ 9) (fits : n < 10 ^ w) :
    fraction? ('.' :: (padded w n ++ ['Z'])) = some (n * tenTo (9 - w), ['Z']) := by
  have length := length_padded wide fits
  have digits : (padded w n ++ ['Z']).takeWhile Number.isDigit = padded w n := by
    apply takeWhile_digits (padded_digits w n)
    simp
    decide
  have filled : padded w n ≠ [] := by
    intro none
    rw [none] at length
    simp at length
    omega
  unfold fraction?
  simp only [digits]
  rw [if_neg (by simpa using filled), List.take_of_length_le (by omega), length,
    List.drop_left' length]
  change some (Decimal.natOf (padded w n) * _, _) = _
  rw [natOf_padded]

theorem read?_textWith {t : Timestamp} (shown : t.Shown) {w : Nat} (wide : 0 < w) (most : w ≤ 9)
    (exactly : t.nanos % tenTo 9 % tenTo (9 - w) = 0) : read? (t.textWith w) = some t := by
  unfold read? textWith
  rw [String.toList_ofList]
  apply readChars?_wholeText shown
  rw [if_neg (by omega), List.cons_append, fraction?_digits wide most, Nat.div_mul_cancel]
  · exact Nat.dvd_of_mod_eq_zero exactly
  · have split : tenTo 9 = 10 ^ w * tenTo (9 - w) := (pow_mul_pow_sub 10 most).symm
    have below : t.nanos % tenTo 9 < 10 ^ w * tenTo (9 - w) := by
      rw [← split]
      exact Nat.mod_lt _ (by decide)
    exact Nat.div_lt_of_lt_mul (by rwa [Nat.mul_comm])

theorem read?_text {t : Timestamp} (shown : t.Shown) : read? t.text = some t := by
  unfold text
  dsimp only
  split
  · rename_i whole
    unfold read? textWith
    rw [String.toList_ofList]
    apply readChars?_wholeText shown
    rw [whole]
    rfl
  · split
    · rename_i thousands
      exact read?_textWith shown (by decide) (by decide) thousands
    · split
      · rename_i units
        exact read?_textWith shown (by decide) (by decide) units
      · exact read?_textWith shown (by decide) (by decide) (Nat.mod_one _)

/-! ### What can be read can be told -/

theorem hours?_minutes {cs rest : List Char} {seconds : Int}
    (read : offset?.hours? cs = some (seconds, rest)) : seconds % 60 = 0 := by
  unfold offset?.hours? at read
  split at read
  · split at read
    · split at read
      · simp only [Option.some.injEq, Prod.mk.injEq] at read
        omega
      · cases read
    · cases read
  · cases read

theorem signed?_minutes {cs rest : List Char} {seconds : Int}
    (read : offset?.signed? cs = some (seconds, rest)) : seconds % 60 = 0 := by
  unfold offset?.signed? at read
  split at read
  · cases read
  · split at read
    · simp only [Option.some.injEq, Prod.mk.injEq] at read
      omega
    · split at read
      · simp only [Option.map_eq_some_iff, Prod.mk.injEq] at read
        obtain ⟨⟨s, after⟩, hours, rfl, rfl⟩ := read
        exact hours?_minutes hours
      · split at read
        · simp only [Option.map_eq_some_iff, Prod.mk.injEq] at read
          obtain ⟨⟨s, after⟩, hours, rfl, rfl⟩ := read
          have whole := hours?_minutes hours
          omega
        · cases read

/-- Offsets are whole minutes, so that they leave the second of the minute alone. -/
theorem offset?_minutes {cs rest : List Char} {seconds : Int}
    (read : offset? cs = some (seconds, rest)) : seconds % 60 = 0 := by
  unfold offset? at read
  dsimp only at read
  split at read
  · split at read
    · simp only [Option.some.injEq, Prod.mk.injEq] at read
      omega
    · exact signed?_minutes read
  · exact signed?_minutes read

theorem fraction?_lt {cs rest : List Char} {nanos : Nat}
    (read : fraction? cs = some (nanos, rest)) : nanos < tenTo 9 := by
  unfold fraction? at read
  split at read
  · rename_i digits
    dsimp only at read
    split at read
    · cases read
    · obtain ⟨rfl, _⟩ := Prod.mk.inj (Option.some.inj read)
      generalize kept : (digits.takeWhile Number.isDigit).take 9 = cs
      have short : cs.length ≤ 9 := by
        rw [← kept]
        exact List.length_take_le _ _
      have small : Decimal.natOf cs < 10 ^ cs.length := by
        apply Decimal.natOf_lt
        intro c member
        rw [← kept] at member
        exact List.mem_takeWhile_imp (List.mem_of_mem_take member)
      calc Decimal.natOf cs * tenTo (9 - cs.length)
          < 10 ^ cs.length * 10 ^ (9 - cs.length) :=
            Nat.mul_lt_mul_of_pos_right small (Nat.pow_pos (by decide))
        _ = 10 ^ 9 := pow_mul_pow_sub 10 short
  · obtain ⟨rfl, _⟩ := Prod.mk.inj (Option.some.inj read)
    decide

theorem ofParts?_shown {year offset : Int} {month day hour minute second nanos : Nat}
    {t : Timestamp} (small : nanos < tenTo 9) (minutes : offset % 60 = 0)
    (told : ofParts? year month day hour minute second nanos offset = some t) : t.Shown := by
  unfold ofParts? at told
  split at told
  · cases told
  · split at told
    · cases told
    · split at told
      · cases told
      · rename_i clock _
        dsimp only at told
        rw [Option.ite_none_right_eq_some] at told
        obtain ⟨inYears, same⟩ := told
        obtain rfl := Option.some.inj same
        constructor
        · simpa [isTold] using inYears
        · dsimp only
          split
          · exact .inr ⟨by omega, by omega⟩
          · exact .inl (by omega)

theorem read?_shown {s : String} {t : Timestamp} (read : read? s = some t) : t.Shown := by
  obtain ⟨⟨year, _⟩, _, read⟩ := Option.bind_eq_some_iff.mp read
  obtain ⟨_, _, read⟩ := Option.bind_eq_some_iff.mp read
  obtain ⟨⟨month, _⟩, _, read⟩ := Option.bind_eq_some_iff.mp read
  obtain ⟨_, _, read⟩ := Option.bind_eq_some_iff.mp read
  obtain ⟨⟨day, _⟩, _, read⟩ := Option.bind_eq_some_iff.mp read
  obtain ⟨_, _, read⟩ := Option.bind_eq_some_iff.mp read
  obtain ⟨⟨hour, _⟩, _, read⟩ := Option.bind_eq_some_iff.mp read
  obtain ⟨_, _, read⟩ := Option.bind_eq_some_iff.mp read
  obtain ⟨⟨minute, _⟩, _, read⟩ := Option.bind_eq_some_iff.mp read
  obtain ⟨_, _, read⟩ := Option.bind_eq_some_iff.mp read
  obtain ⟨⟨second, _⟩, _, read⟩ := Option.bind_eq_some_iff.mp read
  obtain ⟨⟨nanos, _⟩, fraction, read⟩ := Option.bind_eq_some_iff.mp read
  obtain ⟨⟨offset, _⟩, east, told⟩ := Option.bind_eq_some_iff.mp read
  rw [Option.ite_none_right_eq_some] at told
  exact ofParts?_shown (fraction?_lt fraction) (offset?_minutes east) told.2

end Orchestration.Timestamp
