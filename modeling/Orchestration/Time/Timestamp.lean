import Orchestration.Json
import Orchestration.Text.Blank
import Orchestration.Number.Reading
import Orchestration.Number.Power
import Orchestration.Time.Calendar

/-! Instants of universal time at nanosecond precision, and their RFC 3339 texts. Texts
are written in UTC with as few of 0, 3, 6 or 9 fraction digits as are exact. Readers accept
any offset, blanks around the parts of a date and time, and one blank in place of `T`. -/
namespace Orchestration

/-- Seconds since 1970 and nanoseconds within the second. A leap second shows as
nanoseconds of a billion and more. -/
structure Timestamp where
  seconds : Int
  nanos : Nat
  deriving DecidableEq, Inhabited

namespace Timestamp

def lt (a b : Timestamp) : Bool :=
  a.seconds < b.seconds || (a.seconds == b.seconds && a.nanos < b.nanos)

def le (a b : Timestamp) : Bool :=
  a.seconds < b.seconds || (a.seconds == b.seconds && a.nanos ≤ b.nanos)

theorem lt_iff (s t : Timestamp) : s.lt t = true ↔
    s.seconds < t.seconds ∨ s.seconds = t.seconds ∧ s.nanos < t.nanos := by
  simp [lt]

theorem le_eq_not_lt (s t : Timestamp) : s.le t = !t.lt s := by
  rw [Bool.eq_iff_iff]
  simp only [le, lt, Bool.or_eq_true, Bool.and_eq_true, decide_eq_true_eq, beq_iff_eq,
    Bool.not_eq_true', Bool.or_eq_false_iff, Bool.and_eq_false_iff, decide_eq_false_iff_not,
    beq_eq_false_iff_ne]
  omega

def addNanos (t : Timestamp) (n : Nat) : Timestamp :=
  let total := t.nanos + n
  ⟨t.seconds + (total / tenTo 9 : Nat), total % tenTo 9⟩

/-- A number in at least `width` digits. -/
def padded (width n : Nat) : List Char :=
  let digits := Nat.toDigits 10 n
  List.replicate (width - digits.length) '0' ++ digits

/-- Years within four digits are written plainly, others with a sign. -/
def yearText (year : Int) : List Char :=
  if 0 ≤ year ∧ year ≤ 9999 then padded 4 year.toNat
  else (if year < 0 then '-' else '+') :: padded 4 year.natAbs

def wholeText (t : Timestamp) : List Char :=
  let (year, month, day) := Calendar.dateOfDays (t.seconds / 86400)
  let second := (t.seconds % 86400).toNat
  let leap := t.nanos / tenTo 9
  yearText year ++ '-' :: padded 2 month ++ '-' :: padded 2 day ++
    'T' :: padded 2 (second / 3600) ++ ':' :: padded 2 (second / 60 % 60) ++
    ':' :: padded 2 (second % 60 + leap)

/-- The text with exactly `digits` fraction digits, further ones cut off. -/
def textWith (digits : Nat) (t : Timestamp) : String :=
  let fraction := t.nanos % tenTo 9
  let tail := if digits = 0 then [] else '.' :: padded digits (fraction / tenTo (9 - digits))
  String.ofList (t.wholeText ++ tail ++ ['Z'])

def text (t : Timestamp) : String :=
  let fraction := t.nanos % tenTo 9
  if fraction = 0 then t.textWith 0
  else if fraction % tenTo 6 = 0 then t.textWith 3
  else if fraction % tenTo 3 = 0 then t.textWith 6
  else t.textWith 9

def toJson (t : Timestamp) : Json := .str t.text

/-- A number of at most `width` digits after blanks, and what follows it. -/
def number? (width : Nat) (cs : List Char) : Option (Nat × List Char) :=
  let cs := Text.trimStartChars cs
  let digits := (cs.take width).takeWhile Number.isDigit
  if digits.isEmpty then none
  else some (digits.foldl (fun n c => n * 10 + Number.digitValue c) 0, cs.drop digits.length)

/-- A year: four digits, or any number of them after a sign. -/
def year? (cs : List Char) : Option (Int × List Char) :=
  let cs := Text.trimStartChars cs
  match cs with
  | '-' :: rest => (number? rest.length rest).bind fun (n, after) =>
    if (rest.head?.map Number.isDigit).getD false then some (-(n : Int), after) else none
  | '+' :: rest => (number? rest.length rest).bind fun (n, after) =>
    if (rest.head?.map Number.isDigit).getD false then some ((n : Int), after) else none
  | _ => (number? 4 cs).map fun (n, after) => ((n : Int), after)

/-- What follows a mark that may stand after blanks. -/
def mark? (m : Char) (cs : List Char) : Option (List Char) :=
  match Text.trimStartChars cs with
  | c :: rest => if c = m then some rest else none
  | [] => none

/-- The nanoseconds of a fraction; its digits beyond the ninth are dropped. -/
def fraction? (cs : List Char) : Option (Nat × List Char) :=
  match cs with
  | '.' :: rest =>
    let digits := rest.takeWhile Number.isDigit
    if digits.isEmpty then none
    else
      let kept := digits.take 9
      let value := kept.foldl (fun n c => n * 10 + Number.digitValue c) 0
      some (value * tenTo (9 - kept.length), rest.drop digits.length)
  | _ => some (0, cs)

/-- The seconds east of Greenwich that an offset names, and what follows it. -/
def offset? (cs : List Char) : Option (Int × List Char) :=
  let cs := Text.trimStartChars cs
  match cs with
  | a :: b :: c :: rest =>
    if a.toLower = 'u' ∧ b.toLower = 't' ∧ c.toLower = 'c' then some (0, rest) else signed? cs
  | _ => signed? cs
where
  signed? (cs : List Char) : Option (Int × List Char) :=
    match cs with
    | [] => none
    | c :: rest =>
      if c = 'Z' ∨ c = 'z' then some (0, rest)
      else if c = '+' then (hours? rest).map fun (s, after) => (s, after)
      else if c = '-' ∨ c = '\u2212' then (hours? rest).map fun (s, after) => (-s, after)
      else none
  hours? (cs : List Char) : Option (Int × List Char) :=
    match cs with
    | a :: b :: rest =>
      match rest.dropWhile (fun x => x = ':' ∨ Text.isBlank x) with
      | c :: d :: after =>
        if [a, b, c, d].all Number.isDigit ∧ Number.digitValue c < 6 then
          let h := Number.digitValue a * 10 + Number.digitValue b
          let m := Number.digitValue c * 10 + Number.digitValue d
          some (((h * 3600 + m * 60 : Nat) : Int), after)
        else none
      | _ => none
    | _ => none

/-- The first and the last year that can be told. -/
def years : Int × Int := (-262143, 262142)

def earliest : Int := Calendar.daysOfDate years.1 1 1 * 86400

/-- The instant so many seconds and nanoseconds back, if there is a time so far back. -/
def back? (t : Timestamp) (seconds nanos : Nat) : Option Timestamp :=
  let total : Int := (t.seconds - seconds) * tenTo 9 + (t.nanos - nanos)
  let before : Timestamp := ⟨total / tenTo 9, (total % tenTo 9).toNat⟩
  if before.seconds < earliest then none else some before

def isTold (t : Timestamp) : Bool :=
  let (year, _) := Calendar.dateOfDays (t.seconds / 86400)
  years.1 ≤ year && year ≤ years.2

/-- The instant of a date and time of day at so many seconds east of Greenwich. -/
def ofParts? (year : Int) (month day hour minute second nanos : Nat) (offset : Int) :
    Option Timestamp :=
  if month < 1 ∨ 12 < month ∨ day < 1 ∨ Calendar.daysInMonth year month < day then none
  else if 23 < hour ∨ 59 < minute ∨ 60 < second then none
  else if 86400 ≤ offset.natAbs ∨ year < years.1 ∨ years.2 < year then none
  else
    let leap := if second = 60 then 1 else 0
    let inDay : Int := (hour * 3600 + minute * 60 + (second - leap) : Nat)
    let seconds := Calendar.daysOfDate year month day * 86400 + inDay - offset
    -- an offset may lead out of the years that the date itself lies in
    let t : Timestamp := ⟨seconds, nanos + leap * tenTo 9⟩
    if t.isTold then some t else none

/-- What follows the mark between a date and a time of day. -/
def timeMark? : List Char → Option (List Char)
  | c :: rest => if c = 'T' ∨ c = 't' ∨ c = ' ' then some rest else none
  | [] => none

def readChars? (cs : List Char) : Option Timestamp := do
  let (year, cs) ← year? cs
  let (month, cs) ← number? 2 (← mark? '-' cs)
  let (day, cs) ← number? 2 (← mark? '-' cs)
  let (hour, cs) ← number? 2 (← timeMark? cs)
  let (minute, cs) ← number? 2 (← mark? ':' cs)
  let (second, cs) ← number? 2 (← mark? ':' cs)
  let (nanos, cs) ← fraction? cs
  let (offset, cs) ← offset? cs
  if (Text.trimStartChars cs).isEmpty then
    ofParts? year month day hour minute second nanos offset
  else none

def read? (s : String) : Option Timestamp := readChars? s.toList

def ofJson? (j : Json) : Option Timestamp := j.string?.bind read?

end Timestamp
end Orchestration
