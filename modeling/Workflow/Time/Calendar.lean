/-!
The calendar: days counted from the first of January 1970, and dates of the Gregorian calendar,
which also counts the years before it was made.
-/
namespace Workflow.Time

structure Date where
  year : Int
  month : Nat
  day : Nat
  deriving Repr, DecidableEq

namespace Date

def isLeapYear (year : Int) : Bool :=
  year % 4 = 0 && (year % 100 ≠ 0 || year % 400 = 0)

def daysInMonth (year : Int) (month : Nat) : Nat :=
  if month = 2 then (if isLeapYear year then 29 else 28)
  else if month ∈ [4, 6, 9, 11] then 30
  else 31

def isValid (d : Date) : Bool :=
  1 ≤ d.month && d.month ≤ 12 && 1 ≤ d.day && d.day ≤ daysInMonth d.year d.month

/-- The days from the first of March of the year zero to that of a year. -/
def daysBeforeYear (year : Int) : Int :=
  365 * year + year / 4 - year / 100 + year / 400

/-- The days from the first of March to a day of a year that begins with March. -/
def dayOfYear (month day : Nat) : Nat :=
  (153 * ((month + 9) % 12) + 2) / 5 + (day - 1)

/-- The days from the first of March of the year zero to the first of January 1970. -/
def epoch : Int := 719468

def toDays (d : Date) : Int :=
  let year := if d.month ≤ 2 then d.year - 1 else d.year
  daysBeforeYear year + dayOfYear d.month d.day - epoch

def ofDays (days : Int) : Date :=
  let n := days + epoch
  let era := n / 146097
  let dayOfEra := (n % 146097).toNat
  let yearOfEra := (dayOfEra - dayOfEra / 1460 + dayOfEra / 36524 - dayOfEra / 146096) / 365
  let dayOfYear := dayOfEra - (365 * yearOfEra + yearOfEra / 4 - yearOfEra / 100)
  let shifted := (5 * dayOfYear + 2) / 153
  let day := dayOfYear - (153 * shifted + 2) / 5 + 1
  let month := if shifted < 10 then shifted + 3 else shifted - 9
  let year := era * 400 + yearOfEra
  ⟨if month ≤ 2 then year + 1 else year, month, day⟩

example : ofDays 0 = ⟨1970, 1, 1⟩ := by decide

example : ofDays (toDays ⟨2024, 2, 29⟩) = ⟨2024, 2, 29⟩ := by decide

example : ofDays (toDays ⟨99, 12, 31⟩) = ⟨99, 12, 31⟩ := by decide

end Date

/-- A number in at least so many digits. -/
def padded (width n : Nat) : String :=
  let digits := Nat.toDigits 10 n
  String.ofList (List.replicate (width - digits.length) '0' ++ digits)

/-- A year in four digits; one that has more, or is negative, has a sign. -/
def yearText (year : Int) : String :=
  if 0 ≤ year ∧ year ≤ 9999 then padded 4 year.toNat
  else (if year < 0 then "-" else "+") ++ padded 4 year.natAbs

end Workflow.Time
