import Mathlib.Tactic.SplitIfs
import Workflow.Time.Calendar

/-!
Days and dates. Every number of days is that of an existing date, whose days it is: a day is split
into its era of 400 years, its century, its group of four years, its year and its day in the year,
where a year begins with March and so has its leap day at its end.
-/
namespace Workflow.Time.Date

/-- A day of an era of 400 years: its century, its group of four years, its year in that group and
its day in that year. Only the last year of a group has a day more, and the last year of a century
only if it is the last one of the era. -/
structure DayOfEra where
  century : Nat
  group : Nat
  year : Nat
  day : Nat
  century_lt : century < 4
  group_lt : group < 25
  year_lt : year < 4
  day_le : day ≤ 365
  leap : day = 365 → year = 3 ∧ (group = 24 → century = 3)

namespace DayOfEra

variable (d : DayOfEra)

def number : Nat := 36524 * d.century + 1461 * d.group + 365 * d.year + d.day

def years : Nat := 100 * d.century + 4 * d.group + d.year

theorem daysOfYears_years :
    365 * d.years + d.years / 4 - d.years / 100 =
      36524 * d.century + 1461 * d.group + 365 * d.year := by
  have := d.group_lt
  have := d.year_lt
  rw [years]
  omega

/-- Of the days that do not count for a year of 365 days, those of the last days of centuries. -/
theorem number_div_century : d.number / 36524 - d.number / 146096 = d.century := by
  obtain ⟨c, q, s, r, hc, hq, hs, hr, hleap⟩ := d
  simp only [number]
  rcases Nat.lt_or_ge r 365 with hlt | hge
  · have : (36524 * c + 1461 * q + 365 * s + r) / 36524 = c := by omega
    omega
  · obtain ⟨rfl, hlast⟩ := hleap (by omega)
    rcases Nat.lt_or_ge q 24 with hlt | hge
    · have : (36524 * c + 1461 * q + 365 * 3 + r) / 36524 = c := by omega
      omega
    · have := hlast (by omega)
      omega

/-- The year of a day is found by division, once the days that do not count are taken off. -/
theorem yearOfEra_number :
    (d.number - d.number / 1460 + d.number / 36524 - d.number / 146096) / 365 = d.years := by
  have hcentury := d.number_div_century
  obtain ⟨c, q, s, r, hc, hq, hs, hr, hleap⟩ := d
  simp only [number, years] at hcentury ⊢
  generalize hday : 36524 * c + 1461 * q + 365 * s + r = day at hcentury ⊢
  obtain ⟨extra, hextra, hle, hge⟩ : ∃ extra, day / 1460 = 25 * c + q + extra ∧ extra ≤ r ∧
      r ≤ 364 + extra := by
    have hsplit : day = 24 * c + q + 365 * s + r + 1460 * (25 * c + q) := by omega
    refine ⟨(24 * c + q + 365 * s + r) / 1460, ?_, by omega, by omega⟩
    rw [hsplit, Nat.add_mul_div_left _ _ (by decide), Nat.add_comm]
  have hsum : day - day / 1460 + day / 36524 - day / 146096 =
      365 * (100 * c + 4 * q + s) + (r - extra) := by omega
  rw [hsum]
  omega

end DayOfEra

theorem exists_dayOfEra (n : Int) : ∃ (era : Int) (d : DayOfEra), n = 146097 * era + d.number := by
  generalize hday : (n % 146097).toNat = day
  generalize hcentury : min (day / 36524) 3 = century
  generalize hrest : (day - 36524 * century) % 1461 = rest
  let d : DayOfEra :=
    { century
      group := (day - 36524 * century) / 1461
      year := min (rest / 365) 3
      day := rest - 365 * min (rest / 365) 3
      century_lt := by omega
      group_lt := by omega
      year_lt := by omega
      day_le := by omega
      leap := by omega }
  refine ⟨n / 146097, d, ?_⟩
  simp only [d, DayOfEra.number]
  omega

/-! ## Months -/

def monthOf (day : Nat) : Nat :=
  if (5 * day + 2) / 153 < 10 then (5 * day + 2) / 153 + 3 else (5 * day + 2) / 153 - 9

/-- The day in its month of a day of a year that begins with March. -/
def dayOf (day : Nat) : Nat := day - (153 * ((5 * day + 2) / 153) + 2) / 5 + 1

theorem dayOfYear_monthOf {day : Nat} (h : day ≤ 365) :
    dayOfYear (monthOf day) (dayOf day) = day := by
  revert day
  decide +kernel

theorem monthOf_bounds {day : Nat} (h : day ≤ 365) : 1 ≤ monthOf day ∧ monthOf day ≤ 12 := by
  rw [monthOf]
  split <;> omega

/-- Without the leap day, the days of a month are those that it always has. -/
theorem dayOf_le {day : Nat} (h : day < 365) :
    dayOf day ≤ if monthOf day = 2 then 28 else if monthOf day ∈ [4, 6, 9, 11] then 30 else 31 := by
  revert day
  decide +kernel

/-! ## Dates -/

theorem bounds_of_isValid {d : Date} (h : d.isValid) :
    (1 ≤ d.month ∧ d.month ≤ 12) ∧ 1 ≤ d.day ∧ d.day ≤ 31 := by
  simp only [isValid, Bool.and_eq_true, decide_eq_true_iff] at h
  obtain ⟨⟨hmonth, hfirst⟩, hlast⟩ := h
  refine ⟨hmonth, hfirst, Nat.le_trans hlast ?_⟩
  rw [daysInMonth]
  split_ifs <;> decide

/-- The date of a day by its parts. -/
theorem ofDays_eq {n era : Int} {d : DayOfEra} (h : n + epoch = 146097 * era + d.number) :
    ofDays n = ⟨if monthOf d.day ≤ 2 then era * 400 + d.years + 1 else era * 400 + d.years,
      monthOf d.day, dayOf d.day⟩ := by
  have hlt : d.number < 146097 := by
    obtain ⟨c, q, s, r, hc, hq, hs, hr, hleap⟩ := d
    simp only [DayOfEra.number]
    omega
  have hera : (n + epoch) / 146097 = era := by omega
  have hday : ((n + epoch) % 146097).toNat = d.number := by omega
  have hinYear : d.number - (365 * d.years + d.years / 4 - d.years / 100) = d.day := by
    rw [d.daysOfYears_years, DayOfEra.number, Nat.add_sub_cancel_left]
  simp only [ofDays, hera, hday, d.yearOfEra_number, hinYear]
  rfl

/-- January and February belong to the year that began with March of the year before. -/
theorem toDays_eq (year : Int) (month day : Nat) :
    toDays ⟨if month ≤ 2 then year + 1 else year, month, day⟩ =
      daysBeforeYear year + dayOfYear month day - epoch := by
  simp only [toDays]
  split
  · rw [Int.add_sub_cancel]
  · rfl

/-- The days to the date of a number of days are that number. -/
theorem toDays_ofDays (n : Int) : (ofDays n).toDays = n := by
  obtain ⟨era, d, hn⟩ := exists_dayOfEra (n + epoch)
  have hyears := d.daysOfYears_years
  have hlt : d.years < 400 := by
    obtain ⟨c, q, s, r, hc, hq, hs, hr, hleap⟩ := d
    simp only [DayOfEra.years]
    omega
  have hgroups : (era * 400 + d.years) / 4 = era * 100 + (d.years / 4 : Nat) := by omega
  have hcenturies : (era * 400 + d.years) / 100 = era * 4 + (d.years / 100 : Nat) := by omega
  have heras : (era * 400 + d.years) / 400 = era := by omega
  rw [ofDays_eq hn, toDays_eq, dayOfYear_monthOf d.day_le, daysBeforeYear, hgroups, hcenturies,
    heras]
  rw [DayOfEra.number] at hn
  omega

theorem isValid_ofDays (n : Int) : (ofDays n).isValid := by
  obtain ⟨era, d, hn⟩ := exists_dayOfEra (n + epoch)
  rw [ofDays_eq hn]
  obtain ⟨hlow, hhigh⟩ := monthOf_bounds d.day_le
  have hfirst : 1 ≤ dayOf d.day := Nat.le_add_left 1 _
  rw [isValid, decide_eq_true hlow, decide_eq_true hhigh, decide_eq_true hfirst]
  simp only [Bool.true_and, decide_eq_true_iff, daysInMonth]
  rcases Nat.lt_or_ge d.day 365 with hlt | hge
  · have hle := dayOf_le hlt
    split_ifs at hle ⊢ <;> omega
  · -- The last day of such a year is there only in leap years.
    have hlast : d.day = 365 := Nat.le_antisymm d.day_le hge
    obtain ⟨hyear, hcentury⟩ := d.leap hlast
    have := d.group_lt
    have := d.century_lt
    have hleap : isLeapYear (era * 400 + d.years + 1) := by
      rw [DayOfEra.years]
      simp only [isLeapYear, Bool.and_eq_true, Bool.or_eq_true, decide_eq_true_iff]
      omega
    rw [hlast, if_pos (show monthOf 365 = 2 by decide), if_pos (show monthOf 365 ≤ 2 by decide),
      if_pos hleap]
    decide

end Workflow.Time.Date
