import Recurrence.Calendar.Weekday

/-!
# Periods

A frequency cuts the calendar into periods: years, months, weeks from Monday to Sunday, or days.

* `Frequency.periodStart`, `Frequency.shift`, `Frequency.periodsBetween`: the first day of a
  period, the start of the period so many periods later, and the number of periods between two
  starts.
* `Frequency.lt_of_shift`: a shift by a positive number of periods leads to a later date.
-/

namespace Recurrence

inductive Frequency where
  | yearly
  | monthly
  | weekly
  | daily
deriving DecidableEq

namespace Frequency

/-- All frequencies, from the longest period to the shortest. -/
def all : List Frequency := [yearly, monthly, weekly, daily]

/-- The name of a frequency in rule text. -/
def name : Frequency → String
  | yearly => "YEARLY"
  | monthly => "MONTHLY"
  | weekly => "WEEKLY"
  | daily => "DAILY"

/-- The frequency with a name. -/
def ofName? (name : List Char) : Option Frequency :=
  all.find? fun f => f.name.toList == name

/-- The first day of the period that holds a date. -/
def periodStart (freq : Frequency) (d : Date) : Date :=
  match freq with
  | yearly => d.yearStart
  | monthly => d.monthStart
  | weekly => d.weekStart
  | daily => d

/-- The date a number of periods later. -/
def shift (freq : Frequency) (d : Date) (periods : Int) : Except CalendarFault Date :=
  match freq with
  | yearly => d.shiftYears periods
  | monthly => d.shiftMonths periods
  | weekly => d.addDays (7 * periods)
  | daily => d.addDays periods

/-- The number of whole periods from the period start `first` to the period start `second`. -/
def periodsBetween (freq : Frequency) (first second : Date) : Int :=
  match freq with
  | yearly => (second.year : Int) - first.year
  | monthly => second.monthNumber - first.monthNumber
  | weekly => ((second.dayNumber : Int) - first.dayNumber) / 7
  | daily => (second.dayNumber : Int) - first.dayNumber

end Frequency

/-! ## Shifts lead forward -/

namespace Date

/-- Dates are ordered by their months first. -/
theorem lt_of_monthNumber_lt {a b : Date} (h : a.monthNumber < b.monthNumber) : a < b := by
  have va := a.valid.2.1
  have vb := b.valid.2.1
  simp only [monthNumber] at h
  rw [lt_iff]
  by_cases hy : a.year < b.year
  -- An earlier year ends before the later one begins
  · have := a.dayNumber_bounds.2
    have := b.dayNumber_bounds.1
    have := daysBeforeYear_mono (show a.year + 1 ≤ b.year from hy)
    omega
  -- In the same year the earlier month ends before the later one begins
  · have hyear : a.year = b.year := by omega
    have hmonth : a.month + 1 ≤ b.month := by omega
    have := a.yearDay_bounds.2
    have hb := b.yearDay_bounds.1
    rw [← hyear] at hb
    have := daysBeforeMonth_mono (isLeapYear a.year) hmonth
    rw [dayNumber_eq, dayNumber_eq, hyear]
    omega

/-- A date moved by months lies as many months on, whatever becomes of its day. -/
theorem monthNumber_of_shiftMonths {d e : Date} {months : Int}
    (h : d.shiftMonths months = .ok e) : e.monthNumber = d.monthNumber + months := by
  unfold shiftMonths at h
  simp only at h
  split at h
  · injection h with h
    subst h
    show (12 * ((d.monthNumber + months) / 12).toNat : Int) +
      ((((d.monthNumber + months) % 12).toNat + 1 : Nat) - 1 : Int) = d.monthNumber + months
    generalize d.monthNumber + months = number at *
    omega
  · injection h

end Date

namespace Frequency

/-- A positive number of periods leads to a later date. -/
theorem lt_of_shift {freq : Frequency} {d e : Date} {periods : Int} (pos : 0 < periods)
    (h : freq.shift d periods = .ok e) : d < e := by
  -- Years and months are counted in months, weeks and days in days
  cases freq with
  | yearly =>
    have := Date.monthNumber_of_shiftMonths (show d.shiftMonths (12 * periods) = .ok e from h)
    exact Date.lt_of_monthNumber_lt (by omega)
  | monthly =>
    have := Date.monthNumber_of_shiftMonths (show d.shiftMonths periods = .ok e from h)
    exact Date.lt_of_monthNumber_lt (by omega)
  | weekly =>
    have := Date.addDays_eq_ok.1 (show d.addDays (7 * periods) = .ok e from h)
    rw [Date.lt_iff]
    omega
  | daily =>
    have := Date.addDays_eq_ok.1 (show d.addDays periods = .ok e from h)
    rw [Date.lt_iff]
    omega

end Frequency

end Recurrence
