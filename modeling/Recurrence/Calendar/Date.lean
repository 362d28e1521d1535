import Recurrence.Calendar.Year

/-!
# Dates

Dates of the years 1 to 9999 and their day numbers, counted from 0001-01-01.

* `Date.dayNumber_ofDayNumber`, `Date.ofDayNumber_dayNumber`: dates and day numbers below
  `Date.total` correspond one to one.
* `Date.addDays`, `Date.shiftMonths`: arithmetic that says how it left the calendar.
-/

namespace Recurrence

/-- A date of the proleptic Gregorian calendar between 0001-01-01 and 9999-12-31. -/
structure Date where
  year : Nat
  month : Nat
  day : Nat
  valid : (1 ≤ year ∧ year ≤ 9999) ∧ (1 ≤ month ∧ month ≤ 12) ∧
    (1 ≤ day ∧ day ≤ monthLength (isLeapYear year) month)
deriving DecidableEq

/-- How a calculation on dates can leave the calendar. -/
inductive CalendarFault where
  /-- The days or microseconds of the result lie outside the calendar. -/
  | overflow
  /-- The result falls into a year that the calendar does not have. -/
  | noSuchYear (year : Int)
deriving DecidableEq

namespace Date

/-- The date with these parts, if there is one. -/
def of? (year month day : Nat) : Option Date :=
  if h : (1 ≤ year ∧ year ≤ 9999) ∧ (1 ≤ month ∧ month ≤ 12) ∧
      (1 ≤ day ∧ day ≤ monthLength (isLeapYear year) month) then
    some ⟨year, month, day, h⟩
  else none

/-- Number of days of the calendar. -/
def total : Nat := 3652059

/-- Days from 0001-01-01 to a date. -/
def dayNumber (d : Date) : Nat :=
  daysBeforeYear d.year + daysBeforeMonth (isLeapYear d.year) d.month + (d.day - 1)

/-- Number of days of the month that holds a date. -/
def lastDay (d : Date) : Nat := monthLength (isLeapYear d.year) d.month

/-- The day of the year, counted from zero. -/
def yearDay (d : Date) : Nat := daysBeforeMonth (isLeapYear d.year) d.month + (d.day - 1)

/-- The number of a day counts the days of the years before its own, and its place in that. -/
theorem dayNumber_eq (d : Date) : d.dayNumber = daysBeforeYear d.year + d.yearDay := by
  simp only [dayNumber, yearDay, Nat.add_assoc]

/-- A day lies between the starts of its month and of the next one. -/
theorem yearDay_bounds (d : Date) :
    daysBeforeMonth (isLeapYear d.year) d.month ≤ d.yearDay ∧
      d.yearDay < daysBeforeMonth (isLeapYear d.year) (d.month + 1) := by
  obtain ⟨-, ⟨hm, -⟩, hd, hd'⟩ := d.valid
  rw [daysBeforeMonth_succ _ hm]
  unfold yearDay
  omega

/-- The place of a day in its year is below the length of the year. -/
theorem yearDay_lt (d : Date) : d.yearDay < yearLength (isLeapYear d.year) := by
  obtain ⟨-, ⟨-, hm⟩, -⟩ := d.valid
  have := daysBeforeMonth_mono (isLeapYear d.year) (show d.month + 1 ≤ 13 by omega)
  rw [daysBeforeMonth_thirteen] at this
  have := d.yearDay_bounds
  omega

/-- A day lies between the starts of its year and of the next one. -/
theorem dayNumber_bounds (d : Date) :
    daysBeforeYear d.year ≤ d.dayNumber ∧ d.dayNumber < daysBeforeYear (d.year + 1) := by
  rw [dayNumber_eq, daysBeforeYear_succ _ d.valid.1.1]
  have := d.yearDay_lt
  omega

/-- No date is beyond the last one of the calendar. -/
theorem dayNumber_lt (d : Date) : d.dayNumber < total := by
  have h := d.dayNumber_bounds.2
  have := daysBeforeYear_mono (show d.year + 1 ≤ 10000 by have := d.valid.1.2; omega)
  have e : daysBeforeYear 10000 = total := rfl
  omega

/-! ## Dates from day numbers -/

/-- The date with a day number. -/
def ofDayNumber (n : Nat) (h : n < total) : Date where
  year := yearOf n
  month := monthOf (isLeapYear (yearOf n)) (n - daysBeforeYear (yearOf n))
  day :=
    let leap := isLeapYear (yearOf n)
    let rest := n - daysBeforeYear (yearOf n)
    rest - daysBeforeMonth leap (monthOf leap rest) + 1
  valid := by
    obtain ⟨pos, lo, hi⟩ := yearOf_bounds n
    -- Year 10000 would begin with the day that `total` counts
    have le : yearOf n ≤ 9999 := by
      refine Nat.le_of_not_lt fun lt => ?_
      have := daysBeforeYear_mono (show 10000 ≤ yearOf n from lt)
      have e : daysBeforeYear 10000 = total := rfl
      omega
    rw [daysBeforeYear_succ _ pos] at hi
    -- The rest of the days lies inside the year, so it belongs to a month
    have hr : n - daysBeforeYear (yearOf n) < yearLength (isLeapYear (yearOf n)) := by omega
    obtain ⟨m1, m2, m3, m4⟩ := monthOf_bounds _ hr
    rw [daysBeforeMonth_succ _ m1] at m4
    refine ⟨⟨pos, le⟩, ⟨m1, m2⟩, ?_, ?_⟩ <;> simp only <;> omega

/-- The date of a day number has that number. -/
theorem dayNumber_ofDayNumber (n : Nat) (h : n < total) : (ofDayNumber n h).dayNumber = n := by
  obtain ⟨pos, lo, hi⟩ := yearOf_bounds n
  rw [daysBeforeYear_succ _ pos] at hi
  have hr : n - daysBeforeYear (yearOf n) < yearLength (isLeapYear (yearOf n)) := by omega
  have m3 := (monthOf_bounds _ hr).2.2.1
  simp only [dayNumber, ofDayNumber]
  omega

/-- A date is the one of its own day number. -/
theorem ofDayNumber_dayNumber (d : Date) : ofDayNumber d.dayNumber d.dayNumber_lt = d := by
  have hy : yearOf d.dayNumber = d.year := yearOf_eq d.dayNumber_bounds.1 d.dayNumber_bounds.2
  have hr : d.dayNumber - daysBeforeYear d.year = d.yearDay := by
    rw [dayNumber_eq]; omega
  have hm : monthOf (isLeapYear d.year) d.yearDay = d.month :=
    monthOf_eq _ d.valid.2.1.1 d.valid.2.1.2 d.yearDay_bounds.1 d.yearDay_bounds.2
  have hd : d.yearDay - daysBeforeMonth (isLeapYear d.year) d.month + 1 = d.day := by
    have := d.valid.2.2.1
    unfold yearDay
    omega
  cases d
  simp_all [ofDayNumber]

/-- Dates with one day number are equal, for their parts can be worked out from it. -/
theorem dayNumber_inj {a b : Date} (h : a.dayNumber = b.dayNumber) : a = b := by
  rw [← ofDayNumber_dayNumber a, ← ofDayNumber_dayNumber b]
  simp only [h]

/-- The date with a day number, unless the number lies outside the calendar. -/
def ofDayNumber? (n : Int) : Option Date :=
  if h : 0 ≤ n ∧ n.toNat < total then some (ofDayNumber n.toNat h.2) else none

/-- A number names a date just if it is that date's day number. -/
theorem ofDayNumber?_eq_some {n : Int} {d : Date} :
    ofDayNumber? n = some d ↔ (d.dayNumber : Int) = n := by
  unfold ofDayNumber?
  split
  · rename_i h
    constructor
    · intro e
      injection e with e
      rw [← e, dayNumber_ofDayNumber]
      omega
    · intro e
      congr 1
      apply dayNumber_inj
      rw [dayNumber_ofDayNumber]
      omega
  · rename_i h
    constructor
    · intro e
      injection e
    · intro e
      have := d.dayNumber_lt
      -- The number of a date is always in range, so this case does not arise
      exact absurd ⟨by omega, by omega⟩ h

/-! ## Order -/

instance : LT Date := ⟨fun a b => a.dayNumber < b.dayNumber⟩

instance : LE Date := ⟨fun a b => a.dayNumber ≤ b.dayNumber⟩

instance (a b : Date) : Decidable (a < b) := inferInstanceAs (Decidable (a.dayNumber < b.dayNumber))

instance (a b : Date) : Decidable (a ≤ b) := inferInstanceAs (Decidable (a.dayNumber ≤ b.dayNumber))

/-- Dates are ordered by their day numbers. -/
theorem lt_iff {a b : Date} : a < b ↔ a.dayNumber < b.dayNumber := Iff.rfl

/-- Dates are ordered by their day numbers. -/
theorem le_iff {a b : Date} : a ≤ b ↔ a.dayNumber ≤ b.dayNumber := Iff.rfl

/-! ## Arithmetic -/

/-- The date a number of days later. -/
def addDays (d : Date) (days : Int) : Except CalendarFault Date :=
  match ofDayNumber? (d.dayNumber + days) with
  | some e => .ok e
  | none => .error .overflow

/-- A number of days later is the date with that larger number, if the calendar has it. -/
theorem addDays_eq_ok {d e : Date} {days : Int} :
    d.addDays days = .ok e ↔ (e.dayNumber : Int) = d.dayNumber + days := by
  rw [← ofDayNumber?_eq_some]
  unfold addDays
  split
  · rename_i h
    rw [h]
    simp
  · rename_i h
    rw [h]
    simp

/-- The largest year number that the calendar takes for a year at all. -/
def yearLimit : Int := 2147483647

/-- The fault of a year outside the calendar: a number beyond `yearLimit` is not even a year. -/
def yearFault (year : Int) : CalendarFault :=
  if -yearLimit - 1 ≤ year ∧ year ≤ yearLimit then .noSuchYear year else .overflow

/-- Months from January of year 0 to the month of a date. -/
def monthNumber (d : Date) : Int := 12 * d.year + (d.month - 1)

/-- The date a number of months later; a day that its month does not have becomes the last one. -/
def shiftMonths (d : Date) (months : Int) : Except CalendarFault Date :=
  let number := d.monthNumber + months
  let year := number / 12
  if h : 1 ≤ year ∧ year ≤ 9999 then
    let month := (number % 12).toNat + 1
    let last := monthLength (isLeapYear year.toNat) month
    .ok ⟨year.toNat, month, min d.day last, by
      have := monthLength_pos (isLeapYear year.toNat) month
      have := d.valid.2.2.1
      refine ⟨by omega, ⟨by omega, by omega⟩, ?_, ?_⟩ <;> omega⟩
  else .error (yearFault year)

/-- The date a number of years later; 29 February becomes 28 February in a common year. -/
def shiftYears (d : Date) (years : Int) : Except CalendarFault Date :=
  d.shiftMonths (12 * years)

/-! ## Dates of the same month or year -/

/-- The first day of the month of a date. -/
def monthStart (d : Date) : Date :=
  ⟨d.year, d.month, 1, d.valid.1, d.valid.2.1, Nat.le_refl 1, by
    have := monthLength_pos (isLeapYear d.year) d.month; omega⟩

/-- The last day of the month of a date. -/
def monthEnd (d : Date) : Date :=
  ⟨d.year, d.month, d.lastDay, d.valid.1, d.valid.2.1, by
    have := monthLength_pos (isLeapYear d.year) d.month; unfold lastDay; omega, Nat.le_refl _⟩

/-- The first day of the year of a date. -/
def yearStart (d : Date) : Date :=
  ⟨d.year, 1, 1, d.valid.1, by omega, by cases isLeapYear d.year <;> decide⟩

/-- The last day of the year of a date. -/
def yearEnd (d : Date) : Date :=
  ⟨d.year, 12, 31, d.valid.1, by omega, by cases isLeapYear d.year <;> decide⟩

end Date

end Recurrence
