import Recurrence.Calendar.Date

/-!
# Weekdays

The seven weekdays, numbered from Sunday, and the dates of a span that fall on one of them.
-/

namespace Recurrence

inductive Weekday where
  | sunday
  | monday
  | tuesday
  | wednesday
  | thursday
  | friday
  | saturday
deriving DecidableEq

namespace Weekday

/-- All weekdays, from Sunday on. -/
def all : List Weekday := [sunday, monday, tuesday, wednesday, thursday, friday, saturday]

/-- The number of a weekday, counted from Sunday as zero. -/
def number : Weekday → Nat
  | sunday => 0
  | monday => 1
  | tuesday => 2
  | wednesday => 3
  | thursday => 4
  | friday => 5
  | saturday => 6

/-- There are seven numbers. -/
theorem number_lt (w : Weekday) : w.number < 7 := by
  cases w <;> decide

/-- Weekdays with one number are equal. -/
theorem number_inj {a b : Weekday} (h : a.number = b.number) : a = b := by
  cases a <;> cases b <;> first | rfl | (exact absurd h (by decide))

/-- The weekday with a number, read modulo seven. -/
def ofNumber (n : Nat) : Weekday :=
  match n % 7 with
  | 0 => sunday
  | 1 => monday
  | 2 => tuesday
  | 3 => wednesday
  | 4 => thursday
  | 5 => friday
  | _ => saturday

/-- The weekday of any number has that number modulo seven. -/
theorem number_ofNumber (n : Nat) : (ofNumber n).number = n % 7 := by
  have h : n % 7 < 7 := Nat.mod_lt _ (by decide)
  unfold ofNumber
  generalize n % 7 = r at *
  match r, h with
  | 0, _ | 1, _ | 2, _ | 3, _ | 4, _ | 5, _ | 6, _ => rfl

/-- The two-letter code of a weekday. -/
def code : Weekday → String
  | sunday => "SU"
  | monday => "MO"
  | tuesday => "TU"
  | wednesday => "WE"
  | thursday => "TH"
  | friday => "FR"
  | saturday => "SA"

/-- The weekday with a two-letter code. -/
def ofCode? (code : List Char) : Option Weekday :=
  all.find? fun w => w.code.toList == code

/-- The weekday with a number from 0 to 6. -/
def ofNumber? (n : Int) : Option Weekday :=
  all.find? fun w => (w.number : Int) == n

end Weekday

namespace Date

/-- The weekday of a date. The first day of the calendar is a Monday. -/
def weekday (d : Date) : Weekday := .ofNumber (d.dayNumber + 1)

/-- The first day of the calendar is a Monday, and Sunday has number zero. -/
theorem number_weekday (d : Date) : d.weekday.number = (d.dayNumber + 1) % 7 :=
  Weekday.number_ofNumber _

/-- The last Monday on or before a date. -/
def weekStart (d : Date) : Date :=
  .ofDayNumber (d.dayNumber - d.dayNumber % 7) (by have := d.dayNumber_lt; omega)

/-- Weeks begin with the Mondays, whose day numbers are the multiples of seven. -/
theorem dayNumber_weekStart (d : Date) :
    d.weekStart.dayNumber = d.dayNumber - d.dayNumber % 7 :=
  dayNumber_ofDayNumber _ _

end Date

/-! ## Weekdays of a span -/

namespace Weekday

/-- Every seventh date from `current` to `last`. The step beyond `last` has to stay inside the
calendar too. -/
def everyWeek (current last : Date) : Except CalendarFault (List Date) :=
  if current ≤ last then
    match _h : current.addDays 7 with
    | .error fault => .error fault
    | .ok next => (current :: ·) <$> everyWeek next last
  else .ok []
termination_by Date.total - current.dayNumber
decreasing_by
  have := Date.addDays_eq_ok.1 _h
  have := next.dayNumber_lt
  omega

/-- The dates from `first` to `last` that fall on a weekday. -/
def datesBetween (w : Weekday) (first last : Date) : Except CalendarFault (List Date) := do
  let start ← first.addDays ((w.number - first.weekday.number : Int) % 7)
  everyWeek start last

end Weekday

end Recurrence
