import Recurrence.Calendar.Weekday

/-!
# Offset histories

The offsets from UTC that a place has used over time: shifts at known instants, and a yearly rule
that continues them. Instants are seconds since 1970-01-01T00:00 UTC and offsets are seconds east
of UTC.

* `History.offsetAt`: the offset in force at an instant, and whether the clock shows that reading
  for the second time.
* `History.offsetOn`: the offset that belongs to a reading of the clock.
-/

namespace Recurrence

/-- A change of the offset. -/
structure Shift where
  instant : Int
  before : Int
  after : Int
deriving DecidableEq

namespace Shift

/-- The first reading that belongs to the new offset. Of the readings that the shift repeats or
skips, the first pass keeps the old offset and the second takes the new one. -/
def wallStart (s : Shift) (second : Bool) : Int :=
  s.instant + if second then min s.before s.after else max s.before s.after

end Shift

/-- A weekday of a month on which clocks change, at a time of day before the change. -/
structure ChangeDay where
  month : Nat
  /-- From one for the first such day of the month; five means the last. -/
  week : Nat
  weekday : Weekday
  /-- Seconds after midnight. -/
  time : Int
deriving DecidableEq

namespace ChangeDay

/-- The clock's reading at the change in a year, in seconds since 1970-01-01T00:00. -/
def wallSeconds (c : ChangeDay) (year : Nat) : Int :=
  let leap := isLeapYear year
  let monthStart := daysBeforeYear year + daysBeforeMonth leap c.month
  let named := (c.weekday.number + 7 - (monthStart + 1) % 7) % 7 + 7 * (c.week - 1)
  let day := if named < monthLength leap c.month then named else named - 7
  ((monthStart + day : Nat) - 719162 : Int) * 86400 + c.time

end ChangeDay

/-- Two shifts a year, to the daylight offset and back. -/
structure YearlyRule where
  standard : Int
  daylight : Int
  starts : ChangeDay
  ends : ChangeDay
deriving DecidableEq

namespace YearlyRule

/-- The shifts of a year, in ascending order. -/
def shifts (rule : YearlyRule) (year : Nat) : List Shift :=
  let start : Shift :=
    ⟨rule.starts.wallSeconds year - rule.standard, rule.standard, rule.daylight⟩
  let stop : Shift :=
    ⟨rule.ends.wallSeconds year - rule.daylight, rule.daylight, rule.standard⟩
  if start.instant < stop.instant then [start, stop] else [stop, start]

end YearlyRule

/-- The offsets of a place over time. -/
structure History where
  /-- The offset before the first shift. -/
  initial : Int
  /-- The shifts on record, in ascending order. -/
  recorded : List Shift
  /-- The rule after the last shift on record; without one the last offset stays. -/
  rule : Option YearlyRule
deriving DecidableEq

namespace History

/-- Whether all offsets of a history stay below a day. -/
def BelowDay (h : History) : Prop :=
  h.initial.natAbs < 86400 ∧ (∀ shift ∈ h.recorded, shift.after.natAbs < 86400) ∧
    ∀ rule ∈ h.rule, rule.standard.natAbs < 86400 ∧ rule.daylight.natAbs < 86400

instance (h : History) : Decidable h.BelowDay := inferInstanceAs (Decidable (_ ∧ _))

/-- The history with these shifts, each given by its instant and the offset that it leads to. -/
def ofChanges (initial : Int) (changes : List (Int × Int)) (rule : Option YearlyRule) :
    History where
  initial := initial
  recorded := changes.zipWith (fun change before => ⟨change.1, before, change.2⟩)
    (initial :: changes.map (·.2))
  rule := rule

/-- The shifts on record, and those of the rule in some years. -/
def shiftsIn (h : History) (years : List Nat) : List Shift :=
  match h.rule with
  | none => h.recorded
  | some rule =>
    -- The rule only speaks for the time after the record
    let isNew (s : Shift) : Bool :=
      match h.recorded.getLast? with
      | none => true
      | some known => known.instant < s.instant
    h.recorded ++ (years.flatMap rule.shifts).filter isNew

/-- The shifts that can matter in a year: those on record, and those of the rule in that year and
the one before. -/
def shiftsNear (h : History) (year : Nat) : List Shift := h.shiftsIn [year - 1, year]

/-- The year that holds a number of seconds since 1970-01-01T00:00. -/
def yearOfSeconds (seconds : Int) : Nat :=
  yearOf (seconds / 86400 + 719162).toNat

/-- The offset in force at an instant, and whether the clock shows the reading a second time. -/
def offsetAt (h : History) (instant : Int) : Int × Bool :=
  let past := (h.shiftsNear (yearOfSeconds instant)).filter fun s => s.instant ≤ instant
  match past.getLast? with
  | none => (h.initial, false)
  -- For as long as the clock has gone back, its readings come a second time
  | some s => (s.after, instant - s.instant < s.before - s.after)

/-- The offset of a reading, given in seconds since 1970-01-01T00:00 on the clock, in the first or
second pass over it. -/
def offsetOn (h : History) (wall : Int) (second : Bool) : Int :=
  let past := (h.shiftsNear (yearOfSeconds wall)).filter fun s => s.wallStart second ≤ wall
  match past.getLast? with
  | none => h.initial
  | some s => s.after

end History

end Recurrence
