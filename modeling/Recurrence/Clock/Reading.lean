import Recurrence.Calendar.Date
import Recurrence.Clock.TimeOfDay

/-!
# Readings

What a calendar and a clock on the wall show: a date and a time of day, with no zone.

* `Reading.ofTicks?_eq_some`: readings and their microsecond counts correspond one to one.
-/

namespace Recurrence

/-- A date and a time of day. -/
structure Reading where
  date : Date
  time : TimeOfDay
deriving DecidableEq

namespace Reading

/-- Microseconds from 0001-01-01T00:00 to a reading. -/
def ticks (r : Reading) : Nat := r.date.dayNumber * ticksPerDay + r.time.ticks

/-- Whole seconds from 0001-01-01T00:00 to a reading. -/
def seconds (r : Reading) : Nat := r.ticks / ticksPerSecond

/-- The reading with a microsecond count, unless it lies outside the calendar. -/
def ofTicks? (ticks : Int) : Option Reading :=
  (Date.ofDayNumber? (ticks / ticksPerDay)).map fun date =>
    ⟨date, (ticks % ticksPerDay).toNat, by unfold ticksPerDay; omega⟩

/-- A number of microseconds names a reading just if it is that reading's count. -/
theorem ofTicks?_eq_some {ticks : Int} {r : Reading} :
    ofTicks? ticks = some r ↔ (r.ticks : Int) = ticks := by
  simp only [ofTicks?, Option.map_eq_some_iff, Date.ofDayNumber?_eq_some]
  have ht := r.time.lt
  constructor
  · -- Both ways the count splits into the days and the rest below a day
    rintro ⟨date, hd, rfl⟩
    simp only [Reading.ticks, ticksPerDay] at *
    omega
  · intro h
    refine ⟨r.date, ?_, ?_⟩
    · rw [← h]
      simp only [Reading.ticks, ticksPerDay] at *
      omega
    · obtain ⟨date, time, lt⟩ := r
      congr 2
      rw [← h]
      simp only [Reading.ticks, ticksPerDay] at *
      omega

/-- Readings with one count of microseconds are equal. -/
theorem ticks_inj {a b : Reading} (h : a.ticks = b.ticks) : a = b := by
  have ha : ofTicks? a.ticks = some a := ofTicks?_eq_some.2 rfl
  have hb : ofTicks? a.ticks = some b := ofTicks?_eq_some.2 (by rw [h])
  exact Option.some.inj (ha.symm.trans hb)

end Reading

end Recurrence
