/-!
# Times of day

A time of day counts microseconds since midnight.
-/

namespace Recurrence

/-- Microseconds of a second. -/
def ticksPerSecond : Nat := 1000000

/-- Microseconds of a day. -/
def ticksPerDay : Nat := 86400000000

/-- A time of day, in microseconds since midnight. -/
structure TimeOfDay where
  ticks : Nat
  lt : ticks < ticksPerDay
deriving DecidableEq

namespace TimeOfDay

def midnight : TimeOfDay := ⟨0, by decide⟩

/-- The time of day with these parts, if each lies in its range. -/
def of? (hour minute second micro : Nat) : Option TimeOfDay :=
  if h : hour < 24 ∧ minute < 60 ∧ second < 60 ∧ micro < 1000000 then
    some ⟨((hour * 60 + minute) * 60 + second) * 1000000 + micro, by unfold ticksPerDay; omega⟩
  else none

def hour (t : TimeOfDay) : Nat := t.ticks / 3600000000

def minute (t : TimeOfDay) : Nat := t.ticks / 60000000 % 60

def second (t : TimeOfDay) : Nat := t.ticks / 1000000 % 60

def micro (t : TimeOfDay) : Nat := t.ticks % 1000000

end TimeOfDay

end Recurrence
