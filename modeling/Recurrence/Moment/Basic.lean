import Recurrence.Zone.Basic

/-!
# Moments

A moment is a reading of the clocks of a zone. A reading that an offset change repeats belongs to
two instants, so a moment also says whether it is the second pass.

* `Moment.isBefore`: moments of one zone are ordered by their readings, moments of different zones
  by their instants.
* `Moment.inZone`: the moment as the clocks of another zone show it.
-/

namespace Recurrence

/-- A reading in a zone. -/
structure Moment where
  reading : Reading
  zone : Zone
  /-- Whether the reading is the second of two equal ones. -/
  second : Bool
deriving DecidableEq

namespace Moment

/-- The offset from UTC, in microseconds. -/
def offset (m : Moment) : Int := m.zone.offsetOn m.reading m.second

/-- Microseconds since 0001-01-01T00:00 UTC. -/
def instant (m : Moment) : Int := m.reading.ticks - m.offset

/-- The date of the reading. -/
def date (m : Moment) : Date := m.reading.date

/-! ## Comparison -/

/-- Moments of one zone compare by their readings, others by their instants. -/
def isBefore (a b : Moment) : Bool :=
  if a.zone = b.zone then a.reading.ticks < b.reading.ticks else a.instant < b.instant

/-- Whether the two passes over the reading have different offsets: an offset change repeats or
skips it. -/
def isUncertain (m : Moment) : Bool :=
  m.zone.offsetOn m.reading true != m.zone.offsetOn m.reading false

/-- Moments of one zone are equal when their readings are. Moments of different zones are equal
when their instants are, unless an offset change makes one of them uncertain. -/
def isSame (a b : Moment) : Bool :=
  if a.zone = b.zone then a.reading = b.reading
  else a.instant = b.instant && !a.isUncertain && !b.isUncertain

/-! ## Conversion -/

/-- The reading that a zone's clocks show at an instant. The reading in UTC has to lie inside the
calendar too. -/
def ofInstant (instant : Int) (zone : Zone) : Except CalendarFault Moment :=
  match Reading.ofTicks? instant with
  | none => .error .overflow
  | some _ =>
    let (offset, second) := zone.offsetAt instant
    match Reading.ofTicks? (instant + offset) with
    | none => .error .overflow
    | some reading => .ok ⟨reading, zone, second⟩

/-- The moment on the clocks of a zone. In its own zone a moment stays as it is, also when its
reading is skipped or repeated there. -/
def inZone (m : Moment) (zone : Zone) : Except CalendarFault Moment :=
  if m.zone = zone then .ok m else ofInstant m.instant zone

/-- The moment on the clocks of UTC. -/
def inUtc (m : Moment) : Except CalendarFault Moment := m.inZone .zero

end Moment

/-! ## Stamps -/

/-- A reading that may or may not name its zone. -/
structure Stamp where
  reading : Reading
  second : Bool
  zone : Option Zone
deriving DecidableEq

namespace Stamp

/-- The moment of a stamp on the clocks of a zone. A stamp without a zone is read in that zone. -/
def inZone (stamp : Stamp) (zone : Zone) : Except CalendarFault Moment :=
  match stamp.zone with
  | none => .ok ⟨stamp.reading, zone, stamp.second⟩
  | some own => (⟨stamp.reading, own, stamp.second⟩ : Moment).inZone zone

/-- The moment of a stamp that names its zone. -/
def moment? (stamp : Stamp) : Option Moment :=
  stamp.zone.map fun zone => ⟨stamp.reading, zone, stamp.second⟩

end Stamp

/-- A moment as a stamp that names its zone. -/
def Moment.stamp (m : Moment) : Stamp := ⟨m.reading, m.second, some m.zone⟩

end Recurrence
