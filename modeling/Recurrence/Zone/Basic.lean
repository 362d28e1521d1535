import Recurrence.Clock.Reading
import Recurrence.Zone.Offset
import Recurrence.Zone.Region

/-!
# Zones

A zone gives every reading of its clocks an offset, and every instant a reading. Offsets are
microseconds east of UTC, and instants are microseconds since 0001-01-01T00:00 UTC. A zone is a
region or keeps one offset; clocks of any other kind are left out.

* `Zone.name`: the name of a zone, under which people speak of its readings.
* `Zone.isSame`: equality of zones, which does not look at the names of fixed offsets.
* `Zone.offsetOn`, `Zone.offsetAt`: the offset of a reading, and the one in force at an instant.
-/

namespace Recurrence

inductive Zone where
  /-- A region with its own name and history, whether the zone database knows it or not. -/
  | region (region : Region)
  /-- A zone that keeps one offset, and that may have been given a name. The region named after UTC
  is another zone than offset zero. -/
  | fixed (offset : Int) (given : Option String)
  /-- The offset that stands in a written moment. It is never a zone that someone has chosen, even
  where the offsets agree. -/
  | written (offset : Int)
deriving DecidableEq

namespace Zone

/-- The fixed offset zero, without a name of its own. -/
def zero : Zone := .fixed 0 none

/-- The zone of an offset in a written moment. Offset zero is UTC itself. -/
def ofWritten (offset : Int) : Zone :=
  if offset = 0 then zero else .written offset

/-- The zone of a region's name. -/
def ofName? [ZoneDatabase] (name : String) : Option Zone :=
  (ZoneDatabase.regions.find? fun r => r.name == name).map .region

/-- The name of a fixed offset that has not been given any: its distance from UTC. -/
def offsetName (offset : Int) : String :=
  if offset = 0 then "UTC" else "UTC" ++ String.ofList (Offset.write offset)

/-- The name of a zone. -/
def name : Zone → String
  | .region r => r.name
  | .fixed offset given => given.getD (offsetName offset)
  | .written offset => offsetName offset

/-- The offset of a zone that keeps one. -/
def keptOffset? : Zone → Option Int
  | .region _ => none
  | .fixed offset _ => some offset
  | .written offset => some offset

/-- Whether two zones are equal: zones that keep one offset if that is the same, whatever they are
called, and regions if they are the same one. -/
def isSame (a b : Zone) : Bool :=
  match a.keptOffset?, b.keptOffset? with
  | some offset, some offset' => offset = offset'
  | _, _ => a = b

/-- Seconds from 0001-01-01T00:00 to 1970-01-01T00:00. -/
def unixStart : Int := 62135596800

/-- The offset of a reading in the first or second pass over it. -/
def offsetOn (zone : Zone) (reading : Reading) (second : Bool) : Int :=
  match zone with
  | .region r => r.history.offsetOn (reading.seconds - unixStart) second * ticksPerSecond
  | .fixed offset _ => offset
  | .written offset => offset

/-- The offset in force at an instant, and whether its reading comes for the second time. -/
def offsetAt (zone : Zone) (instant : Int) : Int × Bool :=
  match zone with
  | .region r =>
    let (offset, second) := r.history.offsetAt (instant / ticksPerSecond - unixStart)
    (offset * ticksPerSecond, second)
  | .fixed offset _ => (offset, false)
  | .written offset => (offset, false)

end Zone

end Recurrence
