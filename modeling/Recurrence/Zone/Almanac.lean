import Recurrence.Zone.Basic

/-!
# Almanacs

An almanac tells the offsets of a region in whole minutes. Its shifts begin with the least instant
that 32 bits hold and end with the year 2037.

* `History.almanac`: the almanac of a history.
* `Zone.almanacOffset`: the offset that almanacs give for a reading in the zone of a name.
-/

namespace Recurrence

namespace History

/-- The nearest offset in whole minutes; half a minute counts as a whole one. -/
def wholeMinutes (offset : Int) : Int := (offset + 30) / 60 * 60

/-- The instant with which almanacs begin. Before it the first offset of all holds. -/
def almanacStart : Int := -2147483648

/-- The years whose shifts by rule are in almanacs. -/
def almanacYears : List Nat := List.range' 1970 68

/-- The almanac of a history. It has no rule, so its last offset stays. -/
def almanac (h : History) : History :=
  let listed := (h.shiftsIn almanacYears).filter fun s => almanacStart < s.instant
  .ofChanges (wholeMinutes h.initial)
    ((almanacStart, wholeMinutes (h.offsetAt almanacStart).1) ::
      listed.map fun s => (s.instant, wholeMinutes s.after))
    none

/-- The offset of the latest shift on record that has come when the clock shows a reading, given in
seconds since 1970-01-01T00:00. A repeated reading belongs to its second pass, and a skipped one
keeps the offset before the shift. -/
def latestOffsetOn (h : History) (wall : Int) : Int :=
  let past := h.recorded.filter fun s => s.instant + s.after ≤ wall
  match past.getLast? with
  | none => h.initial
  | some s => s.after

end History

namespace Zone

/-- The fixed offsets that people speak of, in minutes. -/
def spokenMinutes : List Int :=
  [-720, -660, -600, -570, -540, -480, -420, -360, -300, -270, -240, -210, -180, -120, -60, 0, 60,
    120, 180, 210, 240, 270, 300, 330, 345, 360, 390, 420, 480, 525, 540, 570, 600, 630, 660, 690,
    720, 765, 780, 840]

/-- The offset of a reading in the zone of a name, in microseconds. Under a name that no almanac and
nobody knows, the reading counts as one of UTC. -/
def almanacOffset [ZoneDatabase] (zoneName : String) (reading : Reading) : Int :=
  match ZoneDatabase.regions.find? fun r => r.name == zoneName with
  | some r => r.history.almanac.latestOffsetOn (reading.seconds - unixStart) * ticksPerSecond
  | none =>
    let offsets := spokenMinutes.map fun minutes : Int => minutes * 60 * (ticksPerSecond : Int)
    (offsets.find? fun offset : Int => offsetName offset == zoneName).getD 0

end Zone

end Recurrence
