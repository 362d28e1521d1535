import Recurrence.Moment.When
import Recurrence.Rule.Attributes
import Recurrence.Rule.Printer
import Recurrence.Rule.Reader
import Recurrence.Rule.Snapshot
import Recurrence.Series.Occurrences
import Recurrence.Zone.Choice

/-!
# Schedules

A schedule is a recurrence rule bound to a zone and, as a rule, to an anchor. With an anchor it
answers questions about its occurrences.

* `Schedule.make`: the schedule of a source, an anchor and a zone.
* `Schedule.first`, `Schedule.next`, `Schedule.nextOccurrences`: its occurrences.
* `Schedule.isSame`, `Schedule.identity`: equality, and the key under which schedules are looked up.
-/

namespace Recurrence

/-- What a schedule is made from. -/
inductive Source where
  | text (value : String)
  | fields (value : Fields)
  | document (value : Document)

namespace Source

/-- The parts that a source gives in a zone. A document is either a text or an object of
attributes. -/
def fieldsIn (source : Source) (zone : Zone) : Except Failure Fields :=
  match source with
  | .text value => Fields.read zone value
  | .fields value => .ok value
  | .document (.text value) => Fields.read zone value
  | .document (.object entries) =>
    match Fields.ofDocument (.object entries) with
    | .ok parts => .ok parts
    | .error issues => .error (.invalid issues)
  | .document value => .error (.unusableSource value.kind)

end Source

/-- A recurrence rule in a zone. -/
structure Schedule where
  fields : Fields
  zone : Zone
  anchor : Option Moment
  /-- The occurrences from the anchor on. -/
  series : Option Series
deriving DecidableEq

namespace Schedule

/-- The lookahead of a schedule that names none, in years. -/
def defaultLookahead : Int := 100

/-- The lookahead in years: none and zero stand for the default. -/
def lookaheadOr (lookahead : Option Int) : Int :=
  match lookahead with
  | none => defaultLookahead
  | some years => if years = 0 then defaultLookahead else years

/-- The schedule of a source, an anchor and a zone. -/
def make [ZoneDatabase] [SpokenReader] (source : Source) (anchor : Option When) (zone : ZoneChoice)
    (lookahead : Option Int) : Except Failure Schedule := do
  -- The zone comes first: the tokens of the rule are read in it
  let zone ← zone.resolve
  let fields ← source.fieldsIn zone
  match anchor with
  | none => return ⟨fields, zone, none, none⟩
  | some given =>
    let anchor ← given.resolve zone
    let series ← Series.make fields anchor.stamp zone (lookaheadOr lookahead)
    return ⟨fields, zone, some anchor, some series⟩

/-- The occurrences of a schedule with an anchor. -/
def requireSeries (s : Schedule) : Except Failure Series :=
  match s.series with
  | some series => .ok series
  | none => .error .noAnchor

/-! ## Occurrences -/

/-- The first occurrence. -/
def first (s : Schedule) : Except Failure (Option Moment) := do
  let series ← s.requireSeries
  series.nextAfter none

/-- The first occurrence later than a moment. -/
def next [SpokenReader] (s : Schedule) (after : When) : Except Failure (Option Moment) := do
  let series ← s.requireSeries
  let bound ← after.resolve s.zone
  series.nextAfter (some bound.stamp)

/-- At most `limit` occurrences later than a moment. -/
def nextOccurrences [SpokenReader] (s : Schedule) (after : When) (limit : Int) :
    Except Failure (List Moment) := do
  let series ← s.requireSeries
  let bound ← after.resolve s.zone
  series.occurrencesAfter (some bound.stamp) limit

/-! ## Text and equality -/

/-- The rule text of a schedule. -/
def toText (s : Schedule) : Except Failure String := s.fields.write s.zone

/-- Whether two optional moments are both absent or equal. -/
def sameAnchor : Option Moment → Option Moment → Bool
  | none, none => true
  | some a, some b => a.isSame b
  | _, _ => false

/-- Whether two schedules have the same parts, equal anchors and equal zones. -/
def isSame (a b : Schedule) : Bool :=
  a.fields.sameParts b.fields && sameAnchor a.anchor b.anchor && a.zone.isSame b.zone

/-- The key under which a schedule is looked up: the frequency, the instant of the anchor read in
its first pass, and the name of the zone. -/
structure Identity where
  freq : Frequency
  anchor : Option Int
  zone : String
deriving DecidableEq

/-- The identity of a schedule. -/
def identity (s : Schedule) : Identity :=
  ⟨s.fields.freq, s.anchor.map fun m => ({ m with second := false } : Moment).instant,
    s.zone.name⟩

end Schedule

end Recurrence
