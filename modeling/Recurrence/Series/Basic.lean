import Recurrence.Failure
import Recurrence.Series.Expansion

/-!
# Series

A series is a rule's parts bound to an anchor and a zone. Its candidates are the dates that the
parts select, each with the anchor's time of day.

* `Series.make`: the series of a rule, an anchor and a zone.
* `Series.candidates`: the moments that may occur in a period, in ascending order of readings.
* `Series.isExcluded`: whether a moment is left out.
-/

namespace Recurrence

/-- A rule's parts bound to an anchor and a zone. -/
structure Series where
  fields : Fields
  zone : Zone
  /-- The anchor's reading in the zone. -/
  reading : Reading
  /-- Whether the anchor is the second pass over its reading. -/
  second : Bool
  /-- A search ends this many years after its last result. -/
  lookahead : Positive
  /-- The date of the end on the clocks of the zone. -/
  endingDate : Option Date
  excludedDates : List Date
  excludedInstants : List Int
deriving DecidableEq

namespace Series

/-- The dates that date tokens exclude, on the clocks of a zone. -/
def datesOf (zone : Zone) (tokens : List DateToken) : Except CalendarFault (List Date) :=
  (tokens.filter (·.dateOnly)).mapM fun token => Moment.date <$> token.moment.inZone zone

/-- The instants that timed tokens exclude. -/
def instantsOf (tokens : List DateToken) : Except CalendarFault (List Int) :=
  (tokens.filter fun token => !token.dateOnly).mapM fun token =>
    Moment.instant <$> token.moment.inUtc

/-- The series of a rule's parts from an anchor on. -/
def make (fields : Fields) (anchor : Stamp) (zone : Zone) (lookahead : Int) :
    Except Failure Series :=
  match Positive.ofInt? lookahead with
  | none => .error .lookaheadTooSmall
  | some lookahead => do
    let anchor ← orFail (anchor.inZone zone)
    -- What the tokens say in the zone is settled once, for all searches
    let endingDate ← orFail (fields.ending.mapM fun token =>
      Moment.date <$> token.moment.inZone zone)
    let excludedDates ← orFail (datesOf zone fields.exdates)
    let excludedInstants ← orFail (instantsOf fields.exdates)
    return ⟨fields, zone, anchor.reading, anchor.second, lookahead, endingDate, excludedDates,
      excludedInstants⟩

/-- The moment from which the series counts. -/
def anchor (s : Series) : Moment := ⟨s.reading, s.zone, s.second⟩

/-- The candidate on a date: the anchor's time of day there, in the same pass. -/
def momentOn (s : Series) (date : Date) : Moment := ⟨⟨date, s.reading.time⟩, s.zone, s.second⟩

def freq (s : Series) : Frequency := s.fields.freq

/-- The first day of the anchor's period. -/
def anchorPeriod (s : Series) : Date := s.freq.periodStart s.reading.date

/-- The candidates of the period that starts on a date. -/
def candidates (s : Series) (start : Date) : Except CalendarFault (List Moment) :=
  (fun days => days.map s.momentOn) <$> (⟨s.fields, s.reading.date⟩ : Expansion).days start

/-- Whether a moment is left out: its date is, or else its instant is. -/
def isExcluded (s : Series) (m : Moment) : Except CalendarFault Bool :=
  if s.excludedDates.contains m.date then .ok true
  else (fun utc => s.excludedInstants.contains utc.instant) <$> m.inUtc

/-- Whether a moment is later than the end of the series. -/
def isPastEnd (s : Series) (m : Moment) : Bool :=
  match s.fields.ending with
  | none => false
  | some token => token.moment.isBefore m

/-- Whether the period that starts on a date begins after the date of the end. -/
def isPastEndingDate (s : Series) (start : Date) : Bool :=
  match s.endingDate with
  | none => false
  | some date => date < start

end Series

end Recurrence
