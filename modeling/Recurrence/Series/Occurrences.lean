import Recurrence.Series.Walk

/-!
# Occurrences

The occurrences of a series after a moment.

With a count, the series is walked from its first occurrence on, and excluded occurrences take up
positions of the count although they are not handed out.

* `Series.occurrencesAfter`: up to so many occurrences after a moment.
* `Series.nextAfter`: the next occurrence after a moment.
-/

namespace Recurrence.Series

/-- At most `limit` further occurrences of a walk. -/
def take (s : Series) (q : Query) : (limit : Nat) → Option Walk →
    Except CalendarFault (List Moment)
  | 0, _ => .ok []
  | limit + 1, w =>
    match Walk.step s q w with
    | .error fault => .error fault
    | .ok none => .ok []
    | .ok (some (m, next)) => (m :: ·) <$> take s q limit (some next)

/-- The query for all positions of a counted series. -/
def everyPosition : Query := ⟨none, false⟩

/-- At most `limit` of the next `count` positions of a series that are later than the bound and
not excluded. -/
def takeCounted (s : Series) (q : Query) : (count limit : Nat) → Option Walk →
    Except CalendarFault (List Moment)
  | _, 0, _ => .ok []
  | 0, _, _ => .ok []
  | count + 1, limit + 1, w =>
    match Walk.step s everyPosition w with
    | .error fault => .error fault
    | .ok none => .ok []
    | .ok (some (m, next)) =>
      if q.accepts m then
        match s.isExcluded m with
        | .error fault => .error fault
        | .ok true => takeCounted s q count (limit + 1) (some next)
        | .ok false => (m :: ·) <$> takeCounted s q count limit (some next)
      else takeCounted s q count (limit + 1) (some next)

/-- The largest limit and the largest count of a search. -/
def maxLimit : Nat := 9223372036854775807

/-- At most `limit` occurrences later than a moment of the zone, or from the first one on. -/
def occurrences (s : Series) (after : Option Moment) (limit : Nat) :
    Except Failure (List Moment) :=
  match s.fields.count with
  | none => orFail (s.take ⟨after, true⟩ limit none)
  | some count =>
    if limit = 0 then .ok []
    else if maxLimit < count.val then .error .limitTooLarge
    else orFail (s.takeCounted ⟨after, true⟩ count.val limit none)

/-- At most `limit` occurrences later than a stamp, or from the first one on. A negative limit is
read as zero. -/
def occurrencesAfter (s : Series) (after : Option Stamp) (limit : Int) :
    Except Failure (List Moment) := do
  let bound ← after.mapM fun stamp => orFail (stamp.inZone s.zone)
  if maxLimit < limit then .error .limitTooLarge
  else s.occurrences bound limit.toNat

/-- The next occurrence later than a stamp, or the first one. -/
def nextAfter (s : Series) (after : Option Stamp) : Except Failure (Option Moment) :=
  List.head? <$> s.occurrencesAfter after 1

end Recurrence.Series
