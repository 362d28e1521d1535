import Recurrence.Series.Basic

/-!
# Walking through a series

A walk visits the periods of a series in order and hands out one occurrence at a time. It ends at
the end of the series, or when no occurrence turns up within the lookahead after the last one.
Nothing beyond the occurrence that was asked for is looked at, so a fault that lies further on
does not show.

* `Walk.start`, `Walk.resume`: the first occurrence of a walk, and the one after.
-/

namespace Recurrence

/-- What a walk is asked for. -/
structure Query where
  /-- Occurrences have to be later than this. -/
  after : Option Moment
  /-- Excluded occurrences are passed over. -/
  exclude : Bool

namespace Query

/-- Whether a moment is later than the query's bound. -/
def accepts (q : Query) (m : Moment) : Bool :=
  match q.after with
  | none => true
  | some bound => bound.isBefore m

end Query

/-- Where a walk stands after an occurrence. -/
structure Walk where
  /-- The date of the last occurrence, from which the lookahead counts. -/
  origin : Date
  /-- The first day of the period that is being visited. -/
  period : Date
  /-- The candidates of the period that are still to come. -/
  pending : List Moment

namespace Walk

/-- What looking through candidates leads to. -/
inductive Outcome where
  | found (m : Moment) (rest : List Moment)
  /-- A candidate lies past the end of the series. -/
  | ended
  /-- No candidate is left. -/
  | none

/-- The first occurrence among candidates. -/
def scan (s : Series) (q : Query) : List Moment → Except CalendarFault Outcome
  | [] => .ok .none
  | m :: rest =>
    if m.isBefore s.anchor || !q.accepts m then scan s q rest
    else if s.isPastEnd m then .ok .ended
    else if q.exclude then
      match s.isExcluded m with
      | .error fault => .error fault
      | .ok true => scan s q rest
      | .ok false => .ok (.found m rest)
    else .ok (.found m rest)

/-- The first occurrence from a period on, as far as the horizon. -/
def seek (s : Series) (q : Query) (horizon period : Date) :
    Except CalendarFault (Option (Moment × Walk)) :=
  if horizon < period || s.isPastEndingDate period then .ok none
  else
    match s.candidates period with
    | .error fault => .error fault
    | .ok candidates =>
      match scan s q candidates with
      | .error fault => .error fault
      | .ok (.found m rest) => .ok (some (m, ⟨m.date, period, rest⟩))
      | .ok .ended => .ok none
      | .ok .none =>
        match _h : s.freq.shift period s.fields.step.val with
        | .error fault => .error fault
        | .ok next => seek s q horizon next
termination_by Date.total - period.dayNumber
decreasing_by
  have step := s.fields.step.property
  have := Date.lt_iff.1 (Frequency.lt_of_shift (by omega) _h)
  have := next.dayNumber_lt
  omega

/-- The moment from which a search starts: the bound of the query, or the anchor if that is
later. -/
def floor (s : Series) (q : Query) : Moment :=
  match q.after with
  | none => s.anchor
  | some bound => if bound.isBefore s.anchor then s.anchor else bound

/-- The least multiple of a positive step that is not below a number. -/
def roundUp (n step : Int) : Int := -(-n / step) * step

/-- The number of periods from the anchor's to the first that a search visits. -/
def firstPeriod (s : Series) (floor : Date) : Int :=
  roundUp (s.freq.periodsBetween s.anchorPeriod (s.freq.periodStart floor)) s.fields.step.val

/-- The first occurrence of a walk. -/
def start (s : Series) (q : Query) : Except CalendarFault (Option (Moment × Walk)) := do
  let origin := (floor s q).date
  let horizon ← origin.shiftYears s.lookahead.val
  let period ← s.freq.shift s.anchorPeriod (firstPeriod s origin)
  seek s q horizon period

/-- The occurrence after the one where a walk stands. -/
def resume (s : Series) (q : Query) (w : Walk) : Except CalendarFault (Option (Moment × Walk)) := do
  let horizon ← w.origin.shiftYears s.lookahead.val
  -- The period of the last occurrence may hold more of them
  match ← scan s q w.pending with
  | .found m rest => return some (m, ⟨m.date, w.period, rest⟩)
  | .ended => return none
  | .none =>
    -- Otherwise the search goes on with the next period that is visited
    let next ← s.freq.shift w.period s.fields.step.val
    seek s q horizon next

/-- The next occurrence: the first one, or the one after where a walk stands. -/
def step (s : Series) (q : Query) : Option Walk → Except CalendarFault (Option (Moment × Walk))
  | none => start s q
  | some w => resume s q w

end Walk

end Recurrence
