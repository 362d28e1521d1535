import Recurrence.Rule.Fields

/-!
# Expanding a period

The dates that a rule selects inside one period.

* `DayEntry.dates`: the dates of a span that an entry selects.
* `Expansion.days`: the dates of a period, ascending and without repetition.
-/

namespace Recurrence

/-! ## Entries -/

namespace DayEntry

/-- The members of a list that an ordinal selects: all of them, the `n`-th from the start, or the
`n`-th from the end. -/
def select {α : Type} (ordinal : Int) (found : List α) : List α :=
  if ordinal = 0 then found
  else if 0 < ordinal then found[ordinal.toNat - 1]?.toList
  else found.reverse[(-ordinal).toNat - 1]?.toList

/-- The dates of a span that an entry selects. -/
def dates (first last : Date) (entry : DayEntry) : Except CalendarFault (List Date) :=
  select entry.ordinal <$> entry.weekday.datesBetween first last

/-- The dates of a span that the entries select, entry by entry. -/
def datesOfAll (entries : List DayEntry) (first last : Date) :
    Except CalendarFault (List Date) :=
  List.flatten <$> entries.mapM (DayEntry.dates first last)

end DayEntry

/-! ## Ascending lists -/

namespace Date

/-- An ascending list with one more date in its place. -/
def insertAscending (d : Date) : List Date → List Date
  | [] => [d]
  | e :: rest =>
    if d < e then d :: e :: rest
    else if e < d then e :: insertAscending d rest
    else e :: rest

/-- The dates of a list in ascending order, each once. -/
def ascending (dates : List Date) : List Date := dates.foldr insertAscending []

end Date

/-! ## Days of a period -/

/-- What an expansion takes from a rule: its parts, and the date of the anchor, which supplies the
month, the day and the weekday that the parts leave open. -/
structure Expansion where
  fields : Fields
  anchor : Date

namespace Expansion

/-- The first day of a month of the year of a date. -/
def monthOfYear (d : Date) (month : MonthNumber) : Date :=
  ⟨d.year, month.val, 1, d.valid.1, month.property, Nat.le_refl 1, by
    have := monthLength_pos (isLeapYear d.year) month.val; omega⟩

/-- A day of the month of a date, if the month has it. -/
def dayOfMonth (d : Date) (day : Nat) : Option Date := Date.of? d.year d.month day

/-- The selected dates of the month of a date. -/
def daysInMonth (x : Expansion) (d : Date) : Except CalendarFault (List Date) :=
  if !x.fields.byMonthDay.isEmpty then
    .ok (x.fields.byMonthDay.filterMap fun day => dayOfMonth d day.val)
  else if !x.fields.byDay.isEmpty then
    DayEntry.datesOfAll x.fields.byDay d.monthStart d.monthEnd
  else .ok (dayOfMonth d x.anchor.day).toList

/-- All months of the year. -/
def allMonths : List MonthNumber :=
  (List.finRange 12).map fun i => ⟨i.val + 1, by omega⟩

/-- The months of a year that a yearly rule looks into. -/
def monthsInYear (x : Expansion) : List MonthNumber :=
  if !x.fields.byMonth.val.isEmpty then x.fields.byMonth.val
  -- Listed days are looked for in every month, the day of the anchor in its own
  else if !x.fields.byMonthDay.isEmpty then allMonths
  else [⟨x.anchor.month, x.anchor.valid.2.1⟩]

/-- The selected dates of the year of a date. -/
def daysInYear (x : Expansion) (start : Date) : Except CalendarFault (List Date) :=
  if !x.fields.byDay.isEmpty && x.fields.byMonth.val.isEmpty then
    DayEntry.datesOfAll x.fields.byDay start start.yearEnd
  else List.flatten <$> x.monthsInYear.mapM fun month => x.daysInMonth (monthOfYear start month)

/-- Whether a weekday is wanted: it is listed, or it is the anchor's and none is listed. -/
def wantsWeekday (x : Expansion) (weekday : Weekday) : Bool :=
  if x.fields.byDay.isEmpty then weekday = x.anchor.weekday
  else x.fields.weekdays.contains weekday

/-- The selected dates of the week that starts on a date. The whole week has to lie inside the
calendar. -/
def daysInWeek (x : Expansion) (start : Date) : Except CalendarFault (List Date) :=
  (fun week => week.filter fun d => x.wantsWeekday d.weekday) <$>
    (List.range 7).mapM fun (offset : Nat) => start.addDays offset

/-- The selected dates of a single day. -/
def daysInDay (x : Expansion) (start : Date) : List Date :=
  if x.fields.byDay.isEmpty || x.fields.weekdays.contains start.weekday then [start] else []

/-- Whether the filters on months and on days of the month let a date pass. -/
def passesFilters (x : Expansion) (d : Date) : Bool :=
  (x.fields.byMonth.val.isEmpty || x.fields.byMonth.val.any fun month => month.val = d.month) &&
    (x.fields.byMonthDay.isEmpty || x.fields.byMonthDay.any fun day => day.val = d.day)

/-- The dates that the parts name in the period that starts on a date, in any order. -/
def namedDays (x : Expansion) (start : Date) : Except CalendarFault (List Date) :=
  match x.fields.freq with
  | .yearly => x.daysInYear start
  | .monthly => x.daysInMonth start
  | .weekly => x.daysInWeek start
  | .daily => .ok (x.daysInDay start)

/-- The selected dates of the period that starts on a date, in ascending order. -/
def days (x : Expansion) (start : Date) : Except CalendarFault (List Date) :=
  (fun named => Date.ascending (named.filter x.passesFilters)) <$> x.namedDays start

end Expansion

end Recurrence
