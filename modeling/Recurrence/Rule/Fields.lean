import Recurrence.Calendar.Period
import Recurrence.Moment.Basic
import Recurrence.Positive

/-!
# Rule parts

The parts of a recurrence rule: how often it repeats, where it ends, which months and days it
selects, and which occurrences it leaves out.

* `Fields.orderedKeys`: the keys of the parts that are present, in the order in which they were
  given and then in canonical order.
-/

namespace Recurrence

/-! ## Keys -/

/-- The keys of rule text. -/
inductive Key where
  | freq
  | interval
  | count
  | ending
  | byMonth
  | byMonthDay
  | byDay
  | exdate
deriving DecidableEq

namespace Key

/-- All keys, in canonical order. -/
def canonical : List Key :=
  [freq, interval, count, ending, byMonth, byMonthDay, byDay, exdate]

/-- The usual order of keys has all of them. -/
theorem mem_canonical (key : Key) : key ∈ canonical := by
  cases key <;> decide

/-- The spelling of a key. -/
def name : Key → String
  | freq => "FREQ"
  | interval => "INTERVAL"
  | count => "COUNT"
  | ending => "UNTIL"
  | byMonth => "BYMONTH"
  | byMonthDay => "BYMONTHDAY"
  | byDay => "BYDAY"
  | exdate => "EXDATE"

/-- The key with a spelling. -/
def ofName? (name : List Char) : Option Key :=
  canonical.find? fun key => key.name.toList == name

end Key

/-! ## Values -/

/-- A month of the year. -/
abbrev MonthNumber := { n : Nat // 1 ≤ n ∧ n ≤ 12 }

/-- An integer as a month. -/
def MonthNumber.ofInt? (n : Int) : Option MonthNumber :=
  if h : 1 ≤ n ∧ n ≤ 12 then some ⟨n.toNat, by omega⟩ else none

/-- An integer is taken for the number of a month just if it is that. -/
theorem MonthNumber.ofInt?_eq_some {n : Int} {month : MonthNumber} :
    ofInt? n = some month ↔ n = month.val := by
  unfold ofInt?
  have := month.property
  split
  · simp only [Option.some.injEq, Subtype.ext_iff]
    omega
  · simp only [reduceCtorEq, false_iff]
    omega

/-- A day that some month has. -/
abbrev MonthDay := { n : Nat // 1 ≤ n ∧ n ≤ 31 }

/-- An integer as a day of the month. -/
def MonthDay.ofInt? (n : Int) : Option MonthDay :=
  if h : 1 ≤ n ∧ n ≤ 31 then some ⟨n.toNat, by omega⟩ else none

/-- An integer is taken for a day of the month just if it is that. -/
theorem MonthDay.ofInt?_eq_some {n : Int} {day : MonthDay} :
    ofInt? n = some day ↔ n = day.val := by
  unfold ofInt?
  have := day.property
  split
  · simp only [Option.some.injEq, Subtype.ext_iff]
    omega
  · simp only [reduceCtorEq, false_iff]
    omega

/-- Months of the year, each at most once. -/
abbrev MonthList := { months : List MonthNumber // months.Nodup }

def MonthList.empty : MonthList := ⟨[], List.nodup_nil⟩

/-- A weekday with an ordinal. Ordinal zero selects every such weekday of a span, `n` the `n`-th
from its start and `-n` the `n`-th from its end. -/
structure DayEntry where
  ordinal : Int
  weekday : Weekday
deriving DecidableEq

/-- A moment together with the shape of the token that spells it. -/
structure DateToken where
  moment : Moment
  /-- The token spells a date alone. -/
  dateOnly : Bool
  /-- The token is marked as UTC. -/
  utc : Bool
deriving DecidableEq

/-! ## Fields -/

/-- The parts of a rule. -/
structure Fields where
  freq : Frequency
  interval : Option Positive
  count : Option Positive
  ending : Option DateToken
  byMonth : MonthList
  byMonthDay : List MonthDay
  byDay : List DayEntry
  exdates : List DateToken
  /-- The keys in the order in which they were given. -/
  keyOrder : List Key
  /-- Days of the month and weekdays are not combined. -/
  dayFilters : byMonthDay = [] ∨ byDay = []
deriving DecidableEq

namespace Fields

/-- Where neither is listed, days of the month and weekdays are not combined. -/
theorem noDayFilters : ([] : List MonthDay) = [] ∨ ([] : List DayEntry) = [] := .inl rfl

/-- The number of periods from one that is visited to the next. -/
def step (fields : Fields) : Positive := fields.interval.getD .one

/-- The weekdays of the entries. -/
def weekdays (fields : Fields) : List Weekday := fields.byDay.map (·.weekday)

/-- Whether a part is present. -/
def has (fields : Fields) : Key → Bool
  | .freq => true
  | .interval => fields.interval.isSome
  | .count => fields.count.isSome
  | .ending => fields.ending.isSome
  | .byMonth => !fields.byMonth.val.isEmpty
  | .byMonthDay => !fields.byMonthDay.isEmpty
  | .byDay => !fields.byDay.isEmpty
  | .exdate => !fields.exdates.isEmpty

/-- The keys of the present parts: those given first, in their order, and then the others in
canonical order. -/
def orderedKeys (fields : Fields) : List Key :=
  let given := fields.keyOrder.filter fields.has
  given ++ Key.canonical.filter fun key => !given.contains key && fields.has key

end Fields

end Recurrence
