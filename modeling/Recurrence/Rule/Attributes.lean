import Recurrence.Document.Check
import Recurrence.Rule.Fields

/-!
# Rule parts from attributes

A rule's parts as a document gives them: an object with one attribute for each part. Issues are
gathered in the order of the attributes; the rule on day filters is checked once all attributes
are sound.
-/

namespace Recurrence

namespace Attributes

open Document

def checkFrequency : Document → Checked Frequency
  | .text name =>
    match Frequency.ofName? name.toList with
    | some freq => .ok freq
    | none => .refuse .notMember
  | _ => .refuse .notMember

/-- A weekday by its number. Whatever stands for no integer is simply no weekday. -/
def checkWeekday (document : Document) : Checked Weekday :=
  match checkInt document with
  | .error _ => .refuse .notMember
  | .ok n =>
    if fitsWord n then .orRefuse .notMember (Weekday.ofNumber? n) else .refuse .intTooLarge

def checkDayEntry (document : Document) : Checked DayEntry := do
  let entries ← checkObject document
  let (ordinal, weekday) ←
    Checked.both (optional entries "ordinal" 0 checkInt)
      (required entries "weekday" checkWeekday)
  return ⟨ordinal, weekday⟩

/-- A stamp that names its zone. -/
def checkMoment (document : Document) : Checked Moment := do
  let stamp ← checkStamp document
  match stamp.moment? with
  | some moment => .ok moment
  | none => .refuse (.brokenRule .zoneNamed)

def checkDateToken (document : Document) : Checked DateToken := do
  let entries ← checkObject document
  let (moment, dateOnly, utc) ←
    Checked.both (required entries "instant" checkMoment)
      (Checked.both (optional entries "date_only" false checkBool)
        (optional entries "utc" false checkBool))
  return ⟨moment, dateOnly, utc⟩

/-- Integers as months, or the first that is none. -/
def toMonths : List Int → Except ValueRule (List MonthNumber)
  | [] => .ok []
  | n :: rest =>
    match MonthNumber.ofInt? n with
    | some month => (month :: ·) <$> toMonths rest
    | none => .error (.monthRange n)

def checkMonths (document : Document) : Checked MonthList := do
  let numbers ← checkItems checkInt document
  match toMonths numbers with
  | .error rule => .refuse (.brokenRule rule)
  | .ok months =>
    if h : months.Nodup then .ok ⟨months, h⟩ else .refuse (.brokenRule .monthsDistinct)

/-- Integers as days of the month, or the first that is none. -/
def toMonthDays : List Int → Except ValueRule (List MonthDay)
  | [] => .ok []
  | n :: rest =>
    match MonthDay.ofInt? n with
    | some day => (day :: ·) <$> toMonthDays rest
    | none => .error (.monthDayRange n)

def checkMonthDays (document : Document) : Checked (List MonthDay) := do
  let numbers ← checkItems checkInt document
  match toMonthDays numbers with
  | .error rule => .refuse (.brokenRule rule)
  | .ok days => .ok days

def checkKeys (document : Document) : Checked (List Key) := do
  let names ← checkItems checkText document
  match names.filter fun name => (Key.ofName? name.toList).isNone with
  | [] => .ok (names.filterMap fun name => Key.ofName? name.toList)
  | unknown => .refuse (.brokenRule (.knownKeys unknown))

/-- The parts that an object of attributes gives. -/
def check (document : Document) : Checked Fields := do
  let entries ← checkObject document
  let (freq, interval, count, ending, byMonth, byMonthDay, byDay, exdates, keyOrder) ←
    Checked.both (required entries "freq" checkFrequency) <|
    Checked.both (optional entries "interval" none (nullable checkPositive)) <|
    Checked.both (optional entries "count" none (nullable checkPositive)) <|
    Checked.both (optional entries "until" none (nullable checkDateToken)) <|
    Checked.both (optional entries "by_month" .empty checkMonths) <|
    Checked.both (optional entries "by_month_day" [] checkMonthDays) <|
    Checked.both (optional entries "by_day" [] (checkItems checkDayEntry)) <|
    Checked.both (optional entries "exdates" [] (checkItems checkDateToken))
      (optional entries "key_order" [] checkKeys)
  if h : byMonthDay = [] ∨ byDay = [] then
    .ok ⟨freq, interval, count, ending, byMonth, byMonthDay, byDay, exdates, keyOrder, h⟩
  else .refuse (.brokenRule .dayFilters)

end Attributes

/-- The parts that a document gives. -/
def Fields.ofDocument (document : Document) : Checked Fields := Attributes.check document

end Recurrence
