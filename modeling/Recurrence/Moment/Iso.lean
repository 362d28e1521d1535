import Recurrence.Moment.Basic

/-!
# Moments in text

The written form of dates, readings and moments, and the reader of the many forms in which they
come: calendar or week dates, times with or without colons, fractions and offsets.

* `Date.write`, `Moment.write`: the written forms, such as `2012-01-03T12:30:45.250000+05:30`.
* `Iso.read`: the stamp that a text spells.
-/

namespace Recurrence

/-! ## Writing -/

/-- The written form of a date. -/
def Date.write (d : Date) : List Char :=
  Decimal.writePadded 4 d.year ++ '-' :: Decimal.writePadded 2 d.month ++
    '-' :: Decimal.writePadded 2 d.day

/-- The written form of a time of day. The fraction stands only when it is not zero. -/
def TimeOfDay.write (t : TimeOfDay) : List Char :=
  Decimal.writePadded 2 t.hour ++ ':' :: Decimal.writePadded 2 t.minute ++
    ':' :: Decimal.writePadded 2 t.second ++
    (if t.micro == 0 then [] else '.' :: Decimal.writePadded 6 t.micro)

/-- The written form of a moment: its reading and its offset. -/
def Moment.write (m : Moment) : List Char :=
  m.reading.date.write ++ 'T' :: m.reading.time.write ++ Offset.write m.offset

/-- The written form of a moment as a string. -/
def Moment.toIso (m : Moment) : String := String.ofList m.write

/-- The written form of a date as a string. -/
def Date.toIso (d : Date) : String := String.ofList d.write

namespace Iso

/-! ## Reading dates -/

/-- The number that the first `count` characters spell, which are ASCII digits, and the rest. -/
def digits : (count : Nat) → (acc : Nat) → List Char → Option (Nat × List Char)
  | 0, acc, rest => some (acc, rest)
  | _ + 1, _, [] => none
  | count + 1, acc, c :: rest =>
    if c.isDigit then digits count (10 * acc + Decimal.digitValue c) rest else none

/-- The day number of the Monday that begins the first week of a year: the week that holds the
first Thursday. -/
def firstMonday (year : Nat) : Int :=
  let newYear := daysBeforeYear year
  let back := newYear % 7
  if back ≤ 3 then (newYear : Int) - back else (newYear : Int) - back + 7

/-- The date of a day of a week of a year. -/
def weekDate? (year week day : Nat) : Option Date :=
  -- The week has to begin before the first week of the next year
  if 1 ≤ year ∧ year ≤ 9999 ∧ 1 ≤ week ∧
      firstMonday year + 7 * (week - 1) < firstMonday (year + 1) ∧ 1 ≤ day ∧ day ≤ 7 then
    Date.ofDayNumber? (firstMonday year + 7 * (week - 1) + (day - 1))
  else none

/-- The length of the date in front of a text. Only week dates leave a doubt. Without hyphens, an
odd number of characters before the first that is no digit means that the weekday is given. With
them, a digit two places after the week speaks for a time that a hyphen divides from the date. -/
def dateLength (text : List Char) : Nat :=
  if text.length = 7 then 7
  else
    match text.drop 4 with
    | '-' :: 'W' :: rest =>
      match rest.drop 2 with
      | '-' :: _ :: c :: _ => if c.isDigit then 8 else 10
      | '-' :: _ => 10
      | _ => 8
    | '-' :: _ => 10
    | 'W' :: rest =>
      let stop := 7 + ((rest.drop 2).takeWhile Char.isDigit).length
      if stop < 9 then stop else if stop % 2 = 0 then 7 else 8
    | _ => 8

/-- A date of exactly the given text. -/
def readDate (text : List Char) : Option Date := do
  let (year, rest) ← digits 4 0 text
  match rest with
  -- Dates of a week, with hyphens and without
  | '-' :: 'W' :: rest =>
    let (week, rest) ← digits 2 0 rest
    match rest with
    | [] => weekDate? year week 1
    | '-' :: rest =>
      let (day, _) ← digits 1 0 rest
      weekDate? year week day
    | _ => none
  | 'W' :: rest =>
    let (week, rest) ← digits 2 0 rest
    match rest with
    | [] => weekDate? year week 1
    | rest =>
      let (day, _) ← digits 1 0 rest
      weekDate? year week day
  -- Dates of a month, with hyphens and without
  | '-' :: rest =>
    let (month, rest) ← digits 2 0 rest
    match rest with
    | '-' :: rest =>
      let (day, _) ← digits 2 0 rest
      Date.of? year month day
    | _ => none
  | rest =>
    let (month, rest) ← digits 2 0 rest
    let (day, _) ← digits 2 0 rest
    Date.of? year month day

/-! ## Reading times and offsets -/

/-- What a clock text spells: hours, minutes and seconds as far as given, a fraction, and whether
the text ends there. -/
structure ClockText where
  units : List Nat
  micro : Nat
  complete : Bool

namespace ClockText

/-- The value of a unit; one that is not given is zero. -/
def unit (c : ClockText) (i : Nat) : Nat := (c.units[i]?).getD 0

end ClockText

/-- Whether a clock text may stop before these characters: the end, or a null character. -/
def atEnd (rest : List Char) : Bool :=
  match rest with
  | [] => true
  | c :: _ => c == '\x00'

/-- A fraction: at most six digits count, and further digits are passed over. -/
def readFraction (units : List Nat) (text : List Char) : Option ClockText := do
  let count := min 6 text.length
  let (value, rest) ← digits count 0 text
  some ⟨units, value * Nat.pow 10 (6 - count), atEnd (rest.dropWhile Char.isDigit)⟩

/-- The units of a clock, at most `count` more. After the first unit a colon decides whether all
units are divided by colons. -/
def readUnits : (count : Nat) → (colons : Option Bool) → List Nat → List Char → Option ClockText
  | 0, _, units, text => readFraction units text
  | count + 1, colons, units, text => do
    let (value, rest) ← digits 2 0 text
    let units := units ++ [value]
    match rest with
    | [] => some ⟨units, 0, true⟩
    -- One character alone begins no further unit
    | [c] => if c.toNat < 128 then some ⟨units, 0, c == '\x00'⟩ else none
    | c :: rest =>
      -- What follows the first unit settles the form of the whole text
      let colons := colons.getD (c == ':')
      if colons && c == ':' then readUnits count (some colons) units rest
      else if c == '.' || c == ',' then readFraction units rest
      else if !colons then readUnits count (some colons) units (c :: rest)
      else none

/-- A clock text with at least hours. -/
def readClock (text : List Char) : Option ClockText := readUnits 3 none [] text

/-- An offset text after its sign, in microseconds. It stays below a day. -/
def readOffset (negative : Bool) (text : List Char) : Option Zone := do
  let clock ← readClock text
  let seconds := (clock.unit 0 * 60 + clock.unit 1) * 60 + clock.unit 2
  let ticks : Int := seconds * ticksPerSecond + clock.micro
  if !clock.complete || !(ticks < ticksPerDay) then none
  -- Microseconds alone make no offset
  else if seconds = 0 then some .zero
  else some (.ofWritten (if negative then -ticks else ticks))

/-- Whether a character begins an offset. -/
def isOffsetMark (c : Char) : Bool := c == '+' || c == '-' || c == 'Z'

/-- A time of day, and the zone of its offset if one follows. What stands between a time that is
read far enough and an offset is passed over. -/
def readTime (text : List Char) : Option (TimeOfDay × Option Zone) := do
  let (front, back) := text.span fun c => !isOffsetMark c
  let clock ← readClock front
  let zone ←
    match back with
    -- Without an offset nothing may be left
    | [] => if clock.complete then some none else none
    | 'Z' :: rest => if atEnd rest then some (some Zone.zero) else none
    | sign :: rest => (readOffset (sign == '-') rest).map some
  let time ← TimeOfDay.of? (clock.unit 0) (clock.unit 1) (clock.unit 2) clock.micro
  some (time, zone)

/-- The stamp that a text spells: a date, and after any one character a time. -/
def read (text : List Char) : Option Stamp := do
  let length := dateLength text
  let date ← readDate (text.take length)
  match text.drop length with
  | [] => some ⟨⟨date, .midnight⟩, false, none⟩
  | _ :: rest =>
    let (time, zone) ← readTime rest
    some ⟨⟨date, time⟩, false, zone⟩

end Iso

end Recurrence
