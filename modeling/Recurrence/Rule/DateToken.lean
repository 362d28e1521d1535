import Recurrence.Failure
import Recurrence.Rule.Fields

/-!
# Date tokens

The compact spelling of dates and moments in rule text: `20120103` for a date, `20120103T123045`
for a reading and `20120103T123045Z` for a moment in UTC.

* `DateToken.read`: the token that a text spells in a zone.
* `DateToken.write`: the spelling of a token in a zone.
-/

namespace Recurrence

namespace DateToken

/-! ## Numeric parts

A numeric part has several spellings, tried in order. A later one is taken when what follows cannot
be read otherwise. -/

/-- The digit values that a character class allows. -/
abbrev DigitClass := Char → Option Nat

/-- The ASCII digits between two values. -/
def asciiDigit (least greatest : Nat) : DigitClass := fun c =>
  if c.isDigit && least ≤ Decimal.digitValue c && Decimal.digitValue c ≤ greatest then
    some (Decimal.digitValue c)
  else none

/-- Any decimal digit. -/
def anyDigit : DigitClass := Text.digitValue?

/-- A character that stands for itself. -/
def literal (c : Char) : DigitClass := fun d => if d == c then some 0 else none

/-- A numeric part: its spellings, as sequences of classes. -/
abbrev Part := List (List DigitClass)

def yearPart : Part := [[anyDigit, anyDigit, anyDigit, anyDigit]]

def monthPart : Part :=
  [[asciiDigit 1 1, asciiDigit 0 2], [asciiDigit 0 0, asciiDigit 1 9], [asciiDigit 1 9]]

def dayPart : Part :=
  [[asciiDigit 3 3, asciiDigit 0 1], [asciiDigit 1 2, anyDigit], [asciiDigit 0 0, asciiDigit 1 9],
    [asciiDigit 1 9]]

def separatorPart : Part := [[literal 'T']]

def hourPart : Part :=
  [[asciiDigit 2 2, asciiDigit 0 3], [asciiDigit 0 1, anyDigit], [anyDigit]]

def minutePart : Part := [[asciiDigit 0 5, anyDigit], [anyDigit]]

def secondPart : Part := [[asciiDigit 6 6, asciiDigit 0 1], [asciiDigit 0 5, anyDigit], [anyDigit]]

/-- The number that a text spells in a sequence of classes, and the rest of the text. -/
def readClasses : List DigitClass → (acc : Nat) → List Char → Option (Nat × List Char)
  | [], acc, rest => some (acc, rest)
  | _ :: _, _, [] => none
  | digit :: digits, acc, c :: rest =>
    match digit c with
    | some value => readClasses digits (10 * acc + value) rest
    | none => none

/-- All readings of a text as a sequence of parts, in order of preference. -/
def readParts : List Part → List Char → List (List Nat × List Char)
  | [], rest => [([], rest)]
  | part :: parts, text =>
    (part.filterMap fun classes => readClasses classes 0 text).flatMap fun (value, rest) =>
      (readParts parts rest).map fun (values, left) => (value :: values, left)

/-- The parts of a date, and of a date with a time. -/
def parts (timed : Bool) : List Part :=
  [yearPart, monthPart, dayPart] ++
    if timed then [separatorPart, hourPart, minutePart, secondPart] else []

/-- The reading with these parts. -/
def readingOf (values : List Nat) : Except DateFault Reading :=
  match values with
  | year :: month :: day :: time =>
    match Date.of? year month day with
    | none => .error (if year = 0 then .yearZero else .noSuchDay)
    | some date =>
      match time with
      | [_, hour, minute, second] =>
        match TimeOfDay.of? hour minute second 0 with
        | none => .error .noSuchSecond
        | some time => .ok ⟨date, time⟩
      | _ => .ok ⟨date, .midnight⟩
  | _ => .error .noSuchDay

/-- The reading that a text spells. -/
def readReading (timed : Bool) (text : List Char) : Except DateFault Reading :=
  match readParts (parts timed) text with
  | [] => .error (.noMatch (String.ofList text) timed)
  | (values, rest) :: _ =>
    if rest.isEmpty then readingOf values else .error (.leftover (String.ofList rest))

/-! ## Tokens -/

/-- The token that a text spells. A date alone is midnight in the zone, and a reading without the
mark of UTC belongs to the zone. -/
def read (zone : Zone) (key : Option String) (text : List Char) : Except Failure DateToken := do
  let refuse {α : Type} (cause : RuleCause) (text : List Char) : Except Failure α :=
    .error (.rule ⟨cause, key, some (String.ofList text)⟩)
  let reading (timed : Bool) (text : List Char) : Except Failure Reading :=
    match readReading timed text with
    | .ok reading => .ok reading
    | .error fault => refuse (.badDate fault) text
  -- The length decides the form before any character does
  if text.length = 8 then
    if !text.all Text.isDigitLike then refuse .dateDigits text
    else do
      let reading ← reading false text
      return ⟨⟨reading, zone, false⟩, true, false⟩
  else if text.length ≠ 15 ∧ text.length ≠ 16 then refuse .dateLength text
  else if text[8]? ≠ some 'T' then refuse .dateSeparator text
  else if !((text.take 8).all Text.isDigitLike && ((text.drop 9).take 6).all Text.isDigitLike) then
    refuse .dateDigits text
  else
    -- What stands after the seconds decides the zone
    match text.drop 15 with
    | [] => do
      let reading ← reading true text
      return ⟨⟨reading, zone, false⟩, false, false⟩
    | ['Z'] => do
      let reading ← reading true (text.take 15)
      return ⟨⟨reading, .zero, false⟩, false, true⟩
    | _ => refuse .dateSuffix text

/-- The spelling of a date. The year has no leading zeros. -/
def writeDate (d : Date) : List Char :=
  Decimal.write d.year ++ Decimal.writePadded 2 d.month ++ Decimal.writePadded 2 d.day

/-- The spelling of a reading. -/
def writeReading (r : Reading) : List Char :=
  writeDate r.date ++ 'T' :: Decimal.writePadded 2 r.time.hour ++
    Decimal.writePadded 2 r.time.minute ++ Decimal.writePadded 2 r.time.second

/-- The spelling of a token on the clocks of a zone. -/
def write (zone : Zone) (token : DateToken) : Except CalendarFault (List Char) :=
  if token.dateOnly then (fun m => writeDate m.date) <$> token.moment.inZone zone
  else if token.utc then (fun m => writeReading m.reading ++ ['Z']) <$> token.moment.inUtc
  else (fun m => writeReading m.reading) <$> token.moment.inZone zone

end DateToken

end Recurrence
