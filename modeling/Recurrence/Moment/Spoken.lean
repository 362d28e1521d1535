import Recurrence.Moment.When
import Recurrence.Text.Split
import Recurrence.Zone.Almanac

/-!
# Spoken dates

A reader of spoken moments that knows one form, which means the same at all times: day, English
month, year, and the time on a clock with 24 hours, such as `3 January 2012 14:00`.

* `Spoken.read`: the reading that a text spells.
* `Spoken.reader`: the reader of such texts.
-/

namespace Recurrence.Spoken

/-- The English names of the months, in order and in small letters. -/
def monthNames : List String :=
  ["january", "february", "march", "april", "may", "june", "july", "august", "september",
    "october", "november", "december"]

/-- The number of a month's name, counted from one. Letter case does not count. -/
def readMonth (name : List Char) : Option Nat :=
  let lower := name.map Char.toLower
  (monthNames.findIdx? fun month => month.toList == lower).map (· + 1)

/-- The number that one or two ASCII digits spell. -/
def readShort (text : List Char) : Option Nat :=
  if text.all Char.isDigit && (text.length = 1 || text.length = 2) then
    some (Decimal.value (text.map Decimal.digitValue))
  else none

/-- The reading that a text spells. More than one space between words is as good as one. -/
def read (text : List Char) : Option Reading :=
  match (Text.split ' ' text).filter (!·.isEmpty) with
  | [day, month, year, time] =>
    match Text.split ':' time with
    | [hour, minute] => do
      if year.length ≠ 4 || !year.all Char.isDigit then none
      let date ← Date.of? (Decimal.value (year.map Decimal.digitValue)) (← readMonth month)
        (← readShort day)
      let time ← TimeOfDay.of? (← readShort hour) (← readShort minute) 0 0
      some ⟨date, time⟩
    | _ => none
  | _ => none

/-- The reader of this form. It takes the offset of a reading from the almanac, so the clocks of the
zone may show another reading at its instant. -/
instance reader [ZoneDatabase] : SpokenReader where
  read text zoneName := .ok <| (read text.toList).map fun reading =>
    ⟨reading, .written (Zone.almanacOffset zoneName reading), false⟩

end Recurrence.Spoken
