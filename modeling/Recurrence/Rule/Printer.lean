import Recurrence.Failure
import Recurrence.Rule.DateToken
import Recurrence.Text.Split

/-!
# Writing rule text

The text of a rule's parts: one `KEY=VALUE` segment for each present part, in the order of
`Fields.orderedKeys`.
-/

namespace Recurrence

/-- An entry's weekday code, after its ordinal unless that is zero. -/
def DayEntry.write (entry : DayEntry) : List Char :=
  (if entry.ordinal = 0 then [] else Decimal.writeInt entry.ordinal) ++ entry.weekday.code.toList

/-- The spelling of a number. One with more digits than a numeral may have is not written. -/
def spellNumber (n : Nat) (spelling : List Char) : Except Failure (List Char) :=
  if (Decimal.write n).length ≤ Text.numeralLimit then .ok spelling else .error .numeralTooLarge

/-- The spelling of a positive integer, which is empty without one. -/
def spellPositive : Option Positive → Except Failure (List Char)
  | none => .ok []
  | some n => spellNumber n.val (Decimal.write n.val)

namespace Fields

/-- The value of a key in rule text. -/
def writeValue (zone : Zone) (fields : Fields) : Key → Except Failure (List Char)
  | .freq => .ok fields.freq.name.toList
  | .interval => spellPositive fields.interval
  | .count => spellPositive fields.count
  | .ending =>
    match fields.ending with
    | none => .ok []
    | some token => orFail (token.write zone)
  | .byMonth => .ok (Text.join ',' (fields.byMonth.val.map fun n => Decimal.write n.val))
  | .byMonthDay => .ok (Text.join ',' (fields.byMonthDay.map fun n => Decimal.write n.val))
  | .byDay => Text.join ',' <$> fields.byDay.mapM fun entry =>
    spellNumber entry.ordinal.natAbs entry.write
  | .exdate => orFail (Text.join ',' <$> fields.exdates.mapM (DateToken.write zone))

/-- The segment of a key. -/
def writeSegment (zone : Zone) (fields : Fields) (key : Key) : Except Failure (List Char) :=
  (fun value => key.name.toList ++ '=' :: value) <$> fields.writeValue zone key

/-- The text of a rule's parts, as characters. -/
def writeChars (zone : Zone) (fields : Fields) : Except Failure (List Char) :=
  Text.join ';' <$> fields.orderedKeys.mapM (fields.writeSegment zone)

/-- The text of a rule's parts. Tokens are spelled on the clocks of the zone. -/
def write (zone : Zone) (fields : Fields) : Except Failure String :=
  String.ofList <$> fields.writeChars zone

end Fields

end Recurrence
