import Recurrence.Text.Quoted

/-!
# Faults of rule text

Why a piece of rule text is refused: the cause, the key that was being read and the offending
piece, as far as known.
-/

namespace Recurrence

/-- Why the digits of a date token name no moment. -/
inductive DateFault where
  /-- The digits cannot be read as the parts of a date, or of a date and a time. -/
  | noMatch (text : String) (timed : Bool)
  /-- Some characters are left when all parts are read. -/
  | leftover (rest : String)
  | yearZero
  | noSuchDay
  | noSuchSecond
deriving DecidableEq

namespace DateFault

/-- The parts that a date token spells, as its format names them. -/
def formatName (timed : Bool) : String :=
  if timed then "%Y%m%dT%H%M%S" else "%Y%m%d"

def message : DateFault → String
  | noMatch text timed =>
    "time data " ++ Text.quoteString text ++ " does not match format '" ++ formatName timed ++ "'"
  | leftover rest => "unconverted data remains: " ++ rest
  | yearZero => "year 0 is out of range"
  | noSuchDay => "day is out of range for month"
  | noSuchSecond => "second must be in 0..59"

end DateFault

/-- The families of causes. -/
inductive RuleFaultKind where
  | general
  | unknownFrequency
  | malformedInteger
  | invalidValue
  | malformedByDay
  | malformedDate
  | unknownKey
  | duplicateKey
  | unsupportedCombination
deriving DecidableEq

/-- Why a piece of rule text is refused. -/
inductive RuleCause where
  | emptyText
  | noKeyValue
  | missingValue
  | emptyItem
  | noFrequency
  | unknownKey
  | duplicateKey
  | unknownFrequency
  | notInteger
  | notPositive
  | monthRange
  | monthRepeated
  | monthDayRange
  | malformedByDay
  | unknownWeekday
  | signWithoutOrdinal
  | dateDigits
  | dateLength
  | dateSeparator
  | dateSuffix
  | badDate (fault : DateFault)
  | dayFilters
deriving DecidableEq

namespace RuleCause

def kind : RuleCause → RuleFaultKind
  | emptyText | noKeyValue | missingValue | emptyItem | noFrequency => .general
  | unknownKey => .unknownKey
  | duplicateKey => .duplicateKey
  | unknownFrequency => .unknownFrequency
  | notInteger => .malformedInteger
  | notPositive | monthRange | monthRepeated | monthDayRange => .invalidValue
  | malformedByDay | unknownWeekday | signWithoutOrdinal => .malformedByDay
  | dateDigits | dateLength | dateSeparator | dateSuffix | badDate _ => .malformedDate
  | dayFilters => .unsupportedCombination

def message : RuleCause → String
  | emptyText => "Rule text is empty"
  | noKeyValue => "Expected KEY=VALUE segment"
  | missingValue => "Missing value"
  | emptyItem => "Empty list item"
  | noFrequency => "Rule has no frequency"
  | unknownKey => "Unknown rule key"
  | duplicateKey => "Rule key given more than once"
  | unknownFrequency => "Unknown frequency"
  | notInteger => "Expected a decimal integer"
  | notPositive => "Value must be a positive integer"
  | monthRange => "Month must be between 1 and 12"
  | monthRepeated => "Month listed more than once"
  | monthDayRange => "Day of month must be between 1 and 31"
  | malformedByDay => "Malformed BYDAY token"
  | unknownWeekday => "Unknown weekday code"
  | signWithoutOrdinal => "Sign without ordinal"
  | dateDigits => "Date token must contain only digits"
  | dateLength => "Date token has the wrong length"
  | dateSeparator => "Expected 'T' between date and time"
  | dateSuffix => "Unrecognized date token suffix"
  | badDate fault => "Invalid calendar date or time: " ++ fault.message
  | dayFilters => "BYMONTHDAY cannot be combined with BYDAY"

end RuleCause

/-- A refused piece of rule text. -/
structure RuleFault where
  cause : RuleCause
  /-- The key that was being read. -/
  key : Option String
  /-- The offending piece of text. -/
  token : Option String
deriving DecidableEq

namespace RuleFault

def kind (fault : RuleFault) : RuleFaultKind := fault.cause.kind

/-- The cause, followed by the key and the quoted piece of text in parentheses. -/
def message (fault : RuleFault) : String :=
  match fault.key, fault.token with
  | some key, some token =>
    fault.cause.message ++ " (" ++ key ++ "=" ++ Text.quoteString token ++ ")"
  | some key, none => fault.cause.message ++ " (" ++ key ++ ")"
  | none, some token => fault.cause.message ++ " (" ++ Text.quoteString token ++ ")"
  | none, none => fault.cause.message

end RuleFault

end Recurrence
