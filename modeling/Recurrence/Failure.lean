import Recurrence.Calendar.Date
import Recurrence.Document.Check
import Recurrence.Rule.Fault

/-!
# Failures

Everything that can keep the library from an answer, as causes. The wording of a failure is
`Failure.message`.

Two readers of texts do not belong to the library: that of spoken moments and that of settings. What
they fail with is told by `SpokenFault` and `SettingsFault`.
-/

namespace Recurrence

/-- Why a reader of spoken moments fails on a text. Finding no moment in it is no failure. -/
inductive SpokenFault where
  /-- The text or the name of the zone is a bad value. -/
  | badValue (message : String)
  /-- Something is of the wrong kind. -/
  | wrongKind (message : String)
  /-- Whatever else the reader fails with, such as a moment outside its calendar. -/
  | other (name : String)
deriving DecidableEq

/-- Why a settings text cannot be read. -/
inductive SettingsFault where
  /-- The text holds a character that settings never hold. -/
  | forbiddenCharacter
  /-- A character or a word stands where nothing of its kind can begin or end. -/
  | misplaced
  /-- The pieces of the text do not fit together. -/
  | disordered
  /-- A numeral without quotation marks cannot be read. -/
  | numeral (fault : Text.NumeralFault)
  /-- Whatever else the reader fails with. -/
  | other (name : String)
deriving DecidableEq

inductive Failure where
  /-- A piece of rule text is refused. -/
  | rule (fault : RuleFault)
  /-- A document has issues. -/
  | invalid (issues : List Issue)
  /-- A question about occurrences was put to a rule without an anchor. -/
  | noAnchor
  /-- A text names no moment. -/
  | unreadableMoment (text : String)
  /-- The reader of spoken moments fails. -/
  | spoken (fault : SpokenFault)
  /-- A value that is neither a stamp nor a text was given for a moment. -/
  | notMoment
  | unknownZone (name : String)
  | lookaheadTooSmall
  /-- A rule cannot be made from a document of this kind. -/
  | unusableSource (kind : Document.Kind)
  /-- A calculation left the calendar. -/
  | calendar (fault : CalendarFault)
  /-- An integer has too many digits to be read. -/
  | numeralTooLong (digits : Nat)
  /-- An integer has too many digits to be written. -/
  | numeralTooLarge
  /-- A text is no integer. -/
  | malformedNumeral (text : String)
  /-- A document of this kind is no number. -/
  | notNumber (kind : Document.Kind)
  /-- An infinite number has no integer part. -/
  | infiniteNumber
  /-- A limit or a count is larger than any list can be long. -/
  | limitTooLarge
  | ruleTextRequired
  | startRequired
  /-- There is no settings file to delete. -/
  | noSettingsFile
  /-- The settings file holds no document. -/
  | unreadableSettings (fault : SettingsFault)
deriving DecidableEq

namespace Failure

/-- The name of a document's kind in messages. -/
def kindName : Document.Kind → String
  | .null => "NoneType"
  | .bool => "bool"
  | .int => "int"
  | .real => "float"
  | .text => "str"
  | .stamp => "datetime"
  | .list => "list"
  | .object => "dict"

/-- A text between quotation marks, cut after 200 characters. -/
def quoteShort (text : String) : String := String.ofList ((Text.quote text.toList).take 200)

/-- The wording of a failure. Some failures have none of their own. -/
def message : Failure → String
  | rule fault => fault.message
  | invalid issues =>
    String.ofList (Decimal.write issues.length) ++
      (if issues.length = 1 then " validation error" else " validation errors")
  | noAnchor => "Occurrence queries need an anchor start"
  | unreadableMoment text => "Unable to parse datetime value '" ++ text ++ "'"
  | spoken (.badValue message) => message
  | spoken (.wrongKind message) => message
  | spoken (.other _) => ""
  | notMoment => ""
  | unknownZone name => "Invalid timezone '" ++ name ++ "'"
  | lookaheadTooSmall => "lookahead_years must be at least 1"
  | unusableSource kind => "Cannot build a recurrence rule from " ++ kindName kind
  | calendar (.noSuchYear year) =>
    "year " ++ String.ofList (Decimal.writeInt year) ++ " is out of range"
  | calendar .overflow => "date value out of range"
  | numeralTooLong digits =>
    "Exceeds the limit (" ++ String.ofList (Decimal.write Text.numeralLimit) ++
      " digits) for integer string conversion: value has " ++
      String.ofList (Decimal.write digits) ++
      " digits; use sys.set_int_max_str_digits() to increase the limit"
  | numeralTooLarge =>
    "Exceeds the limit (" ++ String.ofList (Decimal.write Text.numeralLimit) ++
      " digits) for integer string conversion; use sys.set_int_max_str_digits() to " ++
      "increase the limit"
  | malformedNumeral text => "invalid literal for int() with base 10: " ++ quoteShort text
  | notNumber kind =>
    "int() argument must be a string, a bytes-like object or a real number, not '" ++
      kindName kind ++ "'"
  | infiniteNumber => "cannot convert float infinity to integer"
  | limitTooLarge =>
    "Stop argument for islice() must be None or an integer: 0 <= x <= sys.maxsize."
  | ruleTextRequired => "Rule text (rule) is required"
  | startRequired => "Anchor start (start) is required"
  | noSettingsFile => ""
  | unreadableSettings _ => ""

end Failure

/-- A calculation that left the calendar is a failure. -/
def orFail {α : Type} : Except CalendarFault α → Except Failure α
  | .ok value => .ok value
  | .error fault => .error (.calendar fault)

end Recurrence
