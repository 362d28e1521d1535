import Recurrence.Text.Blank
import Recurrence.Text.Decimal
import Recurrence.Text.Digit

/-!
# Numerals in free text

Integers as people type them: decimal digits of any script, a sign, single underscores between
digits, and white space around it all.
-/

namespace Recurrence.Text

/-- Why a text is no numeral. -/
inductive NumeralFault where
  | malformed
  /-- The text has more digits than a numeral may have. -/
  | tooLong (digits : Nat)
deriving DecidableEq

/-- The largest number of digits of a numeral. -/
def numeralLimit : Nat := 4300

/-- The digits that continue a numeral, each after at most one underscore, and what follows
them. -/
def takeDigits : List Char → List Nat × List Char
  | '_' :: c :: rest =>
    match digitValue? c with
    | some d => let (digits, left) := takeDigits rest; (d :: digits, left)
    | none => ([], '_' :: c :: rest)
  | c :: rest =>
    match digitValue? c with
    | some d => let (digits, left) := takeDigits rest; (d :: digits, left)
    | none => ([], c :: rest)
  | [] => ([], [])

/-- The natural number that a text of digits and single underscores spells. An underscore that
does not stand between digits is a fault before a number of digits beyond the limit is. -/
def readDigits (text : List Char) : Except NumeralFault Nat :=
  let (digits, left) := takeDigits text
  if text.head? == some '_' || digits.isEmpty || left.head? == some '_' then .error .malformed
  else if numeralLimit < digits.length then .error (.tooLong digits.length)
  else if left.isEmpty then .ok (Decimal.value digits)
  else .error .malformed

/-- The integer that a text spells. -/
def readNumeral (text : List Char) : Except NumeralFault Int :=
  match stripBy isNumeralBlank text with
  | '-' :: rest => (fun n => -(n : Int)) <$> readDigits rest
  | '+' :: rest => (fun n => (n : Int)) <$> readDigits rest
  | rest => (fun n => (n : Int)) <$> readDigits rest

end Recurrence.Text
