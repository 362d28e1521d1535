import Recurrence.Text.Blank
import Recurrence.Text.Numeral

/-!
# Integers in documents

The spellings of an integer that a document may hold in a text. The plain one has digits without a
leading zero, after a minus sign if the integer is negative. Every other one is cut down to a plain
one first.

* `IntegerText.read`: the integer that a text spells.
-/

namespace Recurrence.IntegerText

/-- Why a text spells no integer. -/
inductive Fault where
  | malformed
  /-- There are more characters in the sign and the digits than a numeral may have. -/
  | tooLong
deriving DecidableEq

/-! ## Plain spellings -/

/-- The integer of a plain spelling. One that is too long is so whatever follows its digits. -/
def readPlain (text : List Char) : Except Fault Int :=
  let (negative, body) :=
    match text with
    | '-' :: rest => (true, rest)
    | rest => (false, rest)
  let (digits, rest) := body.span Char.isDigit
  if digits.isEmpty || (digits.head? == some '0' && body != ['0']) then .error .malformed
  else if Text.numeralLimit < digits.length + (if negative then 1 else 0) then .error .tooLong
  else if !rest.isEmpty then .error .malformed
  else
    let value := Decimal.value (digits.map Decimal.digitValue)
    .ok (if negative then -(value : Int) else value)

/-! ## Other spellings -/

/-- Whether a character begins a plain spelling other than a zero alone. -/
def isPlainHead (c : Char) : Bool := c == '-' || ('1' ≤ c && c ≤ '9')

/-- What remains behind leading zeros and the underscores among them, where `last` is the latest of
these characters. It stays if nothing remains or a point follows. -/
def skipZeros (last : Char) : List Char → Option (List Char)
  | [] => some [last]
  | c :: rest =>
    if c == '0' || c == '_' then skipZeros c rest
    else if c == '.' then some (last :: c :: rest)
    else if isPlainHead c then some (c :: rest)
    else none

/-- A text without sign and without leading zeros. It has to begin with a digit. -/
def dropZeros : List Char → Option (List Char)
  | [] => none
  | c :: rest =>
    if c == '0' then skipZeros c rest else if c.isDigit then some (c :: rest) else none

/-- A text without leading zeros, also behind a minus sign. -/
def dropSignedZeros : List Char → Option (List Char)
  | '-' :: rest => (dropZeros rest).map ('-' :: ·)
  | text => dropZeros text

/-- A text without a plus sign at its front, which a minus sign must not follow. -/
def dropPlus : List Char → Option (List Char)
  | '+' :: '-' :: _ => none
  | '+' :: rest => some rest
  | text => some text

/-- A text without a fraction of zeros. -/
def dropFraction (text : List Char) : List Char :=
  let (whole, fraction) := text.span (· != '.')
  let zeros := fraction.drop 1
  if !zeros.isEmpty && zeros.all (· == '0') then whole else text

/-- Whether two underscores meet. -/
def hasDoubleUnderscore : List Char → Bool
  | '_' :: '_' :: _ => true
  | _ :: rest => hasDoubleUnderscore rest
  | [] => false

/-- A text without underscores, unless one stands at an end or two of them meet. -/
def dropUnderscores (text : List Char) : List Char :=
  if text.head? == some '_' || text.getLast? == some '_' || hasDoubleUnderscore text then text
  else text.filter (· != '_')

/-- A text cut down to a plain spelling, if it is near one. -/
def simplify (text : List Char) : Option (List Char) := do
  let text ← dropPlus (Text.stripBy Text.isNumeralBlank text)
  let text ← dropSignedZeros text
  some (dropUnderscores (dropFraction text))

/-- The integer that a text spells. -/
def read (text : List Char) : Except Fault Int :=
  match readPlain text with
  | .error .malformed =>
    match simplify text with
    | some plain => readPlain plain
    | none => .error .malformed
  | answer => answer

end Recurrence.IntegerText
