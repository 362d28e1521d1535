import Recurrence.Document.Json
import Recurrence.Text.Split

/-!
# Plain values

Values without quotation marks in settings: words, numerals of several bases, and texts.

* `PlainValue.read`: the value of a plain text.
-/

namespace Recurrence.PlainValue

/-! ## Words -/

/-- The words for null and the truth values, in small letters. -/
def words : List (String × Document) :=
  [("null", .null), ("true", .bool true), ("yes", .bool true), ("on", .bool true),
    ("false", .bool false), ("no", .bool false), ("off", .bool false)]

/-- The spellings of a word: in small letters, with a capital, and in capitals. -/
def casings (word : List Char) : List (List Char) :=
  [word, word.modifyHead Char.toUpper, word.map Char.toUpper]

/-- The value of a word. An empty text and a tilde stand for null. -/
def readWord (text : List Char) : Option Document :=
  if text == [] || text == ['~'] then some .null
  else (words.find? fun word => (casings word.1.toList).contains text).map (·.2)

/-! ## Numerals

Underscores may stand anywhere behind the first digit and do not count. -/

/-- Whether a character is an underscore or a digit of a base. -/
def isDigitOf (base : Nat) (c : Char) : Bool :=
  c == '_' || (Json.hexValue? c).any (· < base)

/-- The number that the digits of a base spell. -/
def valueIn (base : Nat) (digits : List Char) : Nat :=
  (digits.filterMap Json.hexValue?).foldl (fun acc d => base * acc + d) 0

/-- The digits of a whole number behind the mark of a base, and the base. A zero alone is no
mark. -/
def splitBase : List Char → Option (Nat × List Char)
  | '0' :: 'b' :: digits => some (2, digits)
  | '0' :: 'x' :: digits => some (16, digits)
  | '0' :: c :: digits => some (8, c :: digits)
  | _ => none

/-- A whole number with the mark of a base. The digits may all be underscores, but then they spell
no number unless zero is the mark. -/
def readBased (text : List Char) : Option (Except Text.NumeralFault Nat) := do
  let (base, digits) ← splitBase text
  if digits.isEmpty || !digits.all (isDigitOf base) then none
  else if base ≠ 8 && digits.all (· == '_') then some (.error .malformed)
  else some (.ok (valueIn base digits))

/-- Whether a text is a part of a number after a colon, below sixty. -/
def isSixtieth (text : List Char) : Bool :=
  match text with
  | [c] => c.isDigit
  | [c, d] => '0' ≤ c && c ≤ '5' && d.isDigit
  | _ => false

/-- The pieces of a number: its parts between colons, each worth sixty of the next, the digits of
its fraction, if there is a point, and its exponent. -/
structure Pieces where
  head : List Char
  tail : List (List Char)
  fraction : Option (List Char)
  exponent : Int

namespace Pieces

/-- An exponent has a sign. -/
def readExponent : List Char → Option Int
  | [] => some 0
  | e :: sign :: digits =>
    if (e == 'e' || e == 'E') && (sign == '+' || sign == '-') then
      Json.readExponent (sign :: digits)
    else none
  | _ => none

/-- The fraction and the exponent behind the point. -/
def readFraction (text : List Char) : Option (List Char × Int) := do
  let (digits, rest) := text.span (isDigitOf 10)
  some (digits, ← readExponent rest)

/-- The pieces of a number without a sign. -/
def ofText? (text : List Char) : Option Pieces := do
  let (whole, rest) := text.span (· != '.')
  match Text.split ':' whole with
  | [] => none
  | head :: tail =>
    if !(head.head?.any Char.isDigit && head.all (isDigitOf 10) && tail.all isSixtieth) then none
    match rest with
    | [] => some ⟨head, tail, none, 0⟩
    | _ :: rest =>
      let (fraction, exponent) ← readFraction rest
      -- Parts of sixty go without an exponent
      if !tail.isEmpty && !rest.all (isDigitOf 10) then none
      some ⟨head, tail, some fraction, exponent⟩

/-- The number before the point. -/
def whole (p : Pieces) : Nat :=
  p.tail.foldl (fun acc part => 60 * acc + valueIn 10 part) (valueIn 10 p.head)

/-- The value of the pieces. An integer has no zero in front, and no more digits than a numeral may
have. -/
def value (negative : Bool) (p : Pieces) : Option (Except Text.NumeralFault Document) :=
  match p.fraction with
  -- A point makes the number real, also with nothing behind it
  | some fraction =>
    let digits := fraction.filter Char.isDigit
    let all := p.whole * Nat.pow 10 digits.length + valueIn 10 digits
    some (.ok (.real (.ofDecimal negative all (p.exponent - digits.length))))
  | none =>
    let size := (p.head.filter Char.isDigit).length
    if p.head.head? == some '0' && !(p.head == ['0'] && p.tail.isEmpty) then none
    else if Text.numeralLimit < size then some (.error (.tooLong size))
    else some (.ok (.int (if negative then -(p.whole : Int) else p.whole)))

end Pieces

/-- The number that a text without a sign spells. -/
def readUnsigned (negative : Bool) (text : List Char) :
    Option (Except Text.NumeralFault Document) :=
  match readBased text with
  | some (.error fault) => some (.error fault)
  | some (.ok n) => some (.ok (.int (if negative then -(n : Int) else n)))
  | none => Pieces.ofText? text >>= Pieces.value negative

/-- The number that a text spells. Only without a sign may it begin with the point. -/
def readNumber : List Char → Option (Except Text.NumeralFault Document)
  | '-' :: rest => readUnsigned true rest
  | '+' :: rest => readUnsigned false rest
  | '.' :: c :: rest => if c.isDigit then readUnsigned false ('0' :: '.' :: c :: rest) else none
  | text => readUnsigned false text

/-- The value of a plain text. -/
def read (text : List Char) : Except Text.NumeralFault Document :=
  match readWord text with
  | some document => .ok document
  | none => (readNumber text).getD (.ok (.text (String.ofList text)))

end Recurrence.PlainValue
