import Recurrence.Document.Basic
import Recurrence.Text.Numeral

/-!
# Documents in text

A reader of JSON text. How a numeral is read is left to the caller, since some formats that take
JSON text over read numerals differently.

* `Json.read`: the document that a text spells.
-/

namespace Recurrence.Json

/-- Why a text is no JSON text. -/
inductive Fault where
  | malformed
  /-- A numeral cannot be read, although it is one. -/
  | numeral (fault : Text.NumeralFault)
deriving DecidableEq

/-- How the text of a numeral is read. -/
abbrev NumeralReader := List Char → Except Fault Document

/-- White space between tokens. -/
def isSpace (c : Char) : Bool := c == ' ' || c == '\t' || c == '\n' || c == '\r'

def skipSpace (text : List Char) : List Char := text.dropWhile isSpace

/-! ## Texts -/

/-- The value of a hexadecimal digit. -/
def hexValue? (c : Char) : Option Nat :=
  if c.isDigit then some (c.toNat - 48)
  else if 'a' ≤ c && c ≤ 'f' then some (c.toNat - 87)
  else if 'A' ≤ c && c ≤ 'F' then some (c.toNat - 55)
  else none

/-- The number that four hexadecimal digits spell. -/
def hexCode? (a b c d : Char) : Option Nat := do
  let a ← hexValue? a
  let b ← hexValue? b
  let c ← hexValue? c
  let d ← hexValue? d
  some (((a * 16 + b) * 16 + c) * 16 + d)

/-- The character after a backslash. -/
def simpleEscape? : Char → Option Char
  | '"' => some '"'
  | '\\' => some '\\'
  | '/' => some '/'
  | 'b' => some '\x08'
  | 'f' => some '\x0c'
  | 'n' => some '\n'
  | 'r' => some '\r'
  | 't' => some '\t'
  | _ => none

/-- Whether a code unit is the first, or the second, half of a pair. -/
def isHighHalf (code : Nat) : Bool := 0xD800 ≤ code && code < 0xDC00

def isLowHalf (code : Nat) : Bool := 0xDC00 ≤ code && code < 0xE000

/-- A code unit as a character; half a pair alone becomes the replacement character. -/
def ofCode (code : Nat) : Char :=
  if isHighHalf code || isLowHalf code then '\uFFFD' else Char.ofNat code

/-- The text up to the closing quotation mark, in reverse, and what follows the mark. -/
def readText (acc : List Char) : List Char → Option (List Char × List Char)
  | [] => none
  | '"' :: rest => some (acc, rest)
  | '\\' :: 'u' :: a :: b :: c :: d :: '\\' :: 'u' :: e :: f :: g :: h :: rest =>
    match hexCode? a b c d, hexCode? e f g h with
    | some high, some low =>
      if isHighHalf high && isLowHalf low then
        readText (Char.ofNat (0x10000 + (high - 0xD800) * 0x400 + (low - 0xDC00)) :: acc) rest
      else if isHighHalf low then
        readText (ofCode high :: acc) ('\\' :: 'u' :: e :: f :: g :: h :: rest)
      else readText (ofCode low :: ofCode high :: acc) rest
    | _, _ => none
  | '\\' :: 'u' :: a :: b :: c :: d :: rest =>
    match hexCode? a b c d with
    | some code => readText (ofCode code :: acc) rest
    | none => none
  | '\\' :: c :: rest =>
    match simpleEscape? c with
    | some d => readText (d :: acc) rest
    | none => none
  | c :: rest => readText (c :: acc) rest
termination_by text => text.length

/-! ## Numerals -/

/-- The characters of numerals. -/
def isNumeralChar (c : Char) : Bool :=
  c.isDigit || c == '-' || c == '+' || c == '.' || c == 'e' || c == 'E'

/-- A numeral in its pieces: sign, whole digits, fraction digits and exponent, each of the last two
with whether it is there at all. -/
structure Numeral where
  negative : Bool
  whole : List Char
  fraction : Option (List Char)
  exponent : Option Int

/-- The exponent that a text after the letter spells. -/
def readExponent (text : List Char) : Option Int :=
  let (negative, digits) :=
    match text with
    | '-' :: rest => (true, rest)
    | '+' :: rest => (false, rest)
    | rest => (false, rest)
  if digits.isEmpty || !digits.all Char.isDigit then none
  else
    let value := Decimal.value (digits.map Decimal.digitValue)
    some (if negative then -(value : Int) else value)

/-- The pieces of a numeral. -/
def Numeral.ofText? (text : List Char) : Option Numeral := do
  let (negative, text) :=
    match text with
    | '-' :: rest => (true, rest)
    | rest => (false, rest)
  let (whole, rest) := text.span Char.isDigit
  let (fraction, rest) :=
    match rest with
    | '.' :: rest =>
      let (digits, rest) := rest.span Char.isDigit
      (some digits, rest)
    | rest => (none, rest)
  match rest with
  | [] => some ⟨negative, whole, fraction, none⟩
  | c :: rest =>
    if c == 'e' || c == 'E' then do
      let exponent ← readExponent rest
      some ⟨negative, whole, fraction, some exponent⟩
    else none

/-- The integer or the number with a fraction that a numeral stands for. -/
def Numeral.document (n : Numeral) : Document :=
  let fraction := n.fraction.getD []
  let digits := Decimal.value ((n.whole ++ fraction).map Decimal.digitValue)
  if n.fraction.isNone && n.exponent.isNone then
    .int (if n.negative then -(digits : Int) else digits)
  else .real (.ofDecimal n.negative digits (n.exponent.getD 0 - fraction.length))

/-- JSON's own numerals. -/
def readNumeral : NumeralReader := fun text =>
  match Numeral.ofText? text with
  | none => .error .malformed
  | some numeral =>
    if numeral.whole.isEmpty || numeral.fraction == some [] ||
        (numeral.whole.length > 1 && numeral.whole.head? == some '0') then .error .malformed
    else .ok numeral.document

/-! ## Values -/

/-- The words that stand for values. -/
def words : List (String × Document) :=
  [("null", .null), ("true", .bool true), ("false", .bool false)]

/-- A word or a numeral at the front of a text. -/
def readScalar (numeral : NumeralReader) (text : List Char) :
    Except Fault (Document × List Char) :=
  match words.find? fun word => word.1.toList.isPrefixOf text with
  | some word => .ok (word.2, text.drop word.1.length)
  | none => do
    let (front, rest) := text.span isNumeralChar
    return (← numeral front, rest)

mutual

/-- A value at the front of a text, nested no deeper than `depth`. -/
def readValue (numeral : NumeralReader) : (depth : Nat) → List Char →
    Except Fault (Document × List Char)
  | 0, _ => .error .malformed
  | depth + 1, text =>
    match skipSpace text with
    | '{' :: rest =>
      match skipSpace rest with
      | '}' :: rest => .ok (.object [], rest)
      | rest => readEntries numeral depth [] rest
    | '[' :: rest =>
      match skipSpace rest with
      | ']' :: rest => .ok (.list [], rest)
      | rest => readItems numeral depth [] rest
    | '"' :: rest =>
      match readText [] rest with
      | none => .error .malformed
      | some (text, rest) => .ok (.text (String.ofList text.reverse), rest)
    | text => readScalar numeral text

/-- The items of a list, after those already read in reverse. -/
def readItems (numeral : NumeralReader) : (depth : Nat) → List Document → List Char →
    Except Fault (Document × List Char)
  | 0, _, _ => .error .malformed
  | depth + 1, items, text =>
    match readValue numeral depth text with
    | .error fault => .error fault
    | .ok (item, rest) =>
      match skipSpace rest with
      | ',' :: rest => readItems numeral depth (item :: items) rest
      | ']' :: rest => .ok (.list (item :: items).reverse, rest)
      | _ => .error .malformed

/-- The entries of an object, after those already read. -/
def readEntries (numeral : NumeralReader) : (depth : Nat) → List (String × Document) →
    List Char → Except Fault (Document × List Char)
  | 0, _, _ => .error .malformed
  | depth + 1, entries, text =>
    match skipSpace text with
    | '"' :: rest =>
      match readText [] rest with
      | none => .error .malformed
      | some (name, rest) =>
        match skipSpace rest with
        | ':' :: rest =>
          match readValue numeral depth rest with
          | .error fault => .error fault
          | .ok (value, rest) =>
            let entries := Document.insertEntry (String.ofList name.reverse) value entries
            match skipSpace rest with
            | ',' :: rest => readEntries numeral depth entries rest
            | '}' :: rest => .ok (.object entries, rest)
            | _ => .error .malformed
        | _ => .error .malformed
    | _ => .error .malformed

end

/-- The document that a text spells, with the given reading of numerals. Every step into a value or
past a comma takes a character, so the length of the text bounds the depth. -/
def readWith (numeral : NumeralReader) (text : List Char) : Except Fault Document :=
  match readValue numeral (2 * text.length + 2) text with
  | .error fault => .error fault
  | .ok (document, rest) =>
    if (skipSpace rest).isEmpty then .ok document else .error .malformed

/-- The document that a JSON text spells. -/
def read (text : String) : Except Fault Document := readWith readNumeral text.toList

end Recurrence.Json
