/-!
# Blank characters

The characters that count as white space at the ends of a text. Besides those of Unicode's
`White_Space` property they include the four information separators.
-/

namespace Recurrence.Text

/-- White space and the four information separators. -/
def isBlank (c : Char) : Bool :=
  let n := c.toNat
  (9 ≤ n && n ≤ 13) || (28 ≤ n && n ≤ 32) || n == 0x85 || n == 0xA0 || n == 0x1680 ||
    (0x2000 ≤ n && n ≤ 0x200A) || n == 0x2028 || n == 0x2029 || n == 0x202F || n == 0x205F ||
    n == 0x3000

/-- White space that may stand around a numeral: the information separators do not count. -/
def isNumeralBlank (c : Char) : Bool :=
  isBlank c && !(28 ≤ c.toNat && c.toNat ≤ 31)

/-- A text without the characters of a class at its ends. -/
def stripBy (isOuter : Char → Bool) (text : List Char) : List Char :=
  ((text.dropWhile isOuter).reverse.dropWhile isOuter).reverse

/-- A text without blanks at its ends. -/
def strip (text : List Char) : List Char := stripBy isBlank text

/-- Whether a text has a character that is not blank. -/
def hasContent (text : List Char) : Bool := text.any fun c => !isBlank c

end Recurrence.Text
