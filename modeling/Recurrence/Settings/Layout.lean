import Recurrence.Document.Json
import Recurrence.Failure

/-!
# The layout of settings

What settings ask of the characters of a text and of its lines, apart from what the text says.

* `Layout.normalize`: the characters that count, with one kind of line end.
* `Layout.findFault`: the first place where JSON text breaks the rules of settings.
-/

namespace Recurrence

namespace Layout

/-! ## Characters and lines -/

/-- Whether settings may hold a character: all but control characters, surrogates and the last two
of the basic plane. Tabs and line ends are no control characters here. -/
def isAllowed (c : Char) : Bool :=
  let n := c.toNat
  n == 0x09 || n == 0x0A || n == 0x0D || (0x20 ≤ n && n ≤ 0x7E) || n == 0x85 ||
    (0xA0 ≤ n && n ≤ 0xD7FF) || (0xE000 ≤ n && n ≤ 0xFFFD) || 0x10000 ≤ n

/-- Whether a character ends a line. -/
def isBreak (c : Char) : Bool := c == '\n' || c == '\x85' || c == '\u2028' || c == '\u2029'

/-- A text with line feeds for carriage returns, also for those before a line feed. -/
def unifyBreaks : List Char → List Char
  | '\r' :: '\n' :: rest => '\n' :: unifyBreaks rest
  | c :: rest => (if c == '\r' then '\n' else c) :: unifyBreaks rest
  | [] => []

/-- The characters of a text that count. A byte order mark at the front does not. -/
def normalize (text : List Char) : Except SettingsFault (List Char) :=
  if !text.all isAllowed then .error .forbiddenCharacter
  else
    match unifyBreaks text with
    | '\uFEFF' :: rest => .ok rest
    | rest => .ok rest

/-! ## JSON text -/

/-- How far back a quoted text begins, and whether a line has ended since. -/
structure Span where
  size : Nat
  broken : Bool
deriving DecidableEq

namespace Span

/-- The span with one more character. -/
def push (s : Span) (c : Char) : Span := ⟨s.size + 1, s.broken || isBreak c⟩

/-- The largest distance of a colon from the beginning of the name before it. -/
def limit : Nat := 1024

/-- Whether a quoted text is the name before a colon: not too long, and on one line with it. -/
def isName (s : Span) : Bool := s.size ≤ limit && !s.broken

end Span

/-- Where a scan of JSON text stands. -/
inductive Place where
  /-- Outside quotation marks; `last` is the quoted text before, if only blanks followed it. -/
  | outside (last : Option Span)
  | quoted (span : Span)
  /-- Behind a backslash. -/
  | escaped (span : Span)
deriving DecidableEq

/-- The first fault in the layout of JSON text: a tab outside quotation marks, or a colon that is
too far from the name before it. -/
def findFault (place : Place) : List Char → Option SettingsFault
  | [] => none
  | c :: rest =>
    match place with
    | .escaped span => findFault (.quoted (span.push c)) rest
    | .quoted span =>
      if c == '\\' then findFault (.escaped (span.push c)) rest
      else if c == '"' then findFault (.outside (some (span.push c))) rest
      else findFault (.quoted (span.push c)) rest
    | .outside last =>
      if c == '\t' then some .misplaced
      else if c == '"' then findFault (.quoted ⟨1, false⟩) rest
      else if c == ' ' || isBreak c then findFault (.outside (last.map (·.push c))) rest
      else if c == ':' && !last.all Span.isName then some .disordered
      else findFault (.outside none) rest

end Layout

end Recurrence
