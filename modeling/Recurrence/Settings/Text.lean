import Recurrence.Settings.Cache
import Recurrence.Settings.Layout
import Recurrence.Settings.Plain

/-!
# Settings text

A reader of settings that knows two notations. Settings are written as JSON text, or as sections: a
name on a line of its own and below it, indented, a value under each of its names.

* `SettingsText.read`: the document that a settings text spells.
-/

namespace Recurrence.SettingsText

/-! ## Lines -/

/-- A line with content: how far it is indented, and its text without blanks at the ends. -/
structure Line where
  indent : Nat
  text : List Char
deriving DecidableEq

/-- The lines of a text that have content. -/
def readLines (text : List Char) : List Line :=
  (text.splitOnP Layout.isBreak).filterMap fun line =>
    let body := Text.stripBy (· == ' ') line
    if body.isEmpty then none else some ⟨(line.takeWhile (· == ' ')).length, body⟩

/-- A text before and after the first colon with a blank or nothing behind it. -/
def splitEntry : List Char → Option (List Char × List Char)
  | [] => none
  | c :: rest =>
    if c == ':' && rest.head?.all (fun next => next == ' ' || next == '\t') then some ([], rest)
    else (splitEntry rest).map fun (name, value) => (c :: name, value)

/-- Whether a text has a colon that ends a name. -/
def isEntry (text : List Char) : Bool := (splitEntry text).isSome

/-! ## Values -/

/-- How a plain text is read. -/
abbrev PlainReader := List Char → Except Text.NumeralFault Document

/-- Whether a text has a tab, which no name and no plain text may hold. -/
def hasTab (text : List Char) : Bool := text.contains '\t'

/-- The value of a plain text in pieces, one to a line. No piece may look like an entry. -/
def readPlain (plain : PlainReader) (pieces : List (List Char)) :
    Except SettingsFault Document :=
  if pieces.any fun piece => hasTab piece || isEntry piece then .error .misplaced
  else
    match plain (Text.join ' ' pieces) with
    | .ok document => .ok document
    | .error fault => .error (.numeral fault)

mutual

/-- The value that begins with the text behind a colon, and the lines after it. Lines belong to it
as far as they are indented deeper than the name. -/
def readValue (plain : PlainReader) : (depth column : Nat) → (text : List Char) → List Line →
    Except SettingsFault (Document × List Line)
  | 0, _, _, _ => .error .disordered
  | depth + 1, column, text, lines =>
    let isInside (line : Line) : Bool := column < line.indent
    let inside := lines.takeWhile isInside
    match text, inside with
    -- With nothing behind the colon, the value is on the lines below
    | [], first :: _ =>
      if isEntry first.text then readEntries plain depth first.indent (column + 1) [] lines
      else
        (fun value => (value, lines.dropWhile isInside)) <$>
          readPlain plain (inside.map (·.text))
    | _, _ =>
      (fun value => (value, lines.dropWhile isInside)) <$>
        readPlain plain (text :: inside.map (·.text))

/-- The entries in one column, after those already read, and the lines after them. The first line
that is indented less than `least` does not belong to them. -/
def readEntries (plain : PlainReader) : (depth column least : Nat) → List (String × Document) →
    List Line → Except SettingsFault (Document × List Line)
  | 0, _, _, _, _ => .error .disordered
  | _ + 1, _, _, entries, [] => .ok (.object entries, [])
  | depth + 1, column, least, entries, line :: lines =>
    if line.indent < least then .ok (.object entries, line :: lines)
    else
      match splitEntry line.text with
      | none =>
        if line.indent ≠ column && !hasTab line.text then .error .disordered
        else .error .misplaced
      | some (name, value) =>
        let isBlank (c : Char) : Bool := c == ' '
        -- A tab in the name shows before a fault in its place
        if hasTab name then .error .misplaced
        else if line.indent ≠ column then .error .disordered
        else
          match readValue plain depth column (Text.stripBy isBlank value) lines with
          | .error fault => .error fault
          | .ok (document, lines) =>
            let name := String.ofList (Text.stripBy isBlank name)
            readEntries plain depth column least (Document.insertEntry name document entries) lines

end

/-- The document that lines spell, with the given reading of plain texts. Every second step takes a
line, so the number of lines bounds the depth. -/
def readSectionsWith (plain : PlainReader) (lines : List Line) : Except SettingsFault Document :=
  match lines with
  | [] => .ok .null
  | first :: _ =>
    if isEntry first.text then
      (·.1) <$> readEntries plain (2 * lines.length + 2) first.indent 0 [] lines
    else readPlain plain (lines.map (·.text))

/-- The document that lines spell. A fault in their order shows before one in a numeral. -/
def readSections (lines : List Line) : Except SettingsFault Document := do
  let _ ← readSectionsWith (fun text => .ok (.text (String.ofList text))) lines
  readSectionsWith PlainValue.read lines

/-! ## Texts -/

/-- The value of a numeral in JSON text, which is that of a plain value. -/
def readNumeral : Json.NumeralReader := fun text =>
  match Json.readNumeral text with
  | .error fault => .error fault
  | .ok _ =>
    match PlainValue.read text with
    | .ok document => .ok document
    | .error fault => .error (.numeral fault)

/-- The document of a text that is JSON text. A fault in its layout shows before one in a
numeral. -/
def readJson (text : List Char) : Except SettingsFault Document :=
  match Layout.findFault (.outside none) text with
  | some fault => .error fault
  | none =>
    match Json.readWith readNumeral text with
    | .ok document => .ok document
    | .error (.numeral fault) => .error (.numeral fault)
    | .error .malformed => .error .disordered

/-- The document that a settings text spells. A text without content is null. -/
def read (text : String) : Except SettingsFault Document := do
  let chars ← Layout.normalize text.toList
  match Json.readWith Json.readNumeral chars with
  | .ok _ => readJson chars
  | .error _ => readSections (readLines chars)

instance : SettingsReader := ⟨read⟩

end Recurrence.SettingsText
