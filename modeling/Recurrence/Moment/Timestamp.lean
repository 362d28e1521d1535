import Recurrence.Moment.Iso

/-!
# Timestamps

Stamps as documents hold them in texts and numbers: the full written form with a few choices of
spelling, or a count of time since 1970-01-01T00:00 UTC.

* `Timestamp.read`: the stamp that a text spells.
* `Timestamp.ofCount`: the stamp of a count.
-/

namespace Recurrence.Timestamp

/-! ## Counts -/

/-- The largest count of seconds; a larger one counts milliseconds. -/
def secondsLimit : Nat := 20000000000

/-- The first and the last second that a count may reach, in the years 1600 and 9999. -/
def firstSecond : Int := -11676096000

def lastSecond : Int := 253402300799

/-- The stamp of a count and some microseconds after it. -/
def ofCount (count : Int) (micro : Nat) : Option Stamp := do
  let (seconds, micro) :=
    if count.natAbs ≤ secondsLimit then (count, micro)
    else (count / 1000, micro + (count % 1000).toNat * 1000)
  let seconds := seconds + (micro / ticksPerSecond : Nat)
  if seconds < firstSecond || lastSecond < seconds then none
  let reading ← Reading.ofTicks?
    ((seconds + Zone.unixStart) * ticksPerSecond + (micro % ticksPerSecond : Nat))
  some ⟨reading, false, some .zero⟩

/-- The stamp of a count with decimals: `digits` without the point, of which `places` come after
it. -/
def ofDecimal (negative : Bool) (digits places : Nat) : Option Stamp :=
  let unit := Nat.pow 10 places
  let size : Int := if negative then -(digits : Int) else digits
  let unit := if digits ≤ secondsLimit * unit then unit else unit * 1000
  let count := size / unit
  -- The rest of the count in microseconds, half a one rounded up
  let micro := (2 * (size % unit).toNat * ticksPerSecond + unit) / (2 * unit)
  ofCount count micro

/-- The stamp of a count as a text: digits after a sign, with or without decimals. -/
def readCount (text : List Char) : Option Stamp :=
  let (negative, body) :=
    match text with
    | '-' :: rest => (true, rest)
    | '+' :: rest => (false, rest)
    | rest => (false, rest)
  let (whole, rest) := body.span Char.isDigit
  let decimals := rest.drop 1
  let digits := Decimal.value ((whole ++ decimals).map Decimal.digitValue)
  -- The point needs a digit before it, but none behind it
  if whole.isEmpty then none
  else if rest.isEmpty then ofCount (if negative then -(digits : Int) else digits) 0
  else if rest.head? == some '.' && decimals.all Char.isDigit then
    ofDecimal negative digits decimals.length
  else none

/-! ## Written stamps -/

/-- Whether a character may stand between the date and the time. -/
def isDivider (c : Char) : Bool := c == 'T' || c == 't' || c == ' ' || c == '_'

/-- The sign of an offset, and whether it is a minus. -/
def readSign : Char → Option Bool
  | '+' => some false
  | '-' => some true
  | '\u2212' => some true
  | _ => none

/-- The zone that the end of a text names, or none if nothing is left. -/
def readZone : List Char → Option (Option Zone)
  | [] => some none
  | [c] => if c == 'Z' || c == 'z' then some (some .zero) else none
  | sign :: rest => do
    let negative ← readSign sign
    let (hour, rest) ← Iso.digits 2 0 rest
    let rest := if rest.head? == some ':' then rest.drop 1 else rest
    let (minute, rest) ← Iso.digits 2 0 rest
    if !rest.isEmpty then none
    -- An offset is shorter than a day, as a time of day is
    let size ← TimeOfDay.of? hour minute 0 0
    some (some (.ofWritten (if negative then -(size.ticks : Int) else size.ticks)))

/-- Seconds and their fraction, and the rest. Of the fraction six digits count. -/
def readSeconds (text : List Char) : Option (Nat × Nat × List Char) := do
  let (second, rest) ← Iso.digits 2 0 text
  match rest with
  | c :: after =>
    if c == '.' || c == ',' then do
      let (fraction, rest) := after.span Char.isDigit
      if fraction.isEmpty then none
      let kept := fraction.take 6
      let value := Decimal.value (kept.map Decimal.digitValue)
      some (second, value * Nat.pow 10 (6 - kept.length), rest)
    else some (second, 0, rest)
  | [] => some (second, 0, [])

/-- A time of day, and the zone of its offset if one follows. Seconds may be left out. -/
def readTime (text : List Char) : Option (TimeOfDay × Option Zone) := do
  let (hour, rest) ← Iso.digits 2 0 text
  let ':' :: rest := rest | none
  let (minute, rest) ← Iso.digits 2 0 rest
  let (second, micro, rest) ←
    match rest with
    | ':' :: rest => readSeconds rest
    | rest => some (0, 0, rest)
  let time ← TimeOfDay.of? hour minute second micro
  some (time, ← readZone rest)

/-- The stamp of a date, with a time or alone. -/
def readWritten (text : List Char) : Option Stamp := do
  let (year, rest) ← Iso.digits 4 0 text
  let '-' :: rest := rest | none
  let (month, rest) ← Iso.digits 2 0 rest
  let '-' :: rest := rest | none
  let (day, rest) ← Iso.digits 2 0 rest
  let date ← Date.of? year month day
  match rest with
  | [] => some ⟨⟨date, .midnight⟩, false, none⟩
  | c :: rest =>
    if isDivider c then do
      let (time, zone) ← readTime rest
      some ⟨⟨date, time⟩, false, zone⟩
    else none

/-- The stamp that a text spells. -/
def read (text : List Char) : Option Stamp := readWritten text <|> readCount text

end Recurrence.Timestamp
