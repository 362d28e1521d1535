import Recurrence.Schedule

/-!
# Descriptions of schedules

The text that shows a schedule with all that it is made of: its rule text, its anchor and its zone.
-/

namespace Recurrence

namespace Description

def number (n : Nat) : String := String.ofList (Decimal.write n)

/-- A length of time as days, seconds and microseconds. The days alone may be negative. -/
def duration (ticks : Int) : String :=
  let days := ticks / ticksPerDay
  let rest := (ticks % ticksPerDay).toNat
  let seconds := rest / ticksPerSecond
  let micros := rest % ticksPerSecond
  let parts :=
    (if days = 0 then [] else ["days=" ++ String.ofList (Decimal.writeInt days)]) ++
      (if seconds = 0 then [] else ["seconds=" ++ number seconds]) ++
      (if micros = 0 then [] else ["microseconds=" ++ number micros])
  "datetime.timedelta(" ++ (if parts.isEmpty then "0" else ", ".intercalate parts) ++ ")"

/-- A fixed offset, with the name that it has been given. -/
def fixedOffset (offset : Int) : (given : Option String) → String
  | none =>
    if offset = 0 then "datetime.timezone.utc"
    else "datetime.timezone(" ++ duration offset ++ ")"
  | some name => "datetime.timezone(" ++ duration offset ++ ", " ++ Text.quoteString name ++ ")"

def zone : Zone → String
  | .region r => "zoneinfo.ZoneInfo(key=" ++ Text.quoteString r.name ++ ")"
  | .fixed offset given => fixedOffset offset given
  | .written offset => fixedOffset offset none

/-- A moment. Seconds and microseconds stand as far as the last one that is not zero. -/
def moment (m : Moment) : String :=
  let time := m.reading.time
  let tail :=
    if time.micro ≠ 0 then [number time.second, number time.micro]
    else if time.second ≠ 0 then [number time.second]
    else []
  let parts :=
    [number m.date.year, number m.date.month, number m.date.day, number time.hour,
      number time.minute] ++ tail ++ (if m.second then ["fold=1"] else []) ++
      ["tzinfo=" ++ zone m.zone]
  "datetime.datetime(" ++ ", ".intercalate parts ++ ")"

end Description

/-- The description of a schedule. -/
def Schedule.describe (s : Schedule) : Except Failure String := do
  let text ← s.toText
  let anchor :=
    match s.anchor with
    | none => "None"
    | some m => Description.moment m
  return "RecurrenceRule(" ++ Text.quoteString text ++ ", anchor_start=" ++ anchor ++ ", tz=" ++
    Description.zone s.zone ++ ")"

end Recurrence
