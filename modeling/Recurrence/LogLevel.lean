/-!
# Log levels

The numbers behind the names of log levels, and the layout of log lines.
-/

namespace Recurrence.LogLevel

/-- The names of the levels. -/
def names : List (String × Int) :=
  [("CRITICAL", 50), ("FATAL", 50), ("ERROR", 40), ("WARNING", 30), ("WARN", 30), ("INFO", 20),
    ("DEBUG", 10), ("NOTSET", 0)]

/-- The level that stands in for one that is not known. -/
def default : Int := 20

/-- The capital letter of a letter. Of the letters outside ASCII only the two whose capital is an
ASCII letter can occur in a name. -/
def capital (c : Char) : Char :=
  if c == 'ı' then 'I' else if c == 'ſ' then 'S' else c.toUpper

/-- The number of a level's name, whatever the case of its letters. -/
def ofName (name : String) : Int :=
  let capitals := name.toList.map capital
  match names.find? fun entry => entry.1.toList == capitals with
  | some entry => entry.2
  | none => default

/-- The layout of a log line. -/
def lineFormat : String := "%(asctime)s | %(levelname)s | %(name)s | %(message)s"

end Recurrence.LogLevel
