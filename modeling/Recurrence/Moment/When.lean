import Recurrence.Failure
import Recurrence.Moment.Iso

/-!
# Moments as people give them

A moment is given as a stamp, or as a text in one of the written forms. Any other text is left to a
reader of spoken moments, which is not part of the library.

* `SpokenReader`: what such a reader makes of texts.
* `When.resolve`: the moment on the clocks of a zone.
* `When.ReadAlike`: two readers make the same of what is given.
-/

namespace Recurrence

/-- A reader of spoken moments. It is told a text and the name of the zone in which the text is
meant, and it answers with a moment, finds none, or fails. What a text such as `tomorrow` stands for
depends on the time at which it is read, so an instance is what the reader makes of texts at one
time. -/
class SpokenReader where
  read : (text zoneName : String) → Except SpokenFault (Option Moment)

/-- What is given for a moment. -/
inductive When where
  | stamp (value : Stamp)
  | text (value : String)
  /-- A value that is neither a stamp nor a text. -/
  | other
deriving DecidableEq

namespace When

/-- The characters of a text with every `Z` spelled out as offset zero. -/
def spellOutUtc (text : List Char) : List Char :=
  text.flatMap fun c => if c == 'Z' then ['+', '0', '0', ':', '0', '0'] else [c]

/-- The moment on the clocks of a zone. Written readings without an offset belong to the zone. A
text that is not written is read as a spoken one, and all that its reader knows of the zone is the
name. -/
def resolve [SpokenReader] (given : When) (zone : Zone) : Except Failure Moment :=
  match given with
  | .stamp value => orFail (value.inZone zone)
  | .text value =>
    match Iso.read (spellOutUtc value.toList) with
    | some read => orFail (read.inZone zone)
    | none =>
      match SpokenReader.read value zone.name with
      | .ok (some m) => orFail (m.inZone zone)
      | .ok none => .error (.unreadableMoment value)
      | .error fault => .error (.spoken fault)
  | .other => .error .notMoment

/-- Whether two readers make the same of what is given for a moment in the zone of a name. It is so
for every stamp, for every written text, and for every text that means the same at all times. -/
def ReadAlike (reader reader' : SpokenReader) (given : When) (zoneName : String) : Prop :=
  ∀ text, given = .text text → Iso.read (spellOutUtc text.toList) = none →
    reader.read text zoneName = reader'.read text zoneName

/-- What a document gives for a moment. -/
def ofDocument : Document → When
  | .stamp value => stamp value
  | .text value => text value
  | _ => other

end When

end Recurrence
