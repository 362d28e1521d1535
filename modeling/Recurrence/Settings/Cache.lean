import Recurrence.Failure
import Recurrence.Settings.Basic

/-!
# The settings file

Settings are read from a file that may come, go and change. What was read last is kept together
with the file's time of modification, and is used again as long as that time stays the same. What a
settings text spells is told by a reader that is not part of the library.

* `SettingsReader`: what such a reader makes of texts.
* `SettingsCache.load`: the settings, and the cache afterwards.
-/

namespace Recurrence

/-- A reader of settings texts: the document that a text spells, or why it cannot be read. -/
class SettingsReader where
  read : String → Except SettingsFault Document

/-- A settings file: its text, and the time of its last modification as a program is told it. That
is a binary fraction of seconds near the time on record, and two times on record may be told as one.
-/
structure SettingsFile where
  text : String
  modified : Rat
deriving DecidableEq

namespace SettingsFile

/-- The settings that a file holds. -/
def settings [SettingsReader] (file : SettingsFile) : Except Failure Settings :=
  match SettingsReader.read file.text with
  -- A numeral fails as it would anywhere else
  | .error (.numeral (.tooLong digits)) => .error (.numeralTooLong digits)
  | .error (.numeral .malformed) => .error (.malformedNumeral "")
  | .error fault => .error (.unreadableSettings fault)
  | .ok document =>
    match Settings.check document with
    | .ok settings => .ok settings
    | .error issues => .error (.invalid issues)

end SettingsFile

/-- The settings that were read last, and the time of modification of the file that held them. -/
structure SettingsCache where
  settings : Option Settings := none
  modified : Option Rat := none
deriving DecidableEq

namespace SettingsCache

variable [SettingsReader]

/-- The settings of a file, if there is one, and the cache afterwards. Without a file the defaults
hold and the time is forgotten. The file is read only when `force` is set, nothing is kept yet, or
its time of modification is another. A failure leaves the cache as it was. -/
def load (cache : SettingsCache) (file : Option SettingsFile) (force : Bool) :
    Except Failure Settings × SettingsCache :=
  match file with
  | none => (.ok .standard, ⟨some .standard, none⟩)
  | some file =>
    let fresh :=
      match file.settings with
      | .ok settings => (.ok settings, ⟨some settings, some file.modified⟩)
      | .error failure => (.error failure, cache)
    match cache.settings with
    | none => fresh
    | some kept =>
      if !force && cache.modified == some file.modified then (.ok kept, cache) else fresh

end SettingsCache

/-! ## Sessions -/

/-- What can happen to a settings file and its reader. -/
inductive SettingsEvent where
  | write (file : SettingsFile)
  | delete
  | load
  | reload
deriving DecidableEq

/-- A settings file that may exist, and what its reader keeps. -/
structure SettingsSession where
  file : Option SettingsFile := none
  cache : SettingsCache := {}
deriving DecidableEq

namespace SettingsSession

variable [SettingsReader]

/-- What an event answers, and the session afterwards. Only loads answer settings. -/
def step (session : SettingsSession) :
    SettingsEvent → Except Failure (Option Settings) × SettingsSession
  | .write file => (.ok none, { session with file := some file })
  | .delete =>
    match session.file with
    | none => (.error .noSettingsFile, session)
    | some _ => (.ok none, { session with file := none })
  | .load =>
    let (answer, cache) := session.cache.load session.file false
    (some <$> answer, { session with cache := cache })
  | .reload =>
    let (answer, cache) := session.cache.load session.file true
    (some <$> answer, { session with cache := cache })

/-- The answers to a sequence of events. -/
def run (session : SettingsSession) :
    List SettingsEvent → List (Except Failure (Option Settings))
  | [] => []
  | event :: events =>
    let (answer, next) := session.step event
    answer :: run next events

end SettingsSession

end Recurrence
