import Recurrence.Proofs.Lists
import Recurrence.Settings.Text

/-!
# The kept settings

A reader that keeps the settings it read last answers like one that keeps nothing, as long as the
file never holds two texts under one time of modification. The invariant is that settings which
are kept under a time were read from a file of that time.

* `SettingsCache.load_eq`: one load, from a cache that keeps the invariant.
* `SettingsSession.step_eq`: one event, from such a session.
* `SettingsSession.run_from`: a run of events from such a session.
* `SettingsSession.run_eq_runAfresh`: a run of a reader that has read nothing before.
-/

namespace Recurrence

namespace SettingsFile

/-- Files with one time of modification have one text. -/
def ToldApart (files : List SettingsFile) : Prop :=
  ∀ a ∈ files, ∀ b ∈ files, a.modified = b.modified → a.text = b.text

/-- Files with one text have the same settings. -/
theorem settings_congr [SettingsReader] {a b : SettingsFile} (same : a.text = b.text) :
    a.settings = b.settings := by
  simp only [settings, same]

end SettingsFile

/-! ## Loads -/

namespace SettingsCache

variable [SettingsReader]

/-- Settings that are kept under a time were read from a file of that time. -/
def KeptFrom (cache : SettingsCache) (files : List SettingsFile) : Prop :=
  ∀ kept time, cache.settings = some kept → cache.modified = some time →
    ∃ file ∈ files, file.modified = time ∧ file.settings = .ok kept

/-- What a reader answers that keeps nothing. -/
def readAfresh : Option SettingsFile → Except Failure Settings
  | none => .ok .standard
  | some file => file.settings

variable {cache : SettingsCache} {files : List SettingsFile} {force : Bool} {failure : Failure}

/-- Nothing is kept at first. -/
theorem keptFrom_empty : ({} : SettingsCache).KeptFrom files := by
  intro kept time given
  cases given

/-- The file is read, or what is kept is answered once more under the time that the file has. -/
theorem load_some (cache : SettingsCache) (file : SettingsFile) (force : Bool) :
    cache.load (some file) force =
      (match file.settings with
      | .ok settings => (.ok settings, ⟨some settings, some file.modified⟩)
      | .error failure => (.error failure, cache)) ∨
    ∃ kept, cache.settings = some kept ∧ cache.modified = some file.modified ∧
      cache.load (some file) force = (.ok kept, cache) := by
  cases kept : cache.settings with
  | none =>
    left
    cases read : file.settings <;> simp only [load, kept, read]
  | some settings =>
    by_cases again : (!force && cache.modified == some file.modified) = true
    · have time : cache.modified = some file.modified := by
        simpa using (Bool.and_eq_true_iff.mp again).2
      exact .inr ⟨settings, rfl, time, by simp only [load, kept, if_pos again]⟩
    · left
      cases read : file.settings <;> simp only [load, kept, read, if_neg again]

/-- A new reader answers what the file says, forced or not. -/
theorem load_empty (file : Option SettingsFile) (force : Bool) :
    (({} : SettingsCache).load file force).1 = readAfresh file := by
  cases file with
  | none => rfl
  | some file => cases read : file.settings <;> simp only [load, readAfresh, read]

/-- A load that fails changes nothing. -/
theorem load_of_error {file : Option SettingsFile}
    (failed : (cache.load file force).1 = .error failure) : (cache.load file force).2 = cache := by
  cases file with
  | none => cases failed
  | some file =>
    obtain eq | ⟨kept, -, -, eq⟩ := cache.load_some file force
    · cases read : file.settings <;> rw [read] at eq <;> rw [eq] at failed ⊢
      cases failed
    · rw [eq]

/-- From a cache that keeps the invariant a load answers what the file says, and the invariant
stays. -/
theorem load_eq (apart : SettingsFile.ToldApart files) (sound : cache.KeptFrom files)
    {file : Option SettingsFile} (known : ∀ given, file = some given → given ∈ files)
    (force : Bool) :
    (cache.load file force).1 = readAfresh file ∧ (cache.load file force).2.KeptFrom files := by
  cases file with
  | none => exact ⟨rfl, fun kept time _ given => by cases given⟩
  | some file =>
    have stands : file ∈ files := known file rfl
    obtain eq | ⟨kept, settings, time, eq⟩ := cache.load_some file force
    · -- The file is read, and its settings are kept under its own time
      cases read : file.settings with
      | error failure =>
        rw [read] at eq
        exact eq ▸ ⟨read.symm, sound⟩
      | ok settings =>
        rw [read] at eq
        refine eq ▸ ⟨read.symm, fun kept time given at_time => ⟨file, stands, ?_, ?_⟩⟩
        · exact Option.some.inj at_time
        · exact (Option.some.inj given) ▸ read
    · -- The kept settings were read under the file's own time, so from the file's own text
      obtain ⟨old, stood, same, read⟩ := sound kept file.modified settings time
      have text : old.text = file.text := apart old stood file stands same
      have now : file.settings = .ok kept := SettingsFile.settings_congr text ▸ read
      exact eq ▸ ⟨now.symm, sound⟩

end SettingsCache

/-! ## Events -/

/-- The file that an event writes. -/
def SettingsEvent.written? : SettingsEvent → Option SettingsFile
  | .write file => some file
  | _ => none

namespace SettingsSession

/-- The files that stand at the path in the course of some events. -/
def filesDuring (file : Option SettingsFile) (events : List SettingsEvent) : List SettingsFile :=
  file.toList ++ events.filterMap SettingsEvent.written?

section

variable [SettingsReader]

/-- The answers to a sequence of events when each load is the first one of a new reader. -/
def runAfresh (file : Option SettingsFile) :
    List SettingsEvent → List (Except Failure (Option Settings))
  | [] => []
  | event :: events =>
    let (answer, next) := ({ file := file } : SettingsSession).step event
    answer :: runAfresh next.file events

/-- The invariant of a run in which only some files come to stand at the path. -/
structure Sound (session : SettingsSession) (files : List SettingsFile) : Prop where
  kept : session.cache.KeptFrom files
  known : ∀ file, session.file = some file → file ∈ files

variable {session : SettingsSession} {files : List SettingsFile}

/-- An event that fails changes nothing. -/
theorem step_of_error {event : SettingsEvent} {failure : Failure}
    (failed : (session.step event).1 = .error failure) : (session.step event).2 = session := by
  -- Writing never fails, and deleting fails only where there is no file
  cases event with
  | write file => cases failed
  | delete =>
    obtain ⟨_ | file, cache⟩ := session
    · rfl
    · cases failed
  | load =>
    have load_failed : (session.cache.load session.file false).1 = .error failure :=
      Except.map_eq_error.mp failed
    simp only [step, SettingsCache.load_of_error load_failed]
  | reload =>
    have load_failed : (session.cache.load session.file true).1 = .error failure :=
      Except.map_eq_error.mp failed
    simp only [step, SettingsCache.load_of_error load_failed]

/-- An event answers what it answers a new reader, does the same with the file, and keeps the
invariant. -/
theorem step_eq (apart : SettingsFile.ToldApart files) (sound : session.Sound files)
    (event : SettingsEvent) (written : ∀ file, event.written? = some file → file ∈ files) :
    (session.step event).1 = (({ file := session.file } : SettingsSession).step event).1 ∧
      (session.step event).2.file =
        (({ file := session.file } : SettingsSession).step event).2.file ∧
      (session.step event).2.Sound files := by
  cases event with
  | write file => exact ⟨rfl, rfl, sound.kept, written⟩
  | delete =>
    obtain ⟨_ | file, cache⟩ := session
    · exact ⟨rfl, rfl, sound⟩
    · exact ⟨rfl, rfl, sound.kept, fun _ given => by cases given⟩
  -- The answer is that of an empty cache, which reads the file as it stands
  | load =>
    obtain ⟨answer, kept⟩ := SettingsCache.load_eq apart sound.kept sound.known false
    refine ⟨?_, rfl, kept, sound.known⟩
    simp only [step, answer, SettingsCache.load_empty]
  | reload =>
    obtain ⟨answer, kept⟩ := SettingsCache.load_eq apart sound.kept sound.known true
    refine ⟨?_, rfl, kept, sound.known⟩
    simp only [step, answer, SettingsCache.load_empty]

/-- A run from a session that keeps the invariant. -/
theorem run_from (apart : SettingsFile.ToldApart files) (sound : session.Sound files)
    {events : List SettingsEvent}
    (written : ∀ file, file ∈ events.filterMap SettingsEvent.written? → file ∈ files) :
    session.run events = runAfresh session.file events := by
  -- An event leaves the file that it leaves a new reader, and the invariant for those to come
  induction events generalizing session with
  | nil => rfl
  | cons event events ih =>
    obtain ⟨answer, file, after⟩ := step_eq apart sound event fun file given =>
      written file (List.mem_filterMap.mpr ⟨event, List.mem_cons_self, given⟩)
    have rest := ih after fun file given => by
      obtain ⟨other, later, given⟩ := List.mem_filterMap.mp given
      exact written file (List.mem_filterMap.mpr ⟨other, List.mem_cons_of_mem event later, given⟩)
    simp only [run, runAfresh, answer, rest, file]

/-- However the file comes, goes and changes, each load and each reload answers what a new reader
of the file would answer then, if the times of modification tell the texts apart. A load that
fails leaves what is kept as it was. -/
theorem run_eq_runAfresh (file : Option SettingsFile) (events : List SettingsEvent)
    (apart : SettingsFile.ToldApart (filesDuring file events)) :
    ({ file := file } : SettingsSession).run events = runAfresh file events ∧
      ∀ (session : SettingsSession) (event : SettingsEvent) (failure : Failure),
        (session.step event).1 = .error failure → (session.step event).2 = session := by
  refine ⟨run_from apart ⟨SettingsCache.keptFrom_empty, fun given stands => ?_⟩ fun given later =>
    List.mem_append_right file.toList later, fun _ _ _ => step_of_error⟩
  have stands : file = some given := stands
  exact List.mem_append_left _ (Option.mem_toList.mpr stands)

end

/-! ### A file that breaks, comes back and goes -/

/-- Settings that look three years ahead. -/
def threeYears : SettingsFile := ⟨"recurrence:\n  lookahead_years: 3\n", 1⟩

/-- Settings that allow no preview, which is refused. -/
def noPreview : SettingsFile := ⟨"preview:\n  max_count: 0\n", 2⟩

/-- The file is read, breaks, gets its first version back, is deleted and written anew. -/
def troubledFile : List SettingsEvent :=
  [.write threeYears, .load, .write noPreview, .load, .reload, .write threeYears, .load, .delete,
    .load, .delete, .write threeYears, .reload]

/-- What is wrong with the broken file. -/
def noPreviewFailure : Failure :=
  .invalid [⟨["preview", "max_count"], .tooSmall⟩]

/-- A file that is written, spoiled, mended and deleted, with loads between. -/
theorem troubledFile_run :
    SettingsFile.ToldApart (filesDuring none troubledFile) ∧
      ({} : SettingsSession).run troubledFile = runAfresh none troubledFile ∧
      runAfresh none troubledFile =
        [.ok none, .ok (some ⟨⟨3, by decide⟩, .standard⟩), .ok none, .error noPreviewFailure,
          .error noPreviewFailure, .ok none, .ok (some ⟨⟨3, by decide⟩, .standard⟩), .ok none,
          .ok (some .standard), .error .noSettingsFile, .ok none,
          .ok (some ⟨⟨3, by decide⟩, .standard⟩)] := by
  have apart : SettingsFile.ToldApart (filesDuring none troubledFile) := by
    unfold SettingsFile.ToldApart
    decide +kernel
  exact ⟨apart, (run_eq_runAfresh none troubledFile apart).1, by decide +kernel⟩

end SettingsSession

end Recurrence
