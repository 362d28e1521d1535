import Recurrence.Proofs.Cursor
import Recurrence.Service.Body

/-!
# Previews and the next occurrence

The service answers questions about the same occurrences in two ways. A preview shows some of them,
from a given moment on with one question to the schedule, and from the first one on with two. The
other route names the next one. All of these answers are parts of one list, whatever the count of
each request, as long as the requests are read alike: a spoken text such as `tomorrow` may stand for
another moment in each of them.

* `Service.SameSearch`: requests that differ at most in their counts.
* `Service.ReadsAlike`: readers of spoken moments that make the same of a request.
* `Service.resolvedCount`: the size of the preview that a request asks for.
* `Service.askPreview_agrees`: the answers to such requests.
-/

namespace Recurrence

/-- A question from the first occurrence on is answered as far as lists allow. -/
theorem Series.occurrencesAfter_none {s : Series} {count : Nat} {found : List Moment}
    (h : s.occurrences none count = .ok found) : s.occurrencesAfter none count =
      if maxLimit < count then .error .limitTooLarge else .ok found := by
  rw [← h]
  unfold occurrencesAfter
  by_cases large : maxLimit < count
  · rw [if_pos large]
    simp [bind, Except.bind, pure, Except.pure, Int.ofNat_lt.2 large]
  · rw [if_neg large]
    simp [bind, Except.bind, pure, Except.pure, mt Int.ofNat_lt.1 large]

/-- Readers that make the same of a moment lead to the same occurrences after it. -/
theorem Schedule.nextOccurrences_congr {reader reader' : SpokenReader} {s : Schedule} {after : When}
    (alike : When.ReadAlike reader reader' after s.zone.name) (limit : Int) :
    @nextOccurrences reader s after limit = @nextOccurrences reader' s after limit := by
  unfold nextOccurrences
  rw [When.resolve_congr alike]

namespace Service

/-- Whether two requests ask for the same occurrences. -/
structure SameSearch (entries entries' : Entries) : Prop where
  rule : field entries' "rule" = field entries "rule"
  start : field entries' "start" = field entries "start"
  timezone : field entries' "timezone" = field entries "timezone"
  after : field entries' "after" = field entries "after"

/-- The size of the preview that a request asks for, within the bounds of the settings. -/
def resolvedCount (service : Service) (entries : Entries) : Except Failure Nat := do
  let settings ← service.settings
  let requested ← requestedCount entries
  return settings.preview.clamp requested

/-- Whether two readers of spoken moments make the same of the start of a request, and of the moment
after which it asks for occurrences. -/
structure ReadsAlike (reader reader' : SpokenReader) (service : Service) (entries : Entries) :
    Prop where
  start : StartsAlike reader reader' service entries
  after : ∀ given ∈ afterOf entries,
    When.ReadAlike reader reader' given (service.zoneNameOf entries)

/-- The occurrences of a preview of some size, after a moment or from the first one on. -/
def previewed [SpokenReader] (schedule : Schedule) (after : Option When) (count : Nat) :
    Except Failure (List Moment) :=
  match after with
  | some after => schedule.nextOccurrences after count
  | none => firstOccurrences schedule count

/-! ## Requests that differ in their counts -/

section

variable {entries entries' : Entries}

/-- Requests for the same search go on from the same moment. -/
theorem SameSearch.afterOf_eq (same : SameSearch entries entries') :
    afterOf entries' = afterOf entries := by
  rw [afterOf, afterOf, same.after]

variable [ZoneDatabase] {reader : SpokenReader} {service : Service} {schedule : Schedule}
  {found : List Moment} {count : Nat}

/-- They describe the same schedule. -/
theorem SameSearch.scheduleOf_eq (same : SameSearch entries entries') (service : Service)
    (withAnchor : Bool) : @scheduleOf _ reader service entries' withAnchor =
      @scheduleOf _ reader service entries withAnchor := by
  simp only [scheduleOf, zoneNameOf, contentOf, same.rule, same.start, same.timezone]

/-- The next occurrence does not depend on the count. -/
theorem SameSearch.findNext_eq (same : SameSearch entries entries') (service : Service) :
    @findNext _ reader service entries' = @findNext _ reader service entries := by
  unfold findNext
  rw [same.scheduleOf_eq, same.afterOf_eq]

/-! ## Requests that are read alike -/

/-- The zone of a request is that of its name. -/
theorem zoneName_of_scheduleOf (h : @scheduleOf _ reader service entries true = .ok schedule) :
    schedule.zone.name = service.zoneNameOf entries := by
  unfold scheduleOf at h
  split at h
  · injection h
  · simp only [Bool.true_and, if_true] at h
    split at h
    · injection h
    · obtain ⟨settings, -, h⟩ := Except.bind_eq_ok.1 h
      obtain ⟨zone, hzone, h⟩ := Except.bind_eq_ok.1 h
      obtain ⟨_, _, resolved, -⟩ := Schedule.make_eq_ok h
      injection resolved with resolved
      rw [← resolved]
      exact name_of_resolve hzone

/-- The same preview is found by readers that make the same of a request. -/
theorem ReadsAlike.previewed_eq {reader' : SpokenReader}
    (alike : ReadsAlike reader reader' service entries)
    (made : @scheduleOf _ reader service entries true = .ok schedule) (count : Nat) :
    @previewed reader schedule (afterOf entries) count =
      @previewed reader' schedule (afterOf entries) count := by
  have name := zoneName_of_scheduleOf made
  unfold previewed
  cases hafter : afterOf entries with
  | some after => exact Schedule.nextOccurrences_congr (name ▸ alike.after after hafter) count
  | none =>
    -- Nothing is left to be read once the first occurrence has been found
    have others (first : Moment) :
        @Schedule.nextOccurrences reader schedule (.stamp first.stamp) (count - 1 : Nat) =
          @Schedule.nextOccurrences reader' schedule (.stamp first.stamp) (count - 1 : Nat) :=
      Schedule.nextOccurrences_congr (When.readAlike_stamp _ _) _
    unfold firstOccurrences
    simp only [others]

/-- The same next occurrence is found. -/
theorem ReadsAlike.findNext_eq {reader' : SpokenReader}
    (alike : ReadsAlike reader reader' service entries) :
    @findNext _ reader service entries = @findNext _ reader' service entries := by
  unfold findNext
  rw [← scheduleOf_congr alike.start]
  cases made : @scheduleOf _ reader service entries true with
  | error failure => rfl
  | ok schedule =>
    have name := zoneName_of_scheduleOf made
    cases hafter : afterOf entries with
    | none => rfl
    | some after =>
      have alike := alike.after after hafter
      simp only [bind, Except.bind]
      rw [@Schedule.next_eq reader, @Schedule.next_eq reader',
        Schedule.nextOccurrences_congr (name ▸ alike)]

/-! ## Answers and searches -/

/-- The schedule of a request and its preview, with both ways to it in one place. -/
theorem previewOf_eq (reader : SpokenReader) (service : Service) (entries : Entries)
    (settings : Settings) : service.previewOf entries settings = do
      let requested ← requestedCount entries
      let schedule ← service.scheduleOf entries true
      let found ← previewed schedule (afterOf entries) (settings.preview.clamp requested)
      return (schedule, found) := by
  unfold previewOf previewed
  cases afterOf entries <;> rfl

/-- What an answered preview tells. -/
theorem askPreview_eq_ok {text : String}
    (h : service.askPreview reader entries = .ok (.occurrences text found)) :
    ∃ settings count schedule, service.settings = .ok settings ∧
      service.resolvedCount entries = .ok count ∧ count ≤ settings.preview.maxCount.val ∧
      service.scheduleOf entries true = .ok schedule ∧
      previewed schedule (afterOf entries) count = .ok found := by
  rw [askPreview_eq] at h
  obtain ⟨settings, configured, h⟩ := Except.bind_eq_ok.1 h
  split at h
  · split at h
    · injection h with h
      injection h
    · injection h
  · rename_i schedule shown hpreview
    obtain ⟨_, -, h⟩ := Except.bind_eq_ok.1 h
    injection h with h
    injection h with _ h
    subst h
    rw [previewOf_eq] at hpreview
    obtain ⟨requested, counted, hpreview⟩ := Except.bind_eq_ok.1 hpreview
    obtain ⟨schedule', made, hpreview⟩ := Except.bind_eq_ok.1 hpreview
    obtain ⟨list, hlist, hpreview⟩ := Except.bind_eq_ok.1 hpreview
    injection hpreview with hpreview
    injection hpreview with _ same
    subst same
    -- The size is the one that was requested, within the settings
    have resolved : service.resolvedCount entries =
        .ok (settings.preview.clamp requested) := by
      rw [resolvedCount, configured, counted]
      rfl
    exact ⟨settings, _, schedule', configured, resolved, settings.preview.clamp_le requested,
      made, hlist⟩

/-- All answers about the occurrences of a request are found by searches from one bound on. -/
theorem exists_bound_of_previewed (made : @scheduleOf _ reader service entries true = .ok schedule)
    (h : previewed schedule (afterOf entries) count = .ok found) :
    ∃ series bound, schedule.series = some series ∧
      (⟨bound, true⟩ : Query).InZone series.zone ∧ (afterOf entries = none → bound = none) ∧
      (∀ count found, previewed schedule (afterOf entries) count = .ok found →
        series.occurrences bound count = .ok found) ∧
      ∀ next, service.findNext entries = .ok next →
        ∃ one, series.occurrences bound 1 = .ok one ∧ next = one.head? := by
  cases hafter : afterOf entries with
  | none =>
    -- The first occurrence and those after it make up one search from the anchor on
    obtain ⟨series, region, asks⟩ := exists_asks (fun _ => reader) made (fun _ _ _ _ => rfl)
      hafter
    have inZone := Query.inZone_none true series.zone
    refine ⟨series, none, asks.bound, inZone, fun _ => rfl, ?_, ?_⟩
    · intro count found h
      exact occurrences_of_firstOccurrences asks h
    · intro next h
      rw [findNext_first asks 0, ← Series.head?_occurrences inZone] at h
      obtain ⟨one, hone, same⟩ := Except.map_eq_ok.1 h
      exact ⟨one, hone, same.symm⟩
  | some after =>
    -- One question is enough, and its moment is the bound
    obtain ⟨_, series, -, -, bound, -⟩ := scheduleOf_eq_ok made
    rw [hafter] at h
    have asked : schedule.occurrences (some after) count = .ok found := h
    obtain ⟨first, inZone, answers⟩ := Schedule.occurrences_eq_ok bound asked
    refine ⟨series, first, bound, inZone, nofun, ?_, ?_⟩
    · intro count found h
      exact ((answers count found).1 h).2
    · intro next h
      unfold findNext at h
      rw [made, hafter] at h
      have h : schedule.next after = .ok next := h
      rw [Schedule.next_eq] at h
      obtain ⟨one, hone, same⟩ := Except.map_eq_ok.1 h
      exact ⟨one, ((answers 1 one).1 hone).2, same.symm⟩

/-! ## The answers agree -/

/-- An answered preview shows no more occurrences than its count, which the settings bound, and its
body tells their number. The next occurrence is the first of them, and a larger preview begins with
them, if those requests are read alike. Without a moment to start from they are those of one
question to the series, as far as it allows such a limit. -/
theorem askPreview_agrees {text : String}
    (h : service.askPreview reader entries = .ok (.occurrences text found)) :
    ∃ settings count schedule series, service.settings = .ok settings ∧
      service.resolvedCount entries = .ok count ∧
      service.scheduleOf entries true = .ok schedule ∧ schedule.series = some series ∧
      (∀ (reader' : SpokenReader) (entries' : Entries), SameSearch entries entries' →
        ReadsAlike reader reader' service entries →
          (1 ≤ count → ∀ next, service.askNext reader' entries' = .ok (.next next) →
            next = found.head? ∧ (next = none ↔ found = [])) ∧
          ∀ count' text' found', service.resolvedCount entries' = .ok count' → count ≤ count' →
            service.askPreview reader' entries' = .ok (.occurrences text' found') →
              found = found'.take count) ∧
      (afterOf entries = none → series.occurrencesAfter none count =
        if Series.maxLimit < count then .error .limitTooLarge else .ok found) ∧
      (Answer.occurrences text found).body.bind (Document.get? "count") =
        some (.int found.length) ∧
      found.length ≤ count ∧ count ≤ settings.preview.maxCount.val := by
  obtain ⟨settings, count, schedule, configured, resolved, bounded, made, shown⟩ :=
    askPreview_eq_ok h
  obtain ⟨series, bound, hs, inZone, unbounded, previews, nexts⟩ :=
    exists_bound_of_previewed made shown
  have all := previews count found shown
  have cut {n : Nat} (le : n ≤ count) : series.occurrences bound n = .ok (found.take n) := by
    obtain ⟨k, rfl⟩ := Nat.exists_eq_add_of_le le
    exact Series.occurrences_le inZone all
  -- Each answer is compared with the beginning of this one search that is as long
  refine ⟨settings, count, schedule, series, configured, resolved, made, hs, ?_, ?_, rfl, ?_,
    bounded⟩
  · intro reader' entries' same alike
    constructor
    · intro some next answered
      have hnext := askNext_eq_next.1 answered
      rw [same.findNext_eq, ← alike.findNext_eq] at hnext
      obtain ⟨one, hone, rfl⟩ := nexts next hnext
      rw [cut some] at hone
      injection hone with hone
      have head : one.head? = found.head? := by
        rw [← hone]
        cases found <;> rfl
      exact ⟨head, by rw [head, List.head?_eq_none_iff]⟩
    · intro count' text' found' resolved' le h'
      obtain ⟨_, _, schedule', -, resolved'', -, made', shown'⟩ := askPreview_eq_ok h'
      rw [resolved'] at resolved''
      injection resolved'' with same_count
      rw [same.scheduleOf_eq, ← scheduleOf_congr alike.start, made] at made'
      injection made' with same_schedule
      rw [← same_count, ← same_schedule, same.afterOf_eq, ← alike.previewed_eq made] at shown'
      obtain ⟨k, rfl⟩ := Nat.exists_eq_add_of_le le
      have longer := Series.occurrences_le inZone (previews _ found' shown')
      exact Except.ok.inj (all.symm.trans longer)
  · intro from_first
    rw [unbounded from_first] at all
    exact Series.occurrencesAfter_none all
  · have whole : found = found.take count := Except.ok.inj (all.symm.trans (cut (Nat.le_refl _)))
    rw [whole]
    exact List.length_take_le count found

end

/-- Four days without the second of them, two at a time. -/
def pairOfDays : Entries :=
  [("rule", .text "FREQ=DAILY;COUNT=4;EXDATE=20120102"), ("start", .text "2012-01-01"),
    ("count", .int 2)]

/-- The same days, more of them than the settings allow. -/
def allOfTheDays : Entries :=
  [("rule", .text "FREQ=DAILY;COUNT=4;EXDATE=20120102"), ("start", .text "2012-01-01"),
    ("count", .int 1000)]

/-- The beginning of a day of UTC. -/
def dayOfUtc (date : Date) : Moment := ⟨⟨date, .midnight⟩, .region .utc, false⟩

/-- The first of the days. -/
def firstDay : Moment := dayOfUtc ⟨2012, 1, 1, Schedule.valid_first⟩

/-- The first two of the days that are left. -/
def firstPair : List Moment := [firstDay, dayOfUtc ⟨2012, 1, 3, Schedule.valid_third⟩]

/-- All days that are left. -/
def leftDays : List Moment := firstPair ++ [dayOfUtc ⟨2012, 1, 4, by decide⟩]

/-- Two of the days begin the list of all of them, and the next day is the first of both lists. -/
theorem days_agree :
    usual.askPreview Spoken.reader pairOfDays =
        .ok (.occurrences "FREQ=DAILY;COUNT=4;EXDATE=20120102" firstPair) ∧
      usual.askPreview Spoken.reader allOfTheDays =
        .ok (.occurrences "FREQ=DAILY;COUNT=4;EXDATE=20120102" leftDays) ∧
      usual.askNext Spoken.reader allOfTheDays = .ok (.next (some firstDay)) ∧
      some firstDay = firstPair.head? ∧
      firstPair = leftDays.take 2 := by
  have pair : usual.askPreview Spoken.reader pairOfDays =
      .ok (.occurrences "FREQ=DAILY;COUNT=4;EXDATE=20120102" firstPair) := by
    decide +kernel
  have all : usual.askPreview Spoken.reader allOfTheDays =
      .ok (.occurrences "FREQ=DAILY;COUNT=4;EXDATE=20120102" leftDays) := by
    decide +kernel
  have first : usual.askNext Spoken.reader allOfTheDays = .ok (.next (some firstDay)) := by
    decide +kernel
  have two : usual.resolvedCount pairOfDays = .ok 2 := by decide +kernel
  have most : usual.resolvedCount allOfTheDays = .ok 366 := by decide +kernel
  obtain ⟨settings, count, schedule, series, -, resolved, -, -, agrees, -⟩ :=
    askPreview_agrees pair
  rw [two] at resolved
  injection resolved with resolved
  subst resolved
  -- The requests differ in their counts only, and no text in them is spoken
  obtain ⟨next, larger⟩ := agrees Spoken.reader allOfTheDays ⟨rfl, rfl, rfl, rfl⟩
    ⟨fun _ _ _ => rfl, fun _ _ _ _ _ => rfl⟩
  exact ⟨pair, all, first, (next (by decide) _ first).1, larger 366 _ _ most (by decide) all⟩

/-- A reader at a time when any text stands for one moment. -/
abbrev readAs (m : Moment) : SpokenReader := ⟨fun _ _ => .ok (some m)⟩

/-- One day, from tomorrow on. -/
def oneDay : Entries :=
  [("rule", .text "FREQ=DAILY"), ("start", .text "tomorrow"), ("count", .int 1)]

/-- The second of January 2012 is a date. -/
theorem valid_second : (1 ≤ 2012 ∧ 2012 ≤ 9999) ∧ (1 ≤ 1 ∧ 1 ≤ 12) ∧
    (1 ≤ 2 ∧ 2 ≤ monthLength (isLeapYear 2012) 1) := by decide

/-- The second of the days, which is tomorrow if it is read on the first. -/
def secondDay : Moment := dayOfUtc ⟨2012, 1, 2, valid_second⟩

/-- Its bound on previews is one. -/
theorem countless_pos : 0 < 9223372036854775808 := by decide

/-- A service that bounds previews by a size that no list has. -/
def generous : Service :=
  ⟨"UTC", .ok ⟨Settings.standard.lookahead,
    ⟨Preview.standard.defaultCount, ⟨9223372036854775808, countless_pos⟩⟩⟩⟩

/-- The days without the second of them, as many as such a service shows. -/
def countlessDays : Entries :=
  [("rule", .text "FREQ=DAILY;COUNT=4;EXDATE=20120102"), ("start", .text "2012-01-01"),
    ("count", .int 9223372036854775808)]

/-- What is tomorrow in one request may be today in the next one. And a preview that looks for the
first occurrence by itself may be one longer than the limit of a question to the series. -/
theorem previews_disagree :
    (usual.askPreview (readAs firstDay) oneDay = .ok (.occurrences "FREQ=DAILY" [firstDay]) ∧
        usual.askNext (readAs secondDay) oneDay = .ok (.next (some secondDay)) ∧
        some secondDay ≠ [firstDay].head?) ∧
      generous.resolvedCount countlessDays = .ok 9223372036854775808 ∧
      generous.askPreview Spoken.reader countlessDays =
        .ok (.occurrences "FREQ=DAILY;COUNT=4;EXDATE=20120102" leftDays) ∧
      (generous.scheduleOf countlessDays true >>= fun schedule =>
        schedule.occurrences none 9223372036854775808) ≠ .ok leftDays := by
  refine ⟨⟨?first, ?next, by decide⟩, ?count, ?preview, ?question⟩
  all_goals decide +kernel

end Service

end Recurrence
