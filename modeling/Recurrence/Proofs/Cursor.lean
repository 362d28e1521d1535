import Recurrence.Moment.Spoken
import Recurrence.Proofs.Conversions
import Recurrence.Proofs.Narrowing
import Recurrence.Service

/-!
# Asking the service for one occurrence after the other

A client asks for the next occurrence, sends the text of the answer back as the moment after which
it asks again, and so on. The text keeps the instant of an occurrence, and the clocks of the zone
may show another reading at that instant. So the answers are those of a preview exactly as long as
each text leads on to the occurrence that follows.

Each request reads its start anew. A start such as `tomorrow` begins another series at another time,
so what is said here is about requests whose readers of spoken moments make the same of the start.

* `Service.StartsAlike`: the readers of two requests make the same of the start.
* `Service.cursor`: the answers to the questions of such a client.
* `Series.LeadsTo`: whether the text of an occurrence leads on to another one.
* `Service.cursor_agrees_iff`: when the answers are those of a preview, and when they come back to
  an earlier one.
-/

namespace Recurrence

/-! ## Entries of a request -/

namespace Document

/-- What has been inserted is found. -/
theorem get?_insertEntry_self (name : String) (value : Document)
    (entries : List (String × Document)) :
    get? name (insertEntry name value entries) = some value := by
  induction entries with
  | nil => simp [insertEntry, get?]
  | cons entry rest ih =>
    rw [insertEntry]
    split
    · simp [get?]
    · rename_i other
      simpa [get?, other] using ih

/-- Any other entry is found as before. -/
theorem get?_insertEntry_of_ne {name other : String} (ne : name ≠ other) (value : Document)
    (entries : List (String × Document)) :
    get? other (insertEntry name value entries) = get? other entries := by
  induction entries with
  | nil => simp [insertEntry, get?, ne]
  | cons entry rest ih =>
    rw [insertEntry]
    split
    · rename_i same
      have same : entry.1 = name := beq_iff_eq.1 same
      simp [get?, same, ne]
    · cases h : entry.1 == other with
      | true => simp [get?, h]
      | false => simpa [get?, h] using ih

end Document

namespace Moment

/-- The offsets that a region gives are whole seconds. -/
theorem exists_offset {m : Moment} {region : Region} (hz : m.zone = .region region)
    (below_day : region.history.BelowDay) :
    ∃ seconds : Int, m.offset = seconds * ticksPerSecond ∧ seconds.natAbs < 86400 := by
  refine ⟨_, ?_, History.offsetOn_below_day below_day
    (m.reading.seconds - Zone.unixStart) m.second⟩
  rw [offset, hz]
  rfl

/-- Different readings in a region have different texts. -/
theorem toIso_ne_of_isBefore {a b : Moment} {region : Region} (ha : a.zone = .region region)
    (hb : b.zone = .region region) (below_day : region.history.BelowDay)
    (h : a.isBefore b = true) : a.toIso ≠ b.toIso := by
  intro same
  obtain ⟨_, offset_a, below_a⟩ := exists_offset ha below_day
  obtain ⟨_, offset_b, below_b⟩ := exists_offset hb below_day
  have texts : a.write = b.write := String.ofList_injective same
  have read := Iso.read_write offset_a below_a
  rw [texts, Iso.read_write offset_b below_b] at read
  injection read with read
  injection read with readings
  have lt := (isBefore_iff (ha.trans hb.symm)).1 h
  rw [readings] at lt
  exact Nat.lt_irrefl _ lt

/-- The text of a moment is not empty. -/
theorem toIso_ne_empty (m : Moment) : m.toIso ≠ "" := by
  intro h
  have : m.write = [] := String.ofList_injective h
  simp [write] at this

end Moment

namespace Series

/-- Whether the text of an occurrence leads on to another one: at the instant of the first, the
clocks of the zone show a reading that is not before it, but before the other one, and a search
from that reading has a horizon. -/
def LeadsTo (s : Series) (a b : Moment) : Prop :=
  ∃ r, Moment.ofInstant a.instant s.zone = .ok r ∧ r.isBefore a = false ∧ r.isBefore b = true ∧
    (s.fields.count = none → ∃ horizon, r.date.shiftYears s.lookahead.val = .ok horizon)

/-- The text of an occurrence leads on to the one that follows exactly if that is the next one
after the reading of its instant. -/
theorem leadsTo_iff {s : Series} {bound : Option Moment} {a b : Moment}
    (hz : (⟨bound, true⟩ : Query).InZone s.zone) (ha : s.nextOf bound = .ok (some a))
    (hb : s.nextOf (some a) = .ok (some b)) :
    s.LeadsTo a b ↔
      (orFail (Moment.ofInstant a.instant s.zone) >>= fun r => s.nextOf (some r)) =
        .ok (some b) := by
  constructor
  · rintro ⟨r, hr, h⟩
    exact Except.bind_eq_ok.2 ⟨r, orFail_eq_ok.2 hr,
      (nextOf_eq_following_iff hz (Moment.zone_ofInstant hr) ha hb).2 h⟩
  · intro h
    obtain ⟨r, hr, h⟩ := Except.bind_eq_ok.1 h
    have hr := orFail_eq_ok.1 hr
    exact ⟨r, hr, (nextOf_eq_following_iff hz (Moment.zone_ofInstant hr) ha hb).1 h⟩

end Series

namespace Service

/-! ## Questions -/

section

variable {entries : Entries}

/-- The entries with the text of a moment after which occurrences are asked for. -/
def withAfter (entries : Entries) (text : String) : Entries :=
  Document.insertEntry "after" (.text text) entries

/-- Setting where to go on leaves the other fields. -/
theorem field_withAfter {name : String} (ne : "after" ≠ name) (text : String) :
    field (withAfter entries text) name = field entries name := by
  rw [field, field, withAfter, Document.get?_insertEntry_of_ne ne]

/-- What a request gives for the anchor. -/
def startOf (entries : Entries) : When := .ofDocument (field entries "start")

/-- It is found where it was set. -/
theorem afterOf_withAfter {text : String} (h : text ≠ "") :
    afterOf (withAfter entries text) = some (.text text) := by
  have given : field (withAfter entries text) "after" = .text text := by
    rw [field, withAfter, Document.get?_insertEntry_self]
    rfl
  simp [afterOf, given, Document.isGiven, When.ofDocument, h]

end

section

variable [ZoneDatabase] {reader : SpokenReader} {readers : Nat → SpokenReader}
  {service : Service} {entries : Entries} {schedule : Schedule} {series : Series} {region : Region}
  {a b : Moment} {found : List Moment} {i : Nat}

/-- The answer to the question for the next occurrence. -/
def askNext (reader : SpokenReader) (service : Service) (entries : Entries) :
    Except Failure Answer :=
  service.answer ⟨"POST", "/api/rules/next", some (.object entries)⟩

/-- The answer to the question for a preview. -/
def askPreview (reader : SpokenReader) (service : Service) (entries : Entries) :
    Except Failure Answer :=
  service.answer ⟨"POST", "/api/rules/occurrences", some (.object entries)⟩

/-- The answers that one gets one by one: after the first question, each text is sent back as the
moment after which the next occurrence is asked for. Each question has its own reader of spoken
moments. -/
def cursor (readers : Nat → SpokenReader) (service : Service) (entries : Entries) :
    Nat → Except Failure Answer
  | 0 => service.askNext (readers 0) entries
  | i + 1 => do
    match ← cursor readers service entries i with
    | .next (some m) => service.askNext (readers (i + 1)) (withAfter entries m.toIso)
    | answer => return answer

/-- Whether two readers make the same of the start of a request, in its zone. -/
def StartsAlike (reader reader' : SpokenReader) (service : Service) (entries : Entries) : Prop :=
  When.ReadAlike reader reader' (startOf entries) (service.zoneNameOf entries)

/-- A question for the next occurrence is put to the service. -/
theorem askNext_eq : service.askNext reader entries = service.nextOccurrence entries := rfl

/-- So is a question for a preview. -/
theorem askPreview_eq : service.askPreview reader entries = service.listOccurrences entries := rfl

/-- A zone that is chosen by name has that name. -/
theorem name_of_resolve {name : String} {zone : Zone}
    (h : (ZoneChoice.named name).resolve = .ok zone) : zone.name = name := by
  rw [ZoneChoice.resolve] at h
  split at h
  · rename_i found
    injection h with h
    obtain ⟨region, known, rfl⟩ := Option.map_eq_some_iff.1 found
    rw [← h]
    exact beq_iff_eq.1 (List.find?_eq_some_iff_append.1 known).1
  · injection h

/-- Readers that make the same of the start lead to the same schedule, or to the same failure. -/
theorem scheduleOf_congr {reader' : SpokenReader}
    (alike : StartsAlike reader reader' service entries) :
    @scheduleOf _ reader service entries true = @scheduleOf _ reader' service entries true := by
  unfold scheduleOf
  split
  · rfl
  · simp only [Bool.true_and, if_true]
    split
    · rfl
    · -- The start is read under the name by which the zone has been chosen
      refine bind_congr fun settings => ?_
      cases hzone : (ZoneChoice.named (service.zoneNameOf entries)).resolve with
      | error failure => rfl
      | ok zone =>
        have alike : When.ReadAlike reader reader' (startOf entries) zone.name :=
          name_of_resolve hzone ▸ alike
        have anchor := When.resolve_congr alike
        unfold startOf at anchor
        simp only [bind, Except.bind, Schedule.make, ZoneChoice.resolve, anchor]

/-- The moment after which occurrences are asked for is no part of the schedule. -/
theorem scheduleOf_withAfter (service : Service) (entries : Entries) (text : String)
    (withAnchor : Bool) :
    @scheduleOf _ reader service (withAfter entries text) withAnchor =
      @scheduleOf _ reader service entries withAnchor := by
  simp only [scheduleOf, zoneNameOf, contentOf, field_withAfter (by decide : "after" ≠ "rule"),
    field_withAfter (by decide : "after" ≠ "start"),
    field_withAfter (by decide : "after" ≠ "timezone")]

/-- What a schedule of a request with an anchor is made of. -/
theorem scheduleOf_eq_ok (h : @scheduleOf _ reader service entries true = .ok schedule) :
    ∃ region series, region.history.BelowDay ∧ schedule.zone = .region region ∧
      schedule.series = some series ∧ series.zone = .region region := by
  unfold scheduleOf at h
  split at h
  · injection h
  · simp only [if_true] at h
    split at h
    · injection h
    · obtain ⟨settings, -, h⟩ := Except.bind_eq_ok.1 h
      obtain ⟨zone, hzone, h⟩ := Except.bind_eq_ok.1 h
      obtain ⟨anchor, series, resolved, -, -, -, hseries, made⟩ := Schedule.make_eq_ok h
      injection resolved with resolved
      -- Only regions of the database have names
      rw [ZoneChoice.resolve] at hzone
      split at hzone
      · rename_i found
        obtain ⟨region, known, rfl⟩ := Option.map_eq_some_iff.1 found
        injection hzone with hzone
        have zone : schedule.zone = .region region := by rw [← resolved, hzone]
        have below_day := ZoneDatabase.below_day region (List.mem_of_find?_eq_some known)
        exact ⟨region, series, below_day, zone, hseries, (Series.make_eq_ok made).2.1.trans zone⟩
      · injection hzone

/-- A request that the service accepts for a series, from its first occurrence on and with each of
some readers. -/
structure Asks (readers : Nat → SpokenReader) (service : Service) (entries : Entries)
    (schedule : Schedule) (series : Series) (region : Region) : Prop where
  made : ∀ i, @scheduleOf _ (readers i) service entries true = .ok schedule
  bound : schedule.series = some series
  below_day : region.history.BelowDay
  zone_schedule : schedule.zone = .region region
  zone_series : series.zone = .region region
  from_first : afterOf entries = none

/-- Readers that make the same of the start ask one schedule. -/
theorem exists_asks (readers : Nat → SpokenReader)
    (h : @scheduleOf _ reader service entries true = .ok schedule)
    (alike : ∀ i, StartsAlike reader (readers i) service entries)
    (hafter : afterOf entries = none) :
    ∃ series region, Asks readers service entries schedule series region := by
  obtain ⟨region, series, below_day, zone, bound, zone'⟩ := scheduleOf_eq_ok h
  exact ⟨series, region, fun i => scheduleOf_congr (alike i) ▸ h, bound, below_day, zone, zone',
    hafter⟩

/-- A next occurrence is the answer exactly if it is found. -/
theorem askNext_eq_next {found : Option Moment} :
    service.askNext reader entries = .ok (.next found) ↔ service.findNext entries = .ok found := by
  rw [askNext_eq, nextOccurrence]
  cases service.findNext entries with
  | ok m => simp
  | error failure =>
    simp only [reduceCtorEq, iff_false]
    split <;> simp

/-- The first question is answered by the first occurrence. -/
theorem findNext_first (hq : Asks readers service entries schedule series region) (i : Nat) :
    @findNext _ (readers i) service entries = series.nextOf none := by
  unfold findNext
  rw [hq.made, hq.from_first]
  exact Schedule.first_eq hq.bound

/-- The text of an occurrence asks for what comes after the reading of its instant. -/
theorem findNext_withAfter (hq : Asks readers service entries schedule series region)
    (ha : a.zone = series.zone) (i : Nat) :
    @findNext _ (readers i) service (withAfter entries a.toIso) =
      orFail (Moment.ofInstant a.instant series.zone) >>= fun r => series.nextOf (some r) := by
  obtain ⟨seconds, offset, below⟩ := Moment.exists_offset (ha.trans hq.zone_series) hq.below_day
  have resolved := @When.resolve_toIso (readers i) _ _ offset below region
  unfold findNext
  rw [scheduleOf_withAfter, hq.made, afterOf_withAfter a.toIso_ne_empty]
  simp only [bind, Except.bind, Schedule.next, Schedule.requireSeries_eq hq.bound,
    hq.zone_schedule, resolved, hq.zone_series]
  cases h : Moment.ofInstant a.instant (.region region) with
  | error fault => rfl
  | ok r =>
    have zone : r.zone = series.zone := (Moment.zone_ofInstant h).trans hq.zone_series.symm
    exact Schedule.nextAfter_stamp zone

/-! ## Previews -/

/-- The first occurrences are those of one question to the series. -/
theorem occurrences_of_firstOccurrences (hq : Asks readers service entries schedule series region)
    {count : Nat} (h : @firstOccurrences reader schedule count = .ok found) :
    series.occurrences none count = .ok found := by
  have inZone := Query.inZone_none true series.zone
  cases count with
  | zero => exact (Series.occurrences_zero series none).trans h
  | succ n =>
    rw [firstOccurrences, if_neg n.succ_ne_zero, Schedule.first_eq hq.bound] at h
    obtain ⟨first, hfirst, h⟩ := Except.bind_eq_ok.1 h
    rw [Series.occurrences_succ inZone, hfirst]
    cases first with
    | none => exact h
    | some first =>
      refine Except.map_eq_ok.2 ?_
      cases n with
      | zero =>
        injection h with h
        exact ⟨[], Series.occurrences_zero series _, h⟩
      | succ n =>
        -- The others are asked for beyond the first one
        have zone := (Series.nextOf_admits inZone hfirst).1
        have zones := hq.zone_series.trans hq.zone_schedule.symm
        simp only [if_neg (by omega : ¬n + 1 + 1 = 1)] at h
        obtain ⟨rest, hrest, h⟩ := Except.bind_eq_ok.1 h
        injection h with h
        exact ⟨rest, ((Schedule.nextOccurrences_stamp hq.bound zones zone).1 hrest).2, h⟩

/-- What an answered preview from the first occurrence on tells. -/
theorem askPreview_eq_occurrences {text : String}
    (h : service.askPreview reader entries = .ok (.occurrences text found))
    (hafter : afterOf entries = none) :
    ∃ schedule count, service.scheduleOf entries true = .ok schedule ∧
      firstOccurrences schedule count = .ok found := by
  rw [askPreview_eq] at h
  obtain ⟨settings, -, h⟩ := Except.bind_eq_ok.1 h
  split at h
  · split at h
    · injection h with h
      injection h
    · injection h
  · rename_i schedule preview hpreview
    obtain ⟨shown, -, h⟩ := Except.bind_eq_ok.1 h
    injection h with h
    injection h with _ h
    subst h
    obtain ⟨requested, -, hpreview⟩ := Except.bind_eq_ok.1 hpreview
    obtain ⟨schedule', hs, hpreview⟩ := Except.bind_eq_ok.1 hpreview
    -- Nothing is said of where to go on, so the preview begins with the first occurrence
    rw [hafter] at hpreview
    obtain ⟨preview', hfirst, hpreview⟩ := Except.bind_eq_ok.1 hpreview
    injection hpreview with hpreview
    injection hpreview with same same'
    subst same same'
    exact ⟨_, _, hs, hfirst⟩

/-! ## One answer after the other -/

/-- The first answer is the first occurrence. -/
theorem cursor_zero_iff (hq : Asks readers service entries schedule series region)
    {found : Option Moment} :
    service.cursor readers entries 0 = .ok (.next found) ↔ series.nextOf none = .ok found := by
  rw [cursor, askNext_eq_next, findNext_first hq 0]

/-- After an occurrence, the answer is what comes after the reading of its instant. -/
theorem cursor_succ_iff (hq : Asks readers service entries schedule series region)
    (h : service.cursor readers entries i = .ok (.next (some a))) (ha : a.zone = series.zone)
    {found : Option Moment} :
    service.cursor readers entries (i + 1) = .ok (.next found) ↔
      (orFail (Moment.ofInstant a.instant series.zone) >>= fun r => series.nextOf (some r)) =
        .ok found := by
  rw [cursor, h, ← findNext_withAfter hq ha (i + 1)]
  exact askNext_eq_next

/-- An occurrence is only answered after another one. -/
theorem exists_cursor_of_succ (h : service.cursor readers entries (i + 1) = .ok (.next (some b))) :
    ∃ a, service.cursor readers entries i = .ok (.next (some a)) := by
  rw [cursor] at h
  obtain ⟨answer, hanswer, h⟩ := Except.bind_eq_ok.1 h
  split at h
  · exact ⟨_, hanswer⟩
  · rename_i other
    injection h with h
    exact absurd h (other b)

/-- Every occurrence that is answered is the next one after some moment of the zone. -/
theorem exists_nextOf_cursor (hq : Asks readers service entries schedule series region)
    (h : service.cursor readers entries i = .ok (.next (some a))) :
    ∃ bound, (⟨bound, true⟩ : Query).InZone series.zone ∧
      series.nextOf bound = .ok (some a) := by
  induction i generalizing a with
  | zero => exact ⟨none, Query.inZone_none true _, (cursor_zero_iff hq).1 h⟩
  | succ i ih =>
    obtain ⟨p, hp⟩ := exists_cursor_of_succ h
    obtain ⟨bound, hz, hnext⟩ := ih hp
    have zone := (Series.nextOf_admits hz hnext).1
    obtain ⟨r, hr, h⟩ := Except.bind_eq_ok.1 ((cursor_succ_iff hq hp zone).1 h)
    exact ⟨some r, Series.inZone_some (Moment.zone_ofInstant (orFail_eq_ok.1 hr)), h⟩

/-- Answers are in the zone of the series. -/
theorem zone_of_cursor (hq : Asks readers service entries schedule series region)
    (h : service.cursor readers entries i = .ok (.next (some a))) : a.zone = series.zone := by
  obtain ⟨bound, hz, hnext⟩ := exists_nextOf_cursor hq h
  exact (Series.nextOf_admits hz hnext).1

/-- The next answer is later exactly if the reading of the last one's instant is not earlier. -/
theorem isBefore_cursor_succ_iff (hq : Asks readers service entries schedule series region)
    (ha : service.cursor readers entries i = .ok (.next (some a)))
    (hb : service.cursor readers entries (i + 1) = .ok (.next (some b))) {r : Moment}
    (hr : Moment.ofInstant a.instant series.zone = .ok r) :
    a.isBefore b = true ↔ r.isBefore a = false := by
  obtain ⟨bound, hz, hnext⟩ := exists_nextOf_cursor hq ha
  have zone_a := zone_of_cursor hq ha
  have zone_b := zone_of_cursor hq hb
  have zone_r := Moment.zone_ofInstant hr
  have hb := (cursor_succ_iff hq ha zone_a).1 hb
  rw [hr] at hb
  constructor
  · exact Series.not_before_of_nextOf hz zone_r hnext hb
  · intro le
    have le := (Moment.isBefore_eq_false_iff (zone_r.trans zone_a.symm)).1 le
    have lt : r.isBefore b = true := Series.nextOf_accepted (Series.inZone_some zone_r) hb
    have lt := (Moment.isBefore_iff (zone_r.trans zone_b.symm)).1 lt
    exact (Moment.isBefore_iff (zone_a.trans zone_b.symm)).2 (Nat.lt_of_le_of_lt le lt)

/-- If no text leads back, the answers come later and later. -/
theorem isBefore_of_cursor (hq : Asks readers service entries schedule series region)
    (forward : ∀ i a r, service.cursor readers entries i = .ok (.next (some a)) →
      Moment.ofInstant a.instant series.zone = .ok r → r.isBefore a = false) {j : Nat}
    (lt : i < j) (ha : service.cursor readers entries i = .ok (.next (some a)))
    (hb : service.cursor readers entries j = .ok (.next (some b))) : a.isBefore b = true := by
  have step {i : Nat} {a b : Moment} (ha : service.cursor readers entries i = .ok (.next (some a)))
      (hb : service.cursor readers entries (i + 1) = .ok (.next (some b))) :
      a.isBefore b = true := by
    obtain ⟨r, hr, -⟩ := Except.bind_eq_ok.1 ((cursor_succ_iff hq ha (zone_of_cursor hq ha)).1 hb)
    have hr := orFail_eq_ok.1 hr
    exact (isBefore_cursor_succ_iff hq ha hb hr).2 (forward i a r ha hr)
  -- Step by step: no text leads back
  induction j, lt using Nat.le_induction generalizing b with
  | base => exact step ha hb
  | succ j _ ih =>
    obtain ⟨c, hc⟩ := exists_cursor_of_succ hb
    exact Moment.isBefore_trans ((zone_of_cursor hq ha).trans (zone_of_cursor hq hc).symm)
      ((zone_of_cursor hq hc).trans (zone_of_cursor hq hb).symm) (ih hc) (step hc hb)

/-! ## Answers and previews -/

/-- The answers are the occurrences of a preview exactly if each text leads on to the occurrence
that follows. -/
theorem cursor_eq_getElem?_iff (hq : Asks readers service entries schedule series region) {n : Nat}
    (h : series.occurrences none n = .ok found) :
    (∀ i m, found[i]? = some m → service.cursor readers entries i = .ok (.next (some m))) ↔
      ∀ i a b, found[i]? = some a → found[i + 1]? = some b → series.LeadsTo a b := by
  have inZone := Query.inZone_none true series.zone
  -- Whether a text leads on is whether the question that sends it is answered as it should be
  have leads {i : Nat} {a b : Moment} (ha : found[i]? = some a) (hb : found[i + 1]? = some b)
      (hi : service.cursor readers entries i = .ok (.next (some a))) :
      series.LeadsTo a b ↔ service.cursor readers entries (i + 1) = .ok (.next (some b)) := by
    obtain ⟨bound, hz, hnext⟩ := Series.exists_nextOf_getElem? inZone h ha
    have following :=
      Series.nextOf_getElem? inZone h (Series.lt_of_getElem?_occurrences inZone h hb) ha
    rw [hb] at following
    rw [Series.leadsTo_iff hz hnext following,
      cursor_succ_iff hq hi (Series.nextOf_admits hz hnext).1]
  constructor
  · intro same i a b ha hb
    exact (leads ha hb (same i a ha)).2 (same (i + 1) b hb)
  · intro hleads i
    induction i with
    | zero =>
      intro m hm
      obtain ⟨k, rfl⟩ :=
        Nat.exists_eq_add_of_lt (Series.lt_of_getElem?_occurrences inZone h hm)
      exact (cursor_zero_iff hq).2 (hm ▸ Series.nextOf_of_occurrences inZone h)
    | succ i ih =>
      intro b hb
      obtain ⟨a, ha⟩ := List.exists_getElem?_of_succ hb
      exact (leads ha hb (ih a ha)).1 (hleads i a b ha hb)

/-- After answers that are those of a preview, an earlier one comes back exactly if the clocks of
the zone show an earlier reading at the instant of the last one. -/
theorem exists_cursor_eq_iff (hq : Asks readers service entries schedule series region) {n : Nat}
    (h : series.occurrences none n = .ok found)
    (same : ∀ j ≤ i, service.cursor readers entries j = .ok (.next found[j]?))
    (ha : found[i]? = some a) (hb : service.cursor readers entries (i + 1) = .ok (.next (some b))) :
    (∃ j ≤ i, service.cursor readers entries j = service.cursor readers entries (i + 1)) ↔
      ∃ r, Moment.ofInstant a.instant series.zone = .ok r ∧ r.isBefore a = true := by
  have inZone := Query.inZone_none true series.zone
  have hi : service.cursor readers entries i = .ok (.next (some a)) := ha ▸ same i (Nat.le_refl i)
  obtain ⟨r, hr, hnext⟩ := Except.bind_eq_ok.1 ((cursor_succ_iff hq hi (zone_of_cursor hq hi)).1 hb)
  have hr := orFail_eq_ok.1 hr
  have zone := Moment.zone_ofInstant hr
  constructor
  · rintro ⟨j, hj, eq⟩
    refine ⟨r, hr, Bool.of_not_eq_false fun le => ?_⟩
    have later := (isBefore_cursor_succ_iff hq hi hb hr).2 le
    rw [hb, same j hj] at eq
    injection eq with eq
    injection eq with hj'
    -- The answers so far are not later than the last one
    rcases Nat.lt_or_eq_of_le hj with lt | rfl
    · obtain ⟨lt_j, rfl⟩ := List.getElem?_eq_some_iff.1 hj'
      obtain ⟨lt_i, rfl⟩ := List.getElem?_eq_some_iff.1 ha
      have pairwise := Series.pairwise_occurrences inZone h
      have earlier := List.pairwise_iff_getElem.1 pairwise j i lt_j lt_i lt
      rw [Moment.isBefore_asymm earlier] at later
      injection later
    · rw [ha] at hj'
      injection hj' with hj'
      rw [hj', Moment.isBefore_irrefl] at later
      injection later
  · rintro ⟨r', hr', before⟩
    rw [hr] at hr'
    injection hr' with hr'
    subst hr'
    -- From an earlier reading the search finds one of the occurrences so far
    obtain ⟨j, hj, hfound⟩ :=
      Series.mem_of_nextOf_before inZone zone (Query.narrows_none r true) h ha before hnext
    exact ⟨j, hj, by rw [same j hj, hfound, hb]⟩

/-- The answers one by one are those of a preview exactly if each text leads on to the occurrence
that follows. The first one that differs repeats an earlier one exactly if the clocks of the zone
show an earlier reading at the instant of the last one, and if they never do, no text repeats. All
this is about questions that read the start as the preview does. -/
theorem cursor_agrees_iff {text : String} (readers : Nat → SpokenReader)
    (hafter : afterOf entries = none)
    (alike : ∀ i, StartsAlike reader (readers i) service entries)
    (h : service.askPreview reader entries = .ok (.occurrences text found)) :
    ∃ schedule series, service.scheduleOf entries true = .ok schedule ∧
      schedule.series = some series ∧ (found.map Moment.toIso).Nodup ∧
      ((∀ i m, found[i]? = some m → service.cursor readers entries i = .ok (.next (some m))) ↔
        ∀ i a b, found[i]? = some a → found[i + 1]? = some b → series.LeadsTo a b) ∧
      (∀ i a b, (∀ j ≤ i, service.cursor readers entries j = .ok (.next found[j]?)) →
        found[i]? = some a → service.cursor readers entries (i + 1) = .ok (.next (some b)) →
          ((∃ j ≤ i, service.cursor readers entries j = service.cursor readers entries (i + 1)) ↔
            ∃ r, Moment.ofInstant a.instant series.zone = .ok r ∧ r.isBefore a = true)) ∧
      ((∀ i a r, service.cursor readers entries i = .ok (.next (some a)) →
          Moment.ofInstant a.instant series.zone = .ok r → r.isBefore a = false) →
        ∀ i j a b, i < j → service.cursor readers entries i = .ok (.next (some a)) →
          service.cursor readers entries j = .ok (.next (some b)) → a.toIso ≠ b.toIso) := by
  obtain ⟨schedule, count, made, hfirst⟩ := askPreview_eq_occurrences h hafter
  obtain ⟨series, region, hq⟩ := exists_asks readers made alike hafter
  have inZone := Query.inZone_none true series.zone
  have hall := occurrences_of_firstOccurrences hq hfirst
  -- The preview is one walk, while each request starts anew from a text
  refine ⟨schedule, series, made, hq.bound, ?_, cursor_eq_getElem?_iff hq hall,
    fun i a b same => exists_cursor_eq_iff hq hall same, fun forward i j a b lt ha hb => ?_⟩
  · refine List.pairwise_map.2 ((Series.pairwise_occurrences inZone hall).imp_of_mem ?_)
    intro a b ha hb lt
    have zone_a := Series.zone_of_mem_occurrences inZone hall ha
    have zone_b := Series.zone_of_mem_occurrences inZone hall hb
    exact Moment.toIso_ne_of_isBefore (zone_a.trans hq.zone_series)
      (zone_b.trans hq.zone_series) hq.below_day lt
  · exact Moment.toIso_ne_of_isBefore ((zone_of_cursor hq ha).trans hq.zone_series)
      ((zone_of_cursor hq hb).trans hq.zone_series) hq.below_day
      (isBefore_of_cursor hq forward lt ha hb)

end

/-- Nights of Paris that its clocks skip, asked for in the second pass over the hour. -/
def parisNights : Entries :=
  [("rule", .text "FREQ=YEARLY;BYMONTH=3;BYMONTHDAY=31"),
    ("start", .text "2012-10-28T02:30:00+01:00"), ("timezone", .text "Europe/Paris"),
    ("count", .int 2)]

/-- A night of Paris at half past two. -/
def parisNight (date : Date) : Moment :=
  ⟨⟨date, ⟨9000000000, by decide⟩⟩, .region .paris, true⟩

/-- A service with the usual settings. -/
def usual : Service := ⟨"UTC", .ok .standard⟩

/-- The first of these nights does not lead on to the second: it comes back at once. -/
theorem parisNights_come_back :
    ∃ schedule series, usual.scheduleOf parisNights true = .ok schedule ∧
      schedule.series = some series ∧
      ¬series.LeadsTo (parisNight ⟨2013, 3, 31, by decide⟩)
        (parisNight ⟨2014, 3, 31, by decide⟩) ∧
      usual.cursor (fun _ => Spoken.reader) parisNights 1 =
        usual.cursor (fun _ => Spoken.reader) parisNights 0 := by
  have preview : usual.askPreview Spoken.reader parisNights =
      .ok (.occurrences "FREQ=YEARLY;BYMONTH=3;BYMONTHDAY=31"
        [parisNight ⟨2013, 3, 31, by decide⟩, parisNight ⟨2014, 3, 31, by decide⟩]) := by
    decide +kernel
  have again : usual.cursor (fun _ => Spoken.reader) parisNights 1 =
      .ok (.next (some (parisNight ⟨2013, 3, 31, by decide⟩))) := by decide +kernel
  obtain ⟨schedule, series, made, bound, -, agrees, -⟩ :=
    cursor_agrees_iff (fun _ => Spoken.reader) rfl
    (fun _ _ _ _ => rfl) preview
  refine ⟨schedule, series, made, bound, fun leads => ?_, by decide +kernel⟩
  -- If its text led on, the second answer would be the second night
  have agree := agrees.2 fun i a b ha hb => by
    cases i with
    | zero =>
      exact Option.some.inj ha ▸ Option.some.inj hb ▸ leads
    | succ i => simp at hb
  have differ := again.symm.trans (agree 1 _ rfl)
  exact absurd differ (by decide)

end Service

end Recurrence
