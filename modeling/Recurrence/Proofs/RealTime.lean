import Recurrence.Proofs.Paging
import Recurrence.Proofs.Regions

/-!
# Occurrences in real time

A search compares readings of one clock, while the moments that it is asked about stand for
instants. What answers a question is always in order on the clock, and it is in order in real time
unless an offset change repeats or skips one of the readings that are compared.

* `Series.instant_lt_momentOn`: candidates on two dates.
* `Schedule.Answers`: what answers a question for the next occurrence or for several.
* `Schedule.answers_in_time`: the order of the answers, of the question, the anchor and the end.
-/

namespace Recurrence

/-! ## Questions -/

namespace Moment

variable {a m : Moment} {zone : Zone}

/-- A stamp that names its zone keeps its instant when it is read in another one. -/
theorem instant_of_inZone {stamp : Stamp} (orderly : zone.IsOrderly)
    (named : stamp.moment? = some a) (h : stamp.inZone zone = .ok m) : m.instant = a.instant := by
  obtain ⟨reading, second, own⟩ := stamp
  cases own with
  | none => injection named
  | some own =>
    injection named with named
    rw [← named]
    exact instant_inZone orderly h

end Moment

/-- What is given for a moment is resolved in the zone. -/
theorem When.zone_resolve [SpokenReader] {given : When} {zone : Zone} {m : Moment}
    (h : given.resolve zone = .ok m) : m.zone = zone := by
  cases given with
  | stamp value => exact Stamp.zone_inZone (orFail_eq_ok.1 h)
  | text value =>
    unfold When.resolve at h
    simp only at h
    split at h
    · exact Stamp.zone_inZone (orFail_eq_ok.1 h)
    · split at h
      · exact Moment.zone_inZone (orFail_eq_ok.1 h)
      · injection h
      · injection h
  | other => injection h

/-! ## Occurrences of a series -/

namespace Series

variable {s : Series} {m : Moment}

/-- Candidates on two dates are in order unless the clock is put forward by a whole day or more. -/
theorem instant_lt_momentOn (orderly : s.zone.IsOrderly) {d e : Date} (lt : d < e) :
    (s.momentOn d).instant < (s.momentOn e).instant ∨
      (ticksPerDay ≤ (s.momentOn e).offset - (s.momentOn d).offset ∧
        (s.momentOn d).TurnsBefore (s.momentOn e)) := by
  have earlier : (s.momentOn d).reading.ticks < (s.momentOn e).reading.ticks :=
    (Moment.isBefore_iff (show (s.momentOn d).zone = (s.momentOn e).zone from rfl)).1
      (isBefore_momentOn.2 lt)
  -- The readings are a day apart at least, so only a turn of a day can undo their order
  have day : (s.momentOn d).reading.ticks + ticksPerDay ≤ (s.momentOn e).reading.ticks := by
    have := Date.lt_iff.1 lt
    simp only [Reading.ticks, momentOn, ticksPerDay]
    omega
  rcases Moment.instant_lt_of_ticks_lt (a := s.momentOn d) (b := s.momentOn e) orderly rfl earlier
    with order | turns
  · exact .inl order
  · by_cases order : (s.momentOn d).instant < (s.momentOn e).instant
    · exact .inl order
    · refine .inr ⟨?_, turns⟩
      unfold Moment.instant at order
      omega

/-- An occurrence is not earlier than the anchor unless the clock is put forward by a whole day or
more. -/
theorem anchor_le_of_follows (orderly : s.zone.IsOrderly) {w : Walk} (hf : Walk.Follows s m w) :
    s.anchor.instant ≤ m.instant ∨
      (ticksPerDay ≤ m.offset - s.anchor.offset ∧ s.anchor.TurnsBefore m) := by
  have start : s.anchor = s.momentOn s.reading.date := rfl
  rw [hf.on, start]
  by_cases lt : s.reading.date < m.date
  · rcases instant_lt_momentOn orderly lt with order | turns
    · exact .inl (Int.le_of_lt order)
    · exact .inr turns
  · have same : s.reading.date = m.date :=
      Date.dayNumber_inj (Nat.le_antisymm hf.anchor_le (Nat.not_lt.1 lt))
    rw [same]
    exact .inl (Int.le_refl _)

/-- An occurrence is not later than the end unless the end is compared on the same clock, and an
offset change stands between the two. -/
theorem le_ending_of_not_isPastEnd (orderly : s.zone.IsOrderly) (hm : m.zone = s.zone)
    (h : s.isPastEnd m = false) : ∀ token ∈ s.fields.ending,
      m.instant ≤ token.moment.instant ∨
        (token.moment.zone = s.zone ∧ m.TurnsBefore token.moment) := by
  intro token htoken
  unfold isPastEnd at h
  rw [htoken] at h
  simp only [Moment.isBefore] at h
  split at h
  · rename_i same
    have le := Nat.not_lt.1 (of_decide_eq_false h)
    have own : token.moment.zone = s.zone := same.trans hm
    rcases Moment.instant_le_of_ticks_le (own ▸ orderly) same.symm le with order | turns
    · exact .inl order
    · exact .inr ⟨own, turns⟩
  · exact .inl (Int.not_lt.1 (of_decide_eq_false h))

end Series

/-! ## Answers of a schedule -/

namespace Schedule

variable {s : Schedule} {series : Series} {after : When} {found : List Moment}

/-- The moments that answer a question for the next occurrence later than a moment, or for some
number of them. -/
def Answers [SpokenReader] (s : Schedule) (after : When) (found : List Moment) : Prop :=
  (∃ limit, s.nextOccurrences after limit = .ok found) ∨
    ∃ next, s.next after = .ok next ∧ found = next.toList

/-- Answers come from one question to the series. -/
theorem Answers.exists_occurrences [SpokenReader] (h : s.Answers after found)
    (hs : s.series = some series) (hz : series.zone = s.zone) :
    ∃ bound n, after.resolve s.zone = .ok bound ∧ bound.zone = series.zone ∧
      series.occurrences (some bound) n = .ok found := by
  rcases h with ⟨limit, h⟩ | ⟨next, h, rfl⟩
  · rw [nextOccurrences, requireSeries_eq hs] at h
    obtain ⟨_, own, h⟩ := Except.bind_eq_ok.1 h
    injection own with own
    subst own
    obtain ⟨bound, hbound, h⟩ := Except.bind_eq_ok.1 h
    have zone := (When.zone_resolve hbound).trans hz.symm
    exact ⟨bound, _, hbound, zone, ((occurrencesAfter_stamp zone).1 h).2⟩
  · rw [Schedule.next, requireSeries_eq hs] at h
    obtain ⟨_, own, h⟩ := Except.bind_eq_ok.1 h
    injection own with own
    subst own
    obtain ⟨bound, hbound, h⟩ := Except.bind_eq_ok.1 h
    have zone := (When.zone_resolve hbound).trans hz.symm
    -- The next occurrence is the list of at most one
    refine ⟨bound, 1, hbound, zone, ?_⟩
    rw [nextAfter_stamp zone] at h
    rw [Series.occurrences_succ (Series.inZone_some zone) 0, h]
    cases next with
    | none => rfl
    | some m =>
      simp only [bind, Except.bind, Series.occurrences_zero]
      rfl

/-- What answers a question comes after it, in order, not before the anchor and not after the end:
always on the clock, and in real time unless an offset change stands between two of the readings
that are compared. Between occurrences and from the anchor on, the clock has to be put forward by a
whole day or more for that. Zones that are chosen by name are orderly; one that is given as it is
has to be. -/
theorem answers_in_time [ZoneDatabase] [SpokenReader] {source : Source} {given : When}
    {zone : ZoneChoice} {lookahead : Option Int}
    (h : make source (some given) zone lookahead = .ok s)
    (orderly : ∀ own, zone = .given own → own.IsOrderly) (answered : s.Answers after found) :
    ∃ anchor bound, s.anchor = some anchor ∧ after.resolve s.zone = .ok bound ∧
      (∀ stamp a, after = .stamp stamp → stamp.moment? = some a → bound.instant = a.instant) ∧
      (∀ m ∈ found, bound.reading.ticks < m.reading.ticks ∧
        (bound.instant < m.instant ∨ bound.TurnsBefore m)) ∧
      (∀ m ∈ found, anchor.reading.ticks ≤ m.reading.ticks ∧
        (anchor.instant ≤ m.instant ∨
          (ticksPerDay ≤ m.offset - anchor.offset ∧ anchor.TurnsBefore m))) ∧
      (∀ m ∈ found, ∀ token ∈ s.fields.ending, m.instant ≤ token.moment.instant ∨
        (token.moment.zone = s.zone ∧ m.TurnsBefore token.moment)) ∧
      found.Pairwise fun a b => a.reading.ticks < b.reading.ticks ∧
        (a.instant < b.instant ∨
          ((ticksPerDay : Int) ≤ b.offset - a.offset ∧ a.TurnsBefore b)) := by
  obtain ⟨anchor, series, chosen, -, hresolve, hanchor, hs, hmake⟩ := make_eq_ok h
  obtain ⟨hfields, hz, -, hstart, -⟩ := Series.make_eq_ok hmake
  obtain ⟨bound, n, hbound, own, hfound⟩ := answered.exists_occurrences hs hz
  -- Every zone in a database is orderly, and one that is given has been asked to be
  have orderly : s.zone.IsOrderly := ZoneChoice.isOrderly_of_resolve chosen orderly
  have clocks : series.zone.IsOrderly := hz ▸ orderly
  have inZone := Series.inZone_some own
  -- The anchor was resolved in the zone, so the series starts at that very moment
  have start : series.anchor = anchor := by
    rw [← When.zone_resolve hresolve, Moment.inZone_stamp] at hstart
    exact (Except.ok.inj hstart).symm
  refine ⟨anchor, bound, hanchor, hbound, ?question, ?later, ?anchored, ?ended, ?ascending⟩
  case question =>
    intro stamp a hstamp named
    -- Bringing a moment to the zone keeps its instant
    rw [hstamp] at hbound
    exact Moment.instant_of_inZone orderly named (orFail_eq_ok.1 hbound)
  case later =>
    intro m hm
    -- Readings in one zone ascend. Whether instants do is up to the clocks
    have same : bound.zone = m.zone :=
      own.trans (Series.zone_of_mem_occurrences inZone hfound hm).symm
    have lt := (Moment.isBefore_iff same).1 (Series.accepts_of_mem_occurrences inZone hfound hm)
    refine ⟨lt, Moment.instant_lt_of_ticks_lt ?_ same lt⟩
    rw [← same, own]
    exact clocks
  case anchored =>
    intro m hm
    obtain ⟨⟨w, hf⟩, -⟩ := Series.exists_follows_of_mem inZone hfound hm
    have same : m.zone = series.anchor.zone := hf.zone
    rw [← start]
    exact ⟨(Moment.isBefore_eq_false_iff same).1 hf.anchored, Series.anchor_le_of_follows clocks hf⟩
  case ended =>
    intro m hm token htoken
    -- The walk has compared the moment with the end, by readings in one zone or by instants
    obtain ⟨⟨w, hf⟩, inside⟩ := Series.exists_follows_of_mem inZone hfound hm
    rw [← hfields] at htoken
    rw [← hz]
    exact Series.le_ending_of_not_isPastEnd clocks hf.zone inside token htoken
  case ascending =>
    -- Occurrences show the anchor's time of day, so those on two dates are a day apart at least
    refine (Series.pairwise_occurrences inZone hfound).imp_of_mem fun {a b} ha hb lt => ?_
    obtain ⟨⟨w, hf⟩, -⟩ := Series.exists_follows_of_mem inZone hfound ha
    obtain ⟨⟨w', hf'⟩, -⟩ := Series.exists_follows_of_mem inZone hfound hb
    refine ⟨(Moment.isBefore_iff (hf.zone.trans hf'.zone.symm)).1 lt, ?_⟩
    rw [hf.on, hf'.on]
    exact Series.instant_lt_momentOn clocks (hf.date_lt hf' lt)

/-- Every night. -/
def everyNight : Fields where
  freq := .daily
  interval := none
  count := none
  ending := none
  byMonth := .empty
  byMonthDay := []
  byDay := []
  exdates := []
  keyOrder := []
  dayFilters := Fields.noDayFilters

/-- A night of New York at half past one, in the first pass where the hour is repeated. -/
def newYorkNight (date : Date) : Moment :=
  ⟨⟨date, ⟨5400000000, by decide⟩⟩, .region .newYork, false⟩

/-- A quarter past six in UTC: in New York a quarter past one, for the second time. -/
def quarterPastSix : Moment :=
  ⟨⟨⟨2012, 11, 4, by decide⟩, ⟨22500000000, by decide⟩⟩, .zero, false⟩

/-- The nights from the day before the clocks go back. -/
def newYorkSeries : Series where
  fields := everyNight
  zone := .region .newYork
  reading := (newYorkNight ⟨2012, 11, 3, by decide⟩).reading
  second := false
  lookahead := ⟨defaultLookahead.toNat, defaultLookahead_pos⟩
  endingDate := none
  excludedDates := []
  excludedInstants := []

def newYorkNights : Schedule :=
  ⟨everyNight, .region .newYork, some newYorkSeries.anchor, some newYorkSeries⟩

/-- The night that answers the question is over when it is asked, for the clock has gone back in
between. -/
theorem newYorkNights_go_back :
    make (.fields everyNight) (some (.stamp newYorkSeries.anchor.stamp))
        (.given (.region .newYork)) none = .ok newYorkNights ∧
      newYorkNights.next (.stamp quarterPastSix.stamp) =
        .ok (some (newYorkNight ⟨2012, 11, 4, by decide⟩)) ∧
      (newYorkNight ⟨2012, 11, 4, by decide⟩).instant < quarterPastSix.instant ∧
      ∃ bound, (When.stamp quarterPastSix.stamp).resolve (.region .newYork) = .ok bound ∧
        bound.TurnsBefore (newYorkNight ⟨2012, 11, 4, by decide⟩) := by
  have start : newYorkSeries.anchor.stamp.inZone (.region .newYork) = .ok newYorkSeries.anchor :=
    Moment.inZone_stamp _
  have made : make (.fields everyNight) (some (.stamp newYorkSeries.anchor.stamp))
      (.given (.region .newYork)) none = .ok newYorkNights := by
    simp only [make, ZoneChoice.resolve, Source.fieldsIn, When.resolve, bind, Except.bind]
    rw [start]
    simp only [orFail, Series.make]
    rw [start]
    rfl
  have answer : newYorkNights.next (.stamp quarterPastSix.stamp) =
      .ok (some (newYorkNight ⟨2012, 11, 4, by decide⟩)) := by decide +kernel
  have passed : (newYorkNight ⟨2012, 11, 4, by decide⟩).instant < quarterPastSix.instant := by
    decide +kernel
  have orderly : ∀ own, ZoneChoice.given (.region .newYork) = .given own → own.IsOrderly := by
    rintro own ⟨⟩
    exact Region.isOrderly_all .newYork (by simp [Region.all])
  -- The answer is earlier than the question, so the clocks were turned between them
  obtain ⟨_, bound, -, hbound, same, later, -⟩ :=
    answers_in_time made orderly (.inr ⟨some _, answer, rfl⟩)
  refine ⟨made, answer, passed, bound, hbound, (later _ List.mem_cons_self).2.resolve_left ?_⟩
  rw [same quarterPastSix.stamp quarterPastSix rfl rfl]
  exact Int.lt_asymm passed

end Schedule

end Recurrence
