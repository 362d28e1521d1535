import Recurrence.Proofs.PeriodDays
import Recurrence.Proofs.Search
import Recurrence.Proofs.WrittenMoments

/-!
# Away from the end of the calendar

Nothing fails in a period that begins before the last year of the calendar: its dates can be
enumerated, and the instants of its candidates looked up. So a search that stays there fails only if
it steps out of the calendar before it comes to a stop.

* `Series.exists_candidates`: the candidates of a period.
* `Series.exists_leavesOut`: whether one of them is left out.
* `Series.Runs`, `Series.Fails`: whether a search has room to come to a stop, or cannot do so.
* `Walk.exists_start`, `Walk.not_fails_of_start`: it comes to a result if it has room for it, and
  not if it cannot stop.
* `Series.runs_of_step_le`: it has room if a step beyond its lookahead stays inside the calendar.
-/

namespace Recurrence

/-! ## Dates before the last year -/

namespace Date

variable {d e : Date}

/-- Every year has at least 365 days. -/
theorem daysBeforeYear_add_le {year : Nat} (h : 1 ≤ year) (years : Nat) :
    daysBeforeYear year + 365 * years ≤ daysBeforeYear (year + years) := by
  induction years with
  | zero => exact Nat.le_refl _
  | succ years ih =>
    have next := daysBeforeYear_succ (year + years) (by omega)
    have length : 365 ≤ yearLength (isLeapYear (year + years)) := by
      unfold yearLength
      split <;> decide
    rw [Nat.mul_succ, ← Nat.add_assoc, show year + (years + 1) = year + years + 1 from rfl, next]
    exact Nat.add_le_add ih length

/-- A date is followed by at least 365 dates for every year that is left of the calendar. -/
theorem dayNumber_of_year_add_le {years : Nat} (h : d.year + years ≤ 9999) :
    d.dayNumber + 365 * years < total := by
  have inside := d.dayNumber_bounds.2
  have before := daysBeforeYear_add_le (show 1 ≤ d.year + 1 by omega) years
  have last := daysBeforeYear_mono (show d.year + 1 + years ≤ 10000 by omega)
  have total : daysBeforeYear 10000 = total := rfl
  omega

/-- A date before the last year is followed by a whole year of dates. -/
theorem dayNumber_of_year_le (h : d.year ≤ 9998) : d.dayNumber + 365 < total :=
  dayNumber_of_year_add_le (show d.year + 1 ≤ 9999 by omega)

/-- From the second year on, a date is preceded by a whole year of dates. -/
theorem dayNumber_of_le_year (h : 2 ≤ d.year) : 365 ≤ d.dayNumber := by
  have inside := d.dayNumber_bounds.1
  have after := daysBeforeYear_mono h
  have first : daysBeforeYear 2 = 365 := rfl
  omega

/-- A shift by years that stays inside the calendar. -/
theorem shiftYears_isOk {years : Nat} :
    (∃ e, d.shiftYears years = .ok e) ↔ d.year + years ≤ 9999 := by
  have hd := d.valid
  unfold shiftYears
  rw [shiftMonths_isOk]
  simp only [monthNumber]
  omega

/-- Years are added to the year. -/
theorem year_of_shiftYears {years : Nat} (h : d.shiftYears years = .ok e) :
    e.year = d.year + years := by
  have number := monthNumber_of_shiftMonths h
  have hd := d.valid.2.1
  have he := e.valid.2.1
  simp only [monthNumber] at number
  omega

end Date

/-! ## Instants -/

/-- Whether all offsets of a zone stay below a day. -/
def Zone.BelowDay : Zone → Prop
  | .region r => r.history.BelowDay
  | .fixed offset _ => offset.natAbs < ticksPerDay
  | .written offset => offset.natAbs < ticksPerDay

/-- In a zone below a day, so is every offset. -/
theorem Zone.offsetOn_below_day {zone : Zone} (below : zone.BelowDay) (reading : Reading)
    (second : Bool) : (zone.offsetOn reading second).natAbs < ticksPerDay := by
  cases zone with
  | region r =>
    have := History.offsetOn_below_day below (reading.seconds - Zone.unixStart) second
    simp only [Zone.offsetOn, ticksPerSecond, ticksPerDay] at *
    omega
  | fixed offset given => exact below
  | written offset => exact below

/-- A number of ticks within the calendar is a reading. -/
theorem Reading.exists_ofTicks? {ticks : Int} (lo : 0 ≤ ticks)
    (hi : ticks < Date.total * ticksPerDay) : ∃ r, Reading.ofTicks? ticks = some r := by
  refine ⟨⟨.ofDayNumber (ticks / ticksPerDay).toNat ?_, (ticks % ticksPerDay).toNat, ?_⟩,
    Reading.ofTicks?_eq_some.2 ?_⟩
  · unfold ticksPerDay Date.total at *
    omega
  · unfold ticksPerDay
    omega
  · unfold Reading.ticks
    rw [Date.dayNumber_ofDayNumber]
    unfold ticksPerDay
    simp only
    omega

/-- The clocks of UTC show a moment that lies a day or more inside the calendar. -/
theorem Moment.exists_inUtc {m : Moment} (below : m.zone.BelowDay) (lo : 1 ≤ m.date.dayNumber)
    (hi : m.date.dayNumber + 1 < Date.total) : ∃ utc, m.inUtc = .ok utc := by
  unfold inUtc inZone
  split
  · exact ⟨m, rfl⟩
  · have offset := Zone.offsetOn_below_day below m.reading m.second
    have time := m.reading.time.lt
    -- The offset moves the instant by less than a day
    have first : 0 ≤ m.instant := by
      unfold instant Moment.offset Reading.ticks ticksPerDay at *
      unfold date at lo
      omega
    have last : m.instant < Date.total * ticksPerDay := by
      unfold instant Moment.offset Reading.ticks ticksPerDay at *
      unfold date at hi
      omega
    obtain ⟨r, hr⟩ := Reading.exists_ofTicks? first last
    unfold ofInstant
    rw [hr]
    simp only [Zone.zero, Zone.offsetAt, Int.add_zero, hr]
    exact ⟨_, rfl⟩

/-! ## Searching a period -/

namespace Series

variable {s : Series} {q : Query} {m : Moment} {start : Date}

/-- The dates of a period that begins before the last year end a week before the calendar does. -/
theorem le_weekBeforeLast_of_periodStart {freq : Frequency} {d : Date}
    (h : (freq.periodStart d).year ≤ 9998) : d ≤ .weekBeforeLast := by
  have room := Date.dayNumber_of_year_le h
  rw [Date.le_weekBeforeLast_iff]
  -- Up to year 9998 a whole year follows, and no period is longer
  cases freq with
  | yearly =>
    have := Date.dayNumber_of_year_le (d := d) h
    omega
  | monthly =>
    have := Date.dayNumber_of_year_le (d := d) h
    omega
  | weekly =>
    simp only [Frequency.periodStart, Date.dayNumber_weekStart] at room
    omega
  | daily =>
    simp only [Frequency.periodStart] at room
    omega

/-- The candidates of a period are found if it begins by year 9998. -/
theorem exists_candidates (hs : s.freq.periodStart start = start) (h : start.year ≤ 9998) :
    ∃ l, s.candidates start = .ok l := by
  have room : ∀ d, s.freq.periodStart d = start → d ≤ .weekBeforeLast := by
    intro d hd
    have year : (s.freq.periodStart d).year ≤ 9998 := by rwa [hd]
    exact le_weekBeforeLast_of_periodStart year
  obtain ⟨days, hdays⟩ := Expansion.exists_days (x := ⟨s.fields, s.reading.date⟩) hs room
  exact ⟨_, Except.map_eq_ok.2 ⟨days, hdays, rfl⟩⟩

/-- The instant of a candidate can be looked up. -/
theorem exists_inUtc (below : s.zone.BelowDay) (early : 2 ≤ s.reading.date.year)
    (late : (s.freq.periodStart m.date).year ≤ 9998) (zone : m.zone = s.zone)
    (anchored : m.isBefore s.anchor = false) : ∃ utc, m.inUtc = .ok utc := by
  have later : s.reading.date ≤ m.date := Moment.date_le_of_ticks_le (a := s.anchor)
    ((Moment.isBefore_eq_false_iff (zone.trans (show s.zone = s.anchor.zone from rfl))).1 anchored)
  have lo := Date.dayNumber_of_le_year early
  have later := Date.le_iff.1 later
  have room := Date.le_weekBeforeLast_iff.1 (le_weekBeforeLast_of_periodStart late)
  exact Moment.exists_inUtc (zone ▸ below) (by omega) (by omega)

/-- Whether a candidate is left out can be told. -/
theorem exists_leavesOut (below : s.zone.BelowDay) (early : 2 ≤ s.reading.date.year)
    (late : (s.freq.periodStart m.date).year ≤ 9998) (zone : m.zone = s.zone)
    (admits : s.admits q m = true) : ∃ out, Walk.leavesOut s q m = .ok out := by
  obtain ⟨utc, hutc⟩ := exists_inUtc below early late zone (Walk.admits_iff.1 admits).1
  unfold Walk.leavesOut isExcluded
  rw [hutc]
  split
  · split
    · exact ⟨_, rfl⟩
    · exact ⟨_, rfl⟩
  · exact ⟨_, rfl⟩

/-! ## Stops -/

/-- Whether a search is brought to a stop in the period of a date: the period is visited, and it is
out of reach, or holds a candidate that lies past the end or is handed out. -/
def StopsAt (s : Series) (q : Query) (d : Date) : Prop :=
  s.Visits (s.freq.periodNumber d) ∧
    (s.outOfReach (Walk.floor s q).date d = true ∨
      ∃ m ∈ s.candidatesOf q, s.freq.periodNumber m.date = s.freq.periodNumber d ∧
        (s.isPastEnd m = true ∨ (q.exclude && s.excludes m) = false))

/-- The year in which the lookahead of a search ends. -/
def lastYear (s : Series) (q : Query) : Nat := (Walk.floor s q).date.year + s.lookahead.val

/-- Whether a search has room to come to a stop. Its lookahead ends inside the calendar, some period
from that of the floor on brings it to a stop, and not both of them lie in the last year. -/
def Runs (s : Series) (q : Query) : Prop :=
  s.lastYear q ≤ 9999 ∧
    ∃ d, s.freq.periodNumber (Walk.floor s q).date ≤ s.freq.periodNumber d ∧ s.StopsAt q d ∧
      (s.lastYear q ≤ 9998 ∨ (s.freq.periodStart d).year ≤ 9998)

/-- Whether a search cannot come to a stop. Its lookahead leaves the calendar, or no period from
that of the floor on brings it to a stop. -/
def Fails (s : Series) (q : Query) : Prop :=
  9999 < s.lastYear q ∨
    ∀ d, s.freq.periodNumber (Walk.floor s q).date ≤ s.freq.periodNumber d → ¬s.StopsAt q d

/-- A search whose lookahead ends before the last year has room to come to a stop, or cannot. -/
theorem runs_iff_not_fails (late : s.lastYear q ≤ 9998) : s.Runs q ↔ ¬s.Fails q := by
  constructor
  · intro ⟨inside, d, later, stops, _⟩ fails
    rcases fails with leaves | never
    · exact Nat.not_lt.2 inside leaves
    · exact never d later stops
  · intro can
    refine Classical.byContradiction fun stuck => can (.inr fun d later stops => ?_)
    exact stuck ⟨Nat.le_succ_of_le late, d, later, stops, .inl late⟩

end Series

namespace Walk

variable {s : Series} {q : Query} {m : Moment} {l : List Moment}

/-- A scan returns if no lookup of an admitted candidate fails. -/
theorem exists_scan (h : ∀ m ∈ l, s.admits q m = true → ∃ out, leavesOut s q m = .ok out) :
    ∃ outcome, scan s q l = .ok outcome := by
  induction l with
  | nil => exact ⟨_, rfl⟩
  | cons m l ih =>
    obtain ⟨first, others⟩ := List.forall_mem_cons.1 h
    obtain ⟨outcome, hrest⟩ := ih others
    rw [scan_cons]
    split
    · rename_i admits
      split
      · exact ⟨_, rfl⟩
      · obtain ⟨out, hout⟩ := first admits
        rw [hout]
        -- What is left out is passed over, anything else has been found
        cases out with
        | true => exact ⟨outcome, hrest⟩
        | false => exact ⟨_, rfl⟩
    · exact ⟨outcome, hrest⟩

/-- A scan that ends has come upon a candidate past the end. -/
theorem exists_of_scan_ended (h : scan s q l = .ok .ended) :
    ∃ m ∈ l, s.admits q m = true ∧ s.isPastEnd m = true := by
  induction l with
  | nil =>
    injection h with h
    injection h
  | cons m l ih =>
    -- If the end lies behind the first candidate, it is a candidate as well
    have later (h : scan s q l = .ok .ended) :
        ∃ c ∈ m :: l, s.admits q c = true ∧ s.isPastEnd c = true := by
      obtain ⟨c, hc, found⟩ := ih h
      exact ⟨c, List.mem_cons_of_mem _ hc, found⟩
    rw [scan_cons] at h
    split at h
    · rename_i admits
      split at h
      · rename_i past
        exact ⟨m, List.mem_cons_self, admits, past⟩
      · obtain ⟨out, -, h⟩ := Except.bind_eq_ok.1 h
        cases out with
        | true => exact later h
        | false =>
          injection h with h
          injection h
    · exact later h

/-- A scan that finds nothing has left out all candidates that answer the query. -/
theorem of_scan_none (h : scan s q l = .ok .none) :
    ∀ m ∈ l, s.admits q m = true → s.isPastEnd m = false ∧ leavesOut s q m = .ok true := by
  induction l with
  | nil => exact fun m hm => absurd hm List.not_mem_nil
  | cons c l ih =>
    rw [scan_cons] at h
    split at h
    · split at h
      · injection h with h
        injection h
      · rename_i inside
        obtain ⟨out, hout, h⟩ := Except.bind_eq_ok.1 h
        -- A candidate that is not left out would have been found
        cases out with
        | true =>
          exact List.forall_mem_cons.2 ⟨fun _ => ⟨Bool.eq_false_iff.2 inside, hout⟩, ih h⟩
        | false =>
          injection h with h
          injection h
    · rename_i refused
      exact List.forall_mem_cons.2 ⟨fun admits => absurd admits refused, ih h⟩

/-! ## A search from a period on -/

/-- The candidates of a visited period that answer a query are candidates of the query. -/
theorem mem_candidatesOf_of_mem {period : Date} (hl : s.candidates period = .ok l)
    (hs : s.freq.periodStart period = period) (hv : s.Visits (s.freq.periodNumber period)) :
    (m ∈ l ∧ s.admits q m = true) ↔
      m ∈ s.candidatesOf q ∧ s.freq.periodNumber m.date = s.freq.periodNumber period := by
  rw [Series.candidates_eq_ok hl hs hv, Series.mem_candidatesOf]
  simp only [List.mem_map, List.mem_filter, Date.mem_calendar, true_and, decide_eq_true_eq]
  constructor
  · intro ⟨⟨d, ⟨hd, same⟩, on⟩, admits⟩
    subst on
    exact ⟨⟨rfl, hd, admits⟩, same⟩
  · intro ⟨⟨on, hd, admits⟩, same⟩
    exact ⟨⟨m.date, ⟨hd, same⟩, on.symm⟩, admits⟩

variable {horizon period : Date}

/-- A period that is reached, and where nothing is found, has not brought the search to a stop. So
if one does, it is the next one or a later one. -/
theorem next_le_of_scan_none (made : s.Made)
    (hh : (floor s q).date.shiftYears s.lookahead.val = .ok horizon)
    (hl : s.candidates period = .ok l) (hs : s.freq.periodStart period = period)
    (hv : s.Visits (s.freq.periodNumber period))
    (go : ¬(horizon < period || s.isPastEndingDate period) = true)
    (hscan : scan s q l = .ok .none) {d : Date}
    (le : s.freq.periodNumber period ≤ s.freq.periodNumber d) (stops : s.StopsAt q d) :
    s.freq.periodNumber period + s.fields.step.val ≤ s.freq.periodNumber d := by
  apply (hv.eq_or_next_le stops.1 le).resolve_left
  intro same
  rcases stops.2 with out | ⟨m, hm, number, found⟩
  · rw [Series.outOfReach_eq hh, (Frequency.periodStart_congr same).trans hs] at out
    exact go out
  · -- The scan has looked at all candidates of the period, and left out each of them
    obtain ⟨mem, admits⟩ := (mem_candidatesOf_of_mem hl hs hv).2 ⟨hm, number.trans same⟩
    obtain ⟨inside, out⟩ := of_scan_none hscan m mem admits
    have zone : m.zone = s.zone := by
      rw [(Series.mem_candidates hl hs mem).1]
      rfl
    rw [inside, leavesOut_eq made zone out] at found
    simp at found

/-- Before the last year a search comes to a result if a later period brings it to a stop. What it
hands out then lies in a period that begins before the last year. -/
theorem exists_seek (made : s.Made) (below : s.zone.BelowDay) (early : 2 ≤ s.reading.date.year)
    (hh : (floor s q).date.shiftYears s.lookahead.val = .ok horizon)
    (hs : s.freq.periodStart period = period) (hv : s.Visits (s.freq.periodNumber period))
    {d : Date} (le : s.freq.periodNumber period ≤ s.freq.periodNumber d) (stops : s.StopsAt q d)
    (late : horizon.year ≤ 9998 ∨ (s.freq.periodStart d).year ≤ 9998) :
    ∃ r, seek s q horizon period = .ok r ∧
      ∀ found ∈ r, (s.freq.periodStart found.1.date).year ≤ 9998 := by
  induction period using period_induct s with
  | step period ih =>
    rw [seek_eq]
    split
    · exact ⟨_, rfl, fun found h => nomatch h⟩
    · rename_i go
      -- Neither the horizon nor the stop lies before the period
      have reached : period ≤ horizon := by
        refine Nat.not_lt.1 fun beyond => go ?_
        rw [decide_eq_true (Date.lt_iff.2 beyond), Bool.true_or]
      have first : period ≤ s.freq.periodStart d := by
        rw [← hs]
        exact Frequency.periodStart_mono le
      have year : period.year ≤ 9998 := by
        rcases late with late | late
        · exact Nat.le_trans (Date.year_mono reached) late
        · exact Nat.le_trans (Date.year_mono first) late
      obtain ⟨l, hl⟩ := Series.exists_candidates (s := s) hs year
      -- A week follows each candidate, so the test for exclusions does not leave the calendar
      have start : ∀ m ∈ l, s.freq.periodStart m.date = period := fun m hm =>
        (Series.mem_candidates hl hs hm).2.1
      have looked : ∀ m ∈ l, s.admits q m = true → ∃ out, leavesOut s q m = .ok out := by
        intro m hm admits
        refine Series.exists_leavesOut below early (start m hm ▸ year) ?_ admits
        rw [(Series.mem_candidates hl hs hm).1]
        rfl
      obtain ⟨outcome, hscan⟩ := exists_scan looked
      rw [hl]
      simp only [bind, Except.bind, hscan]
      cases outcome with
      | found m rest =>
        obtain ⟨⟨before, rfl⟩, -⟩ := scan_eq_found hscan
        refine ⟨_, rfl, fun found h => ?_⟩
        injection h with h
        rw [← h, start m (by simp)]
        exact year
      | ended => exact ⟨_, rfl, fun found h => nomatch h⟩
      | none =>
        -- Nothing brought the search to a stop, so it goes on to a period not behind the stop
        have later := next_le_of_scan_none made hh hl hs hv go hscan le stops
        obtain ⟨next, hnext⟩ : ∃ next, s.freq.shift period s.fields.step.val = .ok next := by
          have all := Frequency.shift_eq_ok hs (Frequency.periodStart_periodStart s.freq d)
          rw [Frequency.periodNumber_periodStart] at all
          exact Frequency.exists_shift all (Int.le_of_lt s.step_pos) (by omega)
        have number := Frequency.periodNumber_shift hnext
        simp only [settle, bind, Except.bind, hnext]
        refine ih next hnext (Frequency.periodStart_shift hs hnext) ?_ (by omega)
        rw [number]
        exact hv.next

/-- A search that comes to a result has been brought to a stop. -/
theorem exists_stopsAt_of_seek (made : s.Made)
    (hh : (floor s q).date.shiftYears s.lookahead.val = .ok horizon)
    (hs : s.freq.periodStart period = period) (hv : s.Visits (s.freq.periodNumber period))
    {r : Option (Moment × Walk)} (h : seek s q horizon period = .ok r) :
    ∃ d, s.freq.periodNumber period ≤ s.freq.periodNumber d ∧ s.StopsAt q d := by
  induction period using period_induct s with
  | step period ih =>
    rw [seek_eq] at h
    split at h
    · rename_i stop
      refine ⟨period, Int.le_refl _, hv, .inl ?_⟩
      rw [Series.outOfReach_eq hh, hs]
      exact stop
    · obtain ⟨l, hl, h⟩ := Except.bind_eq_ok.1 h
      obtain ⟨outcome, hscan, h⟩ := Except.bind_eq_ok.1 h
      -- Both a find and the end are candidates of this period
      have here {m : Moment} (hm : m ∈ l) (admits : s.admits q m = true)
          (stop : s.isPastEnd m = true ∨ (q.exclude && s.excludes m) = false) :
          ∃ d, s.freq.periodNumber period ≤ s.freq.periodNumber d ∧ s.StopsAt q d := by
        obtain ⟨mem, number⟩ := (mem_candidatesOf_of_mem hl hs hv).1 ⟨hm, admits⟩
        exact ⟨period, Int.le_refl _, hv, .inr ⟨m, mem, number, stop⟩⟩
      -- Where nothing was found, a later period brings the search to a stop
      cases outcome with
      | found m rest =>
        obtain ⟨⟨before, rfl⟩, admits, -, kept⟩ := scan_eq_found hscan
        have mem : m ∈ before ++ m :: rest := by simp
        have zone : m.zone = s.zone := by
          rw [(Series.mem_candidates hl hs mem).1]
          rfl
        exact here mem admits (.inr (leavesOut_eq made zone kept))
      | ended =>
        obtain ⟨m, mem, admits, past⟩ := exists_of_scan_ended hscan
        exact here mem admits (.inl past)
      | none =>
        obtain ⟨next, hnext, h⟩ := Except.bind_eq_ok.1 h
        have number := Frequency.periodNumber_shift hnext
        have pos := s.step_pos
        obtain ⟨d, le, stops⟩ := ih next hnext (Frequency.periodStart_shift hs hnext)
          (by rw [number]; exact hv.next) h
        exact ⟨d, by omega, stops⟩

/-! ## A search from its floor on -/

/-- A search that has room to come to a stop comes to a result. What it hands out lies in a period
that begins before the last year. -/
theorem exists_start (made : s.Made) (below : s.zone.BelowDay) (early : 2 ≤ s.reading.date.year)
    (hz : q.InZone s.zone) (runs : s.Runs q) :
    ∃ r, start s q = .ok r ∧ ∀ found ∈ r, (s.freq.periodStart found.1.date).year ≤ 9998 := by
  obtain ⟨inside, d, later, stops, late⟩ := runs
  have le := anchor_date_le_floor hz
  obtain ⟨horizon, hh⟩ := Date.shiftYears_isOk.2 inside
  have pos := s.step_pos
  have mono : s.freq.periodNumber s.reading.date ≤ s.freq.periodNumber (floor s q).date :=
    Frequency.periodNumber_mono le
  obtain ⟨lo, -, -⟩ := roundUp_spec pos
    (n := s.freq.periodNumber (floor s q).date - s.freq.periodNumber s.reading.date)
  -- The stop stands whole steps behind the anchor, so rounding up does not go beyond it
  have hi : firstPeriod s (floor s q).date ≤
      s.freq.periodNumber d - s.freq.periodNumber s.reading.date := by
    rw [firstPeriod_eq]
    exact roundUp_le pos stops.1.2 (by omega)
  rw [← firstPeriod_eq] at lo
  -- The first period lies between the anchor's and the one that brings the search to a stop
  obtain ⟨period, hperiod⟩ :
      ∃ period, s.freq.shift s.anchorPeriod (firstPeriod s (floor s q).date) = .ok period := by
    have all := Frequency.shift_eq_ok s.anchorPeriod_start
      (Frequency.periodStart_periodStart s.freq d)
    rw [Frequency.periodNumber_periodStart, s.periodNumber_anchorPeriod] at all
    exact Frequency.exists_shift all (by omega) hi
  obtain ⟨hs, hv, -⟩ := visits_first le hperiod
  have number := Frequency.periodNumber_shift hperiod
  rw [s.periodNumber_anchorPeriod] at number
  rw [start_eq, hh]
  simp only [bind, Except.bind, hperiod]
  refine exists_seek made below early hh hs hv (by omega) stops ?_
  rw [Date.year_of_shiftYears hh]
  exact late

/-- A search that comes to a result can come to a stop. -/
theorem not_fails_of_start (made : s.Made) (hz : q.InZone s.zone) {r : Option (Moment × Walk)}
    (h : start s q = .ok r) : ¬s.Fails q := by
  rw [start_eq] at h
  obtain ⟨horizon, hh, h⟩ := Except.bind_eq_ok.1 h
  obtain ⟨period, hperiod, h⟩ := Except.bind_eq_ok.1 h
  obtain ⟨hs, hv, first, -⟩ := visits_first (anchor_date_le_floor hz) hperiod
  obtain ⟨d, later, stops⟩ := exists_stopsAt_of_seek made hh hs hv h
  intro fails
  rcases fails with leaves | never
  · exact Nat.not_lt.2 (Date.shiftYears_isOk.1 ⟨horizon, hh⟩) leaves
  · exact never d (Int.le_trans first later) stops

end Walk

/-! ## Steps inside the calendar -/

/-- The largest number of periods that every year has room for. -/
def Frequency.perYear : Frequency → Nat
  | .yearly => 1
  | .monthly => 12
  | .weekly => 52
  | .daily => 365

/-- The last of December 9999 is a date. -/
theorem Date.valid_last : (1 ≤ 9999 ∧ 9999 ≤ 9999) ∧ (1 ≤ 12 ∧ 12 ≤ 12) ∧
    (1 ≤ 31 ∧ 31 ≤ monthLength (isLeapYear 9999) 12) := by decide

/-- The last date of the calendar. -/
def Date.last : Date := ⟨9999, 12, 31, valid_last⟩

/-- Every year that is left of the calendar has room for so many periods. -/
theorem Frequency.periodNumber_add_le (freq : Frequency) {d : Date} {years : Nat}
    (h : d.year + years ≤ 9999) :
    freq.periodNumber d + years * freq.perYear ≤ freq.periodNumber .last := by
  have room := Date.dayNumber_of_year_add_le h
  have last : Date.last.dayNumber + 1 = Date.total := rfl
  have month := d.valid.2.1
  -- A year has the fewest periods if it is of 365 days
  cases freq with
  | yearly =>
    simp only [periodNumber, perYear, Date.last]
    omega
  | monthly =>
    simp only [periodNumber, perYear, Date.monthNumber, Date.last]
    omega
  | weekly =>
    simp only [periodNumber, perYear]
    omega
  | daily =>
    simp only [periodNumber, perYear]
    omega

namespace Series

variable {s : Series} {q : Query}

/-- A visited period after a date, if a step from there stays inside the calendar. -/
theorem exists_visits_after {d : Date} (le : s.reading.date ≤ d)
    (h : s.freq.periodNumber d + s.fields.step.val ≤ s.freq.periodNumber .last) :
    ∃ e, s.Visits (s.freq.periodNumber e) ∧ s.freq.periodNumber d < s.freq.periodNumber e := by
  have mono : s.freq.periodNumber s.reading.date ≤ s.freq.periodNumber d :=
    Frequency.periodNumber_mono le
  obtain ⟨lo, hi, multiple⟩ := Walk.roundUp_spec s.step_pos
    (n := s.freq.periodNumber d + 1 - s.freq.periodNumber s.reading.date)
  generalize Walk.roundUp _ _ = k at lo hi multiple
  -- The next multiple of the step is within the calendar, so it is a period
  have all := Frequency.shift_eq_ok s.anchorPeriod_start
    (Frequency.periodStart_periodStart s.freq .last)
  rw [Frequency.periodNumber_periodStart, s.periodNumber_anchorPeriod] at all
  obtain ⟨e, he⟩ := Frequency.exists_shift all (show 0 ≤ k by omega) (by omega)
  have number := Frequency.periodNumber_shift he
  rw [s.periodNumber_anchorPeriod] at number
  refine ⟨e, ⟨by omega, ?_⟩, by omega⟩
  rw [number, Int.add_comm, Int.add_sub_cancel]
  exact multiple

/-- A search has room to come to a stop if a step beyond its lookahead stays inside the calendar. -/
theorem runs_of_step_le (hz : q.InZone s.zone) {years : Nat}
    (step : s.fields.step.val ≤ years * s.freq.perYear) (h : s.lastYear q + years ≤ 9999) :
    s.Runs q := by
  have pos := s.fields.step.property
  -- A step is a period at least, so it takes a year or more
  have some_years : 1 ≤ years := by
    refine Nat.pos_of_ne_zero fun zero => ?_
    rw [zero, Nat.zero_mul] at step
    omega
  obtain ⟨horizon, hh⟩ := Date.shiftYears_isOk.2 (show
    (Walk.floor s q).date.year + s.lookahead.val ≤ 9999 from Nat.le_trans (Nat.le_add_right _ _) h)
  have ahead : (Walk.floor s q).date < horizon := Frequency.lt_of_shift
    (show (0 : Int) < s.lookahead.val from Int.ofNat_lt.2 s.lookahead.property)
    (show Frequency.yearly.shift (Walk.floor s q).date s.lookahead.val = .ok horizon from hh)
  have year := Date.year_of_shiftYears hh
  have room := s.freq.periodNumber_add_le (show horizon.year + years ≤ 9999 by
    rw [year]
    exact h)
  have le := Nat.le_trans (Walk.anchor_date_le_floor hz) (Nat.le_of_lt ahead)
  obtain ⟨d, visited, later⟩ := exists_visits_after le (by omega)
  -- The period begins past the lookahead, so it is out of reach
  have out : s.outOfReach (Walk.floor s q).date d = true := by
    rw [outOfReach_eq hh, Bool.or_eq_true, decide_eq_true_eq]
    left
    apply Frequency.lt_of_periodNumber_lt
    show s.freq.periodNumber horizon < s.freq.periodNumber (s.freq.periodStart d)
    rw [Frequency.periodNumber_periodStart]
    exact later
  have before : s.freq.periodNumber (Walk.floor s q).date ≤ s.freq.periodNumber horizon :=
    Frequency.periodNumber_mono (Nat.le_of_lt ahead)
  exact ⟨by omega, d, by omega, ⟨visited, .inl out⟩, .inl (by omega)⟩

end Series

end Recurrence
