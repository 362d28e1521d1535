import Recurrence.Proofs.Paging
import Recurrence.Proofs.Prescription

/-!
# Starting from an occurrence

The anchor of a series says which periods are visited, and supplies the month, the day, the weekday
and the time of day that the parts leave open. Every occurrence supplies the same, so a series that
is anchored at one of its occurrences goes on from there as before.

* `Expansion.days_withAnchor`: a selected date supplies what the anchor does.
* `Walk.start_startingOn`: a search from a bound on or after the new anchor.
* `Series.occurrencesAfter_startingOn`: the answers of both series.
-/

namespace Recurrence

/-! ## Multiples of the step -/

/-- Rounding up passes over multiples of the step. -/
theorem Walk.roundUp_add {n k step : Int} (pos : 0 < step) (hk : step ∣ k) :
    roundUp (n + k) step = roundUp n step + k := by
  obtain ⟨le, lt, hn⟩ := roundUp_spec (n := n) pos
  apply roundUp_eq pos (Int.dvd_add hn hk)
  · omega
  · omega

/-! ## What the anchor supplies -/

namespace Expansion

variable {x : Expansion} {d : Date}

/-- The expansion with another date for the anchor. -/
def withAnchor (x : Expansion) (d : Date) : Expansion := { x with anchor := d }

/-- The days of a month depend on the anchor if neither days nor weekdays are named. -/
theorem daysInMonth_withAnchor
    (day : x.fields.byMonthDay = [] → x.fields.byDay = [] → d.day = x.anchor.day) (e : Date) :
    (x.withAnchor d).daysInMonth e = x.daysInMonth e := by
  unfold daysInMonth
  by_cases listed : x.fields.byMonthDay = []
  · by_cases entries : x.fields.byDay = []
    · simp only [withAnchor, day listed entries]
    · simp only [withAnchor, List.isEmpty_eq_false_iff.2 entries, Bool.not_false, if_true]
  · simp only [withAnchor, List.isEmpty_eq_false_iff.2 listed, Bool.not_false, if_true]

/-- The months depend on it if neither months nor days are named. -/
theorem monthsInYear_withAnchor
    (month : x.fields.byMonth.val = [] → x.fields.byMonthDay = [] → d.month = x.anchor.month) :
    (x.withAnchor d).monthsInYear = x.monthsInYear := by
  unfold monthsInYear
  by_cases months : x.fields.byMonth.val = []
  · by_cases listed : x.fields.byMonthDay = []
    · simp only [withAnchor, month months listed]
    · simp only [withAnchor, List.isEmpty_eq_false_iff.2 listed, Bool.not_false, if_true]
  · simp only [withAnchor, List.isEmpty_eq_false_iff.2 months, Bool.not_false, if_true]

/-- The weekdays depend on it if none is named. -/
theorem wantsWeekday_withAnchor
    (weekday : x.fields.byDay = [] → d.weekday = x.anchor.weekday) (w : Weekday) :
    (x.withAnchor d).wantsWeekday w = x.wantsWeekday w := by
  unfold wantsWeekday
  by_cases entries : x.fields.byDay = []
  · simp only [withAnchor, weekday entries]
  · simp only [withAnchor, List.isEmpty_eq_false_iff.2 entries, Bool.false_eq_true, if_false]

/-- A date that agrees with the anchor where the rule leaves something to it. -/
theorem Selects.matchesAnchor (h : x.Selects d) (entries : x.fields.byDay = []) :
    x.MatchesAnchor d := by
  have h := h.2.2
  rwa [if_pos entries] at h

/-- Anchored on one of its own dates, a rule of years has the same days. -/
theorem daysInYear_withAnchor (freq : x.fields.freq = .yearly) (h : x.Selects d) (e : Date) :
    (x.withAnchor d).daysInYear e = x.daysInYear e := by
  have days : (x.withAnchor d).daysInMonth = x.daysInMonth := by
    funext e
    apply daysInMonth_withAnchor
    intro listed entries
    exact (h.matchesAnchor entries).2.1 (.inl freq) listed
  unfold daysInYear
  rw [days]
  by_cases entries : x.fields.byDay = []
  · have months : (x.withAnchor d).monthsInYear = x.monthsInYear := by
      apply monthsInYear_withAnchor
      intro months listed
      exact (h.matchesAnchor entries).2.2 freq listed months
    rw [months]
    rfl
  · by_cases months : x.fields.byMonth.val = []
    · -- Without months the entries count inside the year, and no month is looked into
      simp only [withAnchor, List.isEmpty_eq_false_iff.2 entries, months, List.isEmpty_nil,
        Bool.not_false, Bool.and_self, if_true]
    · rw [monthsInYear_withAnchor fun none => absurd none months]
      rfl

/-- A selected date supplies what the anchor does. -/
theorem days_withAnchor (h : x.Selects d) (start : Date) :
    (x.withAnchor d).days start = x.days start := by
  have named : (x.withAnchor d).namedDays start = x.namedDays start := by
    unfold namedDays
    rw [show (x.withAnchor d).fields = x.fields from rfl]
    -- A selected date agrees with the anchor in all that the frequency takes from it
    cases freq : x.fields.freq with
    | yearly => exact daysInYear_withAnchor freq h start
    | monthly =>
      apply daysInMonth_withAnchor
      intro listed entries
      exact (h.matchesAnchor entries).2.1 (.inr freq) listed
    | weekly =>
      have wants : (x.withAnchor d).wantsWeekday = x.wantsWeekday := by
        funext w
        apply wantsWeekday_withAnchor
        intro entries
        exact (h.matchesAnchor entries).1 freq
      unfold daysInWeek
      rw [wants]
    | daily => rfl
  unfold days
  rw [named]
  rfl

end Expansion

/-! ## Series from a later date on -/

namespace Series

/-- The series anchored on a date, at the same time of day. -/
def startingOn (s : Series) (d : Date) : Series := { s with reading := ⟨d, s.reading.time⟩ }

variable {s : Series} {d : Date}

@[simp] theorem fields_startingOn : (s.startingOn d).fields = s.fields := rfl

@[simp] theorem freq_startingOn : (s.startingOn d).freq = s.freq := rfl

@[simp] theorem zone_startingOn : (s.startingOn d).zone = s.zone := rfl

@[simp] theorem lookahead_startingOn : (s.startingOn d).lookahead = s.lookahead := rfl

@[simp] theorem date_startingOn : (s.startingOn d).reading.date = d := rfl

/-- A series starting on a date has its anchor there. -/
@[simp] theorem anchor_startingOn : (s.startingOn d).anchor = s.momentOn d := rfl

/-- The end does not depend on the start. -/
@[simp] theorem isPastEnd_startingOn (m : Moment) :
    (s.startingOn d).isPastEnd m = s.isPastEnd m := rfl

@[simp] theorem isPastEndingDate_startingOn (period : Date) :
    (s.startingOn d).isPastEndingDate period = s.isPastEndingDate period := rfl

/-- What is left out does not depend on the start. -/
@[simp] theorem leavesOut_startingOn (q : Query) (m : Moment) :
    Walk.leavesOut (s.startingOn d) q m = Walk.leavesOut s q m := rfl

/-- Starting on one of its own dates, a series has the same candidates. -/
theorem candidates_startingOn (h : s.expansion.Selects d) (period : Date) :
    (s.startingOn d).candidates period = s.candidates period := by
  unfold candidates
  exact congrArg _ (Expansion.days_withAnchor h period)

/-- A question about what comes after a bound on or after the new anchor is about no moment before
either anchor. -/
theorem admits_startingOn (start : s.reading.date ≤ d) {bound : Moment} (zone : bound.zone = s.zone)
    (le : d ≤ bound.date) (exclude : Bool) (e : Date) :
    (s.startingOn d).admits ⟨some bound, exclude⟩ (s.momentOn e) =
      s.admits ⟨some bound, exclude⟩ (s.momentOn e) := by
  unfold admits
  cases accepted : (⟨some bound, exclude⟩ : Query).accepts (s.momentOn e) with
  | false => rw [Bool.and_false, Bool.and_false]
  | true =>
    have lt := (Moment.isBefore_iff (b := s.momentOn e) zone).1 accepted
    have later : bound.date ≤ e :=
      Moment.date_le_of_ticks_le (b := s.momentOn e) (Nat.le_of_lt lt)
    have from_new : d ≤ e := Nat.le_trans le later
    have from_old : s.reading.date ≤ e := Nat.le_trans start from_new
    -- An accepted moment is beyond the bound, so it is before neither start
    have notBefore : ∀ a : Date, a ≤ e → (s.momentOn e).isBefore (s.momentOn a) = false := by
      intro a le
      apply Bool.eq_false_iff.2
      intro before
      exact Nat.not_lt.2 le (isBefore_momentOn.1 before)
    have new := notBefore d from_new
    have old := notBefore s.reading.date from_old
    rw [anchor_startingOn, new, show s.anchor = s.momentOn s.reading.date from rfl, old]

end Series

namespace Walk

open Series (startingOn)

variable {s : Series} {d : Date} {bound : Moment} {exclude : Bool}

/-- A scan comes to the same. -/
theorem scan_startingOn (start : s.reading.date ≤ d) (zone : bound.zone = s.zone)
    (le : d ≤ bound.date) (days : List Date) :
    scan (s.startingOn d) ⟨some bound, exclude⟩ (days.map s.momentOn) =
      scan s ⟨some bound, exclude⟩ (days.map s.momentOn) := by
  induction days with
  | nil => rfl
  | cons e days ih =>
    rw [List.map_cons, scan_cons, scan_cons, Series.admits_startingOn start zone le,
      Series.isPastEnd_startingOn, Series.leavesOut_startingOn, ih]

/-- A search from one period on comes to the same. -/
theorem seek_startingOn (start : s.reading.date ≤ d) (selects : s.expansion.Selects d)
    (zone : bound.zone = s.zone) (le : d ≤ bound.date) (horizon period : Date) :
    seek (s.startingOn d) ⟨some bound, exclude⟩ horizon period =
      seek s ⟨some bound, exclude⟩ horizon period := by
  induction period using period_induct s with
  | step period ih =>
    rw [seek_eq, seek_eq, Series.candidates_startingOn selects,
      Series.isPastEndingDate_startingOn]
    split
    · rfl
    · apply Except.bind_congr_ok
      intro l found
      obtain ⟨days, -, rfl⟩ := Except.map_eq_ok.1 found
      rw [scan_startingOn start zone le]
      apply Except.bind_congr_ok
      intro outcome _
      cases outcome with
      | found m rest => rfl
      | ended => rfl
      | none =>
        -- The next period is the same from either anchor
        apply Except.bind_congr_ok
        exact ih

/-- From either anchor, a search for what comes after a bound begins in the same period. -/
theorem firstPeriod_startingOn (visited : s.Visits (s.freq.periodNumber d)) (e : Date) :
    s.freq.shift (s.startingOn d).anchorPeriod (firstPeriod (s.startingOn d) e) =
      s.freq.shift s.anchorPeriod (firstPeriod s e) := by
  apply Frequency.shift_congr (s.startingOn d).anchorPeriod_start s.anchorPeriod_start
  have number := (s.startingOn d).periodNumber_anchorPeriod
  simp only [firstPeriod_eq, Series.freq_startingOn, Series.fields_startingOn,
    Series.date_startingOn, s.periodNumber_anchorPeriod] at number ⊢
  have apart : s.freq.periodNumber e - s.freq.periodNumber s.reading.date =
      (s.freq.periodNumber e - s.freq.periodNumber d) +
        (s.freq.periodNumber d - s.freq.periodNumber s.reading.date) := by
    omega
  rw [number, apart, roundUp_add s.step_pos visited.2]
  omega

/-- A bound on the anchor's date or later is where a search starts. -/
theorem floor_date_eq (zone : bound.zone = s.zone) (le : s.reading.date ≤ bound.date) :
    (floor s ⟨some bound, exclude⟩).date = bound.date := by
  have hz : (⟨some bound, exclude⟩ : Query).InZone s.zone :=
    Query.inZone_beyond ⟨none, exclude⟩ zone
  rw [← Series.originAfter_eq hz, Series.originAfter]
  split
  · rfl
  · rename_i nlt
    exact Date.dayNumber_inj (Nat.le_antisymm le (Nat.not_lt.1 nlt))

/-- A search beyond the new start finds the same from either start. -/
theorem start_startingOn (start : s.reading.date ≤ d) (qualifies : s.Qualifies d)
    (zone : bound.zone = s.zone) (le : d ≤ bound.date) :
    Walk.start (s.startingOn d) ⟨some bound, exclude⟩ = Walk.start s ⟨some bound, exclude⟩ := by
  rw [start_eq, start_eq, floor_date_eq (s := s) zone (Nat.le_trans start le),
    floor_date_eq (s := s.startingOn d) zone le, Series.lookahead_startingOn,
    Series.freq_startingOn, firstPeriod_startingOn qualifies.1]
  apply bind_congr
  intro horizon
  apply bind_congr
  intro period
  exact seek_startingOn start qualifies.2 zone le horizon period

end Walk

/-! ## The answers of both series -/

namespace Series

variable {s : Series} {d : Date} {bound : Moment} {exclude : Bool}

/-- So do all the searches after it. -/
theorem take_startingOn (start : s.reading.date ≤ d) (qualifies : s.Qualifies d)
    (zone : bound.zone = s.zone) (le : d ≤ bound.date) (limit : Nat) :
    (s.startingOn d).take ⟨some bound, exclude⟩ limit none =
      s.take ⟨some bound, exclude⟩ limit none := by
  induction limit generalizing bound with
  | zero => rfl
  | succ limit ih =>
    have hz : (⟨some bound, exclude⟩ : Query).InZone s.zone :=
      Query.inZone_beyond ⟨none, exclude⟩ zone
    have first : (s.startingOn d).firstOf ⟨some bound, exclude⟩ =
        s.firstOf ⟨some bound, exclude⟩ := by
      unfold firstOf
      rw [Walk.start_startingOn start qualifies zone le]
    rw [take_succ hz, take_succ (s := s.startingOn d) hz, first]
    apply Except.bind_congr_ok
    intro result found
    cases result with
    | none => rfl
    | some m =>
      -- Beyond the first occurrence both go on from a later bound
      obtain ⟨r, hr, h⟩ := Except.map_eq_ok.1 found
      obtain ⟨⟨c, w⟩, rfl, rfl⟩ := Option.map_eq_some_iff.1 h
      obtain ⟨follows, passes⟩ := Walk.start_follows hz hr
      have lt := (Moment.isBefore_iff (zone.trans follows.zone.symm)).1
        (Walk.admits_iff.1 passes.admits).2
      have later : bound.date ≤ c.date := Moment.date_le_of_ticks_le (Nat.le_of_lt lt)
      exact congrArg ((c :: ·) <$> ·) (ih follows.zone (Nat.le_trans le later))

/-- Without a count, a question about what comes after a stamp has the same answer from either
anchor, unless the stamp is read on an earlier date than the new one. -/
theorem occurrencesAfter_startingOn (hcount : s.fields.count = none)
    (start : s.reading.date ≤ d) (qualifies : s.Qualifies d) {stamp : Stamp}
    (le : ∀ m, stamp.inZone s.zone = .ok m → d ≤ m.date) (limit : Int) :
    (s.startingOn d).occurrencesAfter (some stamp) limit =
      s.occurrencesAfter (some stamp) limit := by
  unfold occurrencesAfter
  simp only [Option.mapM_some, zone_startingOn]
  apply Except.bind_congr_ok
  intro bound hbound
  obtain ⟨m, hm, rfl⟩ := Except.map_eq_ok.1 hbound
  have hm := orFail_eq_ok.1 hm
  have same (limit : Nat) : (s.startingOn d).occurrences (some m) limit =
      s.occurrences (some m) limit := by
    simp only [occurrences, fields_startingOn, hcount]
    rw [take_startingOn start qualifies (Stamp.zone_inZone hm) (le m hm)]
  rw [same]

/-- Anchored at one of its occurrences, a series without a count answers every question about what
comes after a stamp that is not before that occurrence, or on its date, as it did before. -/
theorem occurrencesAfter_reanchored {fields : Fields} {anchor : Stamp} {zone : Zone}
    {lookahead : Int} (hs : make fields anchor zone lookahead = .ok s)
    (hcount : fields.count = none) {after : Option Stamp} {limit : Int} {found : List Moment}
    (h : s.occurrencesAfter after limit = .ok found) {c : Moment} (hc : c ∈ found) :
    ∃ s', make fields c.stamp zone lookahead = .ok s' ∧
      ∀ stamp : Stamp, (∀ m, stamp.inZone zone = .ok m →
        m.isBefore c = false ∨ m.date = c.date) →
          ∀ limit, s'.occurrencesAfter (some stamp) limit =
            s.occurrencesAfter (some stamp) limit := by
  obtain ⟨rfl, rfl, -, -, -⟩ := make_eq_ok hs
  obtain ⟨bound, hbound, -, h⟩ := occurrencesAfter_eq_ok.1 h
  obtain ⟨⟨w, follows⟩, -⟩ := exists_follows_of_mem (Query.inZone_of_mapM hbound true) h hc
  -- The occurrence has the anchor's time of day, in the anchor's pass
  have reading : c.stamp.inZone s.zone = .ok (s.momentOn c.date) := by
    rw [← follows.on, ← follows.zone, Moment.inZone_stamp]
  refine ⟨s.startingOn c.date, make_of_inZone hs reading, ?_⟩
  intro stamp later limit
  apply occurrencesAfter_startingOn hcount follows.anchor_le follows.qualifies
  intro m hm
  obtain notBefore | same := later m hm
  · have zone := (Stamp.zone_inZone hm).trans follows.zone.symm
    exact Moment.date_le_of_ticks_le ((Moment.isBefore_eq_false_iff zone).1 notBefore)
  · rw [same]
    exact Nat.le_refl _

/-- Every month on the day of the anchor. -/
def everyMonth : Fields where
  freq := .monthly
  interval := none
  count := none
  ending := none
  byMonth := .empty
  byMonthDay := []
  byDay := []
  exdates := []
  keyOrder := []
  dayFilters := Fields.noDayFilters

/-- The thirty-firsts from January 2021 on, in the months that have one. -/
def thirtyFirsts : Series where
  fields := everyMonth
  zone := .region .utc
  reading := ⟨⟨2021, 1, 31, by decide⟩, .midnight⟩
  second := false
  lookahead := .one
  endingDate := none
  excludedDates := []
  excludedInstants := []

/-- The thirty-first of March 2021. -/
def endOfMarch : Moment := thirtyFirsts.momentOn ⟨2021, 3, 31, by decide⟩

/-- Anchored at the second of them, they go on with the third. -/
theorem thirtyFirsts_reanchored :
    make everyMonth thirtyFirsts.anchor.stamp (.region .utc) 1 = .ok thirtyFirsts ∧
      thirtyFirsts.occurrencesAfter none 2 = .ok [thirtyFirsts.anchor, endOfMarch] ∧
      ∃ s', make everyMonth endOfMarch.stamp (.region .utc) 1 = .ok s' ∧
        s'.occurrencesAfter (some endOfMarch.stamp) 1 =
          .ok [thirtyFirsts.momentOn ⟨2021, 5, 31, by decide⟩] := by
  have made : make everyMonth thirtyFirsts.anchor.stamp (.region .utc) 1 = .ok thirtyFirsts := rfl
  have found : thirtyFirsts.occurrencesAfter none 2 = .ok [thirtyFirsts.anchor, endOfMarch] := by
    decide +kernel
  have onward : thirtyFirsts.occurrencesAfter (some endOfMarch.stamp) 1 =
      .ok [thirtyFirsts.momentOn ⟨2021, 5, 31, by decide⟩] := by
    decide +kernel
  obtain ⟨s', made', same⟩ := occurrencesAfter_reanchored made rfl found (c := endOfMarch)
    (by simp)
  -- The bound is the new anchor itself
  have later : ∀ m, endOfMarch.stamp.inZone (.region .utc) = .ok m →
      m.isBefore endOfMarch = false ∨ m.date = endOfMarch.date := by
    intro m hm
    injection hm with hm
    right
    rw [← hm]
    rfl
  exact ⟨made, found, s', made', (same _ later 1).trans onward⟩

end Series

end Recurrence
