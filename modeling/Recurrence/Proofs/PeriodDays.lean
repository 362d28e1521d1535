import Recurrence.Proofs.Ordinals
import Recurrence.Proofs.Selection

/-!
# Days of a period near the end of the calendar

A period that ends a week before the calendar does can be expanded, for all parts of a rule: no step
leaves the calendar, and no day or place is looked up that is not there.

* `Expansion.exists_days`: the days of such a period.
* `Expansion.LooksUpSafely`: days of a month and places in a list are looked up where they exist.
* `Expansion.days_exact`: the days are the selected dates of the period, in ascending order.
-/

namespace Recurrence

namespace Expansion

variable {x : Expansion} {start d : Date}

/-! ## Steps inside the calendar -/

/-- The days of a month are found if a week follows it. -/
theorem exists_daysInMonth (h : d.monthEnd ≤ .weekBeforeLast) :
    ∃ days, x.daysInMonth d = .ok days := by
  have first : d.monthStart ≤ d.monthEnd :=
    Nat.le_trans (Frequency.periodStart_le .monthly d) d.le_monthEnd
  unfold daysInMonth
  split
  · exact ⟨_, rfl⟩
  · split
    · exact ⟨_, DayEntry.datesOfAll_eq_ok _ (Nat.le_trans first h) h⟩
    · exact ⟨_, rfl⟩

/-- So are the days of a year. -/
theorem exists_daysInYear (h : start.yearEnd ≤ .weekBeforeLast) :
    ∃ days, x.daysInYear start = .ok days := by
  unfold daysInYear
  split
  · exact ⟨_, DayEntry.datesOfAll_eq_ok _ (Nat.le_trans start.le_yearEnd h) h⟩
  · -- Every month of the year ends by the end of the year
    have each : ∀ month ∈ x.monthsInYear, ∃ days,
        x.daysInMonth (monthOfYear start month) = .ok days := by
      intro month _
      apply exists_daysInMonth
      exact Nat.le_trans (monthOfYear start month).monthEnd.le_yearEnd h
    obtain ⟨lists, hlists⟩ := Except.exists_mapM_eq_ok each
    exact ⟨_, Except.map_eq_ok.2 ⟨lists, hlists, rfl⟩⟩

/-- A week may end on the last date of the calendar. -/
theorem exists_daysInWeek (h : start ≤ .weekBeforeLast) :
    ∃ days, x.daysInWeek start = .ok days := by
  have room := Date.le_weekBeforeLast_iff.1 h
  have each : ∀ offset ∈ List.range 7, ∃ e, start.addDays (offset : Nat) = .ok e := by
    intro offset hoffset
    have := List.mem_range.1 hoffset
    exact Date.exists_addDays (by omega) (by omega)
  obtain ⟨week, hweek⟩ := Except.exists_mapM_eq_ok each
  exact ⟨_, Except.map_eq_ok.2 ⟨week, hweek, rfl⟩⟩

/-- The days of a period that ends a week before the calendar does. -/
theorem exists_days (hs : x.fields.freq.periodStart start = start)
    (room : ∀ d, x.fields.freq.periodStart d = start → d ≤ .weekBeforeLast) :
    ∃ days, x.days start = .ok days := by
  have named : ∃ days, x.namedDays start = .ok days := by
    unfold namedDays
    -- A year and a month are searched up to their ends, a week from its start
    cases hfreq : x.fields.freq with
    | yearly =>
      rw [hfreq] at hs room
      exact exists_daysInYear (room start.yearEnd hs)
    | monthly =>
      rw [hfreq] at hs room
      exact exists_daysInMonth (room start.monthEnd hs)
    | weekly => exact exists_daysInWeek (room start hs)
    | daily => exact ⟨_, rfl⟩
  obtain ⟨days, hdays⟩ := named
  exact ⟨_, Except.map_eq_ok.2 ⟨days, hdays, rfl⟩⟩

/-! ## Days and places that exist -/

/-- Whether a listed day or the anchor's is there in every month that is long enough for it, and an
ordinal leads to a member of every list that is long enough for it. -/
structure LooksUpSafely (x : Expansion) : Prop where
  listed (d : Date) (day : MonthDay) : day ∈ x.fields.byMonthDay → day.val ≤ d.lastDay →
    ∃ e, dayOfMonth d day.val = some e
  anchored (d : Date) : x.anchor.day ≤ d.lastDay → ∃ e, dayOfMonth d x.anchor.day = some e
  counted (entry : DayEntry) (found : List Date) : entry ∈ x.fields.byDay → entry.ordinal ≠ 0 →
    entry.ordinal.natAbs ≤ found.length → ∃ d, DayEntry.select entry.ordinal found = [d]

/-- Every month has its days from the first to the last. -/
theorem exists_dayOfMonth {day : Nat} (pos : 1 ≤ day) (le : day ≤ d.lastDay) :
    ∃ e, dayOfMonth d day = some e :=
  ⟨⟨d.year, d.month, day, d.valid.1, d.valid.2.1, pos, le⟩, Date.of?_eq_some.2 ⟨rfl, rfl, rfl⟩⟩

/-- No lookup of a period fails. -/
theorem looksUpSafely (x : Expansion) : x.LooksUpSafely := by
  constructor
  case listed => exact fun d day _ le => exists_dayOfMonth day.property.1 le
  case anchored => exact fun d le => exists_dayOfMonth x.anchor.valid.2.2.1 le
  case counted =>
    intro entry found _ nonzero le
    rw [← List.length_eq_one_iff, DayEntry.length_select nonzero, if_pos le]

/-! ## Exactness -/

/-- Expanding a period that ends a week before the calendar does yields the selected dates of that
period in ascending order, each once. -/
theorem days_exact (hs : x.fields.freq.periodStart start = start)
    (room : ∀ d, x.fields.freq.periodStart d = start → d ≤ .weekBeforeLast) :
    x.LooksUpSafely ∧ ∃ days, x.days start = .ok days ∧ days.Pairwise (· < ·) ∧
      ∀ d, d ∈ days ↔ x.fields.freq.periodStart d = start ∧ x.Selects d := by
  obtain ⟨days, hdays⟩ := exists_days hs room
  refine ⟨x.looksUpSafely, days, hdays, pairwise_days hdays, fun d => ?_⟩
  rw [mem_days hdays hs]
  refine and_congr_left fun _ => ?_
  constructor
  · intro number
    rw [Frequency.periodStart_congr number, hs]
  · intro same
    rw [← same, Frequency.periodNumber_periodStart]

/-- The fifth Monday of every month, the last one, and the first Friday. -/
def mondaysAndFriday : Expansion where
  fields := {
    freq := .monthly
    interval := none
    count := none
    ending := none
    byMonth := .empty
    byMonthDay := []
    byDay := [⟨5, .monday⟩, ⟨-1, .monday⟩, ⟨1, .friday⟩]
    exdates := []
    keyOrder := []
    dayFilters := .inl rfl }
  anchor := ⟨2012, 1, 31, by decide⟩

/-- In the last November of the calendar, a fifth Monday and a first Friday. -/
theorem mondaysAndFriday_exact :
    (Frequency.monthly.periodStart ⟨9999, 11, 1, by decide⟩ = ⟨9999, 11, 1, by decide⟩ ∧
      ∀ d, Frequency.monthly.periodStart d = ⟨9999, 11, 1, by decide⟩ → d ≤ .weekBeforeLast) ∧
    mondaysAndFriday.LooksUpSafely ∧
    mondaysAndFriday.days ⟨9999, 11, 1, by decide⟩ =
      .ok [⟨9999, 11, 5, by decide⟩, ⟨9999, 11, 29, by decide⟩] ∧
    ∀ d ∈ [(⟨9999, 11, 5, by decide⟩ : Date), ⟨9999, 11, 29, by decide⟩],
      Frequency.monthly.periodStart d = ⟨9999, 11, 1, by decide⟩ ∧ mondaysAndFriday.Selects d := by
  have start : Frequency.monthly.periodStart ⟨9999, 11, 1, by decide⟩ = ⟨9999, 11, 1, by decide⟩ :=
    rfl
  -- All dates of that month are before its end
  have room : ∀ d, Frequency.monthly.periodStart d = ⟨9999, 11, 1, by decide⟩ →
      d ≤ .weekBeforeLast := by
    intro d hd
    have same := Frequency.periodNumber_periodStart .monthly d
    rw [hd] at same
    have stop : (⟨9999, 11, 30, by decide⟩ : Date) ≤ .weekBeforeLast := by decide
    exact Nat.le_trans (Date.mem_month_iff.2 same.symm).2 stop
  have found : mondaysAndFriday.days ⟨9999, 11, 1, by decide⟩ =
      .ok [⟨9999, 11, 5, by decide⟩, ⟨9999, 11, 29, by decide⟩] := by decide +kernel
  -- The days that are found are the ones that are listed
  obtain ⟨safe, days, hdays, -, exact⟩ := days_exact (x := mondaysAndFriday) start room
  rw [found] at hdays
  injection hdays with hdays
  subst hdays
  exact ⟨⟨start, room⟩, safe, found, fun d hd => (exact d).1 hd⟩

end Expansion

end Recurrence
