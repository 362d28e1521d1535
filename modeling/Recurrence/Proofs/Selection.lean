import Recurrence.Proofs.Periods
import Recurrence.Proofs.Spans

/-!
# What a rule selects

Which dates the parts of a rule select, told date by date and without expanding a period. A date has
to pass the months and the days of the month, and then the weekdays, or the anchor where the rule
names neither days nor weekdays.

* `Expansion.Selects`: whether the parts of a rule select a date.
* `Expansion.mem_days`, `Expansion.pairwise_days`: expanding a period gives the selected dates of
  that period in ascending order.
-/

namespace Recurrence

namespace Expansion

/-! ## Selected dates -/

/-- Whether the months of a rule let a date pass. -/
def MatchesMonth (x : Expansion) (d : Date) : Prop :=
  x.fields.byMonth.val = [] ∨ ∃ month ∈ x.fields.byMonth.val, month.val = d.month

/-- Whether the days of the month of a rule let a date pass. -/
def MatchesMonthDay (x : Expansion) (d : Date) : Prop :=
  x.fields.byMonthDay = [] ∨ ∃ day ∈ x.fields.byMonthDay, day.val = d.day

/-- Whether some weekday entry of a rule selects a date. Ordinals count inside the year for a yearly
rule without months, inside the month for other yearly rules and for monthly ones, and mean nothing
for weekly and daily rules. -/
def MatchesEntry (x : Expansion) (d : Date) : Prop :=
  ∃ entry ∈ x.fields.byDay,
    if x.fields.freq = .weekly ∨ x.fields.freq = .daily then d.weekday = entry.weekday
    else if x.fields.freq = .yearly ∧ x.fields.byMonth.val = [] then
      entry.SelectsIn d.yearStart d.yearEnd d
    else entry.SelectsIn d.monthStart d.monthEnd d

/-- Whether a date agrees with the anchor where a rule without weekdays leaves it to the anchor: in
the weekday of a weekly rule, and in the day and the month of a yearly or monthly one. -/
def MatchesAnchor (x : Expansion) (d : Date) : Prop :=
  (x.fields.freq = .weekly → d.weekday = x.anchor.weekday) ∧
    (x.fields.freq = .yearly ∨ x.fields.freq = .monthly → x.fields.byMonthDay = [] →
      d.day = x.anchor.day) ∧
    (x.fields.freq = .yearly → x.fields.byMonthDay = [] → x.fields.byMonth.val = [] →
      d.month = x.anchor.month)

/-- Whether the parts of a rule select a date. -/
def Selects (x : Expansion) (d : Date) : Prop :=
  x.MatchesMonth d ∧ x.MatchesMonthDay d ∧
    if x.fields.byDay = [] then x.MatchesAnchor d else x.MatchesEntry d

instance (x : Expansion) (d : Date) : Decidable (x.MatchesMonth d) :=
  inferInstanceAs (Decidable (_ ∨ _))

instance (x : Expansion) (d : Date) : Decidable (x.MatchesMonthDay d) :=
  inferInstanceAs (Decidable (_ ∨ _))

instance (x : Expansion) (d : Date) : Decidable (x.MatchesEntry d) :=
  inferInstanceAs (Decidable (∃ entry ∈ x.fields.byDay, _))

instance (x : Expansion) (d : Date) : Decidable (x.MatchesAnchor d) :=
  inferInstanceAs (Decidable (_ ∧ _))

instance (x : Expansion) (d : Date) : Decidable (x.Selects d) :=
  inferInstanceAs (Decidable (_ ∧ _))

/-- A date passes the filters if its month and its day are among the named ones. -/
theorem passesFilters_iff {x : Expansion} {d : Date} :
    x.passesFilters d = true ↔ x.MatchesMonth d ∧ x.MatchesMonthDay d := by
  simp [passesFilters, MatchesMonth, MatchesMonthDay]

end Expansion

/-! ## Months and years as spans -/

namespace Date

/-- No date is behind the end of its month. -/
theorem le_monthEnd (d : Date) : d ≤ d.monthEnd := by
  have := d.valid.2.2.2
  rw [le_iff]
  simp only [dayNumber, monthEnd, lastDay]
  omega

/-- No date is behind the end of its year. -/
theorem le_yearEnd (d : Date) : d ≤ d.yearEnd := by
  have hyear := d.yearEnd.dayNumber_bounds
  have hday : d.yearEnd.yearDay + 1 = yearLength (isLeapYear d.year) := by
    simp only [yearDay, yearEnd]
    cases isLeapYear d.year <;> rfl
  have := d.yearDay_lt
  rw [le_iff, dayNumber_eq d, dayNumber_eq d.yearEnd]
  show daysBeforeYear d.year + d.yearDay ≤ daysBeforeYear d.year + d.yearEnd.yearDay
  omega

/-- Dates lie in one month if they agree in year and month. -/
theorem monthNumber_eq_iff {d e : Date} :
    e.monthNumber = d.monthNumber ↔ e.year = d.year ∧ e.month = d.month := by
  have := d.valid.2.1
  have := e.valid.2.1
  simp only [monthNumber]
  omega

/-- Dates of one month share its first and last day. -/
theorem month_congr {d e : Date} (h : e.monthNumber = d.monthNumber) :
    e.monthStart = d.monthStart ∧ e.monthEnd = d.monthEnd := by
  obtain ⟨hy, hm⟩ := monthNumber_eq_iff.1 h
  refine ⟨ext_parts hy hm rfl, ext_parts hy hm ?_⟩
  simp only [monthEnd, lastDay, hy, hm]

/-- Dates of one year share its first and last day. -/
theorem year_congr {d e : Date} (h : e.year = d.year) :
    e.yearStart = d.yearStart ∧ e.yearEnd = d.yearEnd :=
  ⟨ext_parts h rfl rfl, ext_parts h rfl rfl⟩

/-- The dates from the first to the last day of a month are those of the month. -/
theorem mem_month_iff {d e : Date} :
    (d.monthStart ≤ e ∧ e ≤ d.monthEnd) ↔ e.monthNumber = d.monthNumber := by
  constructor
  · rintro ⟨lo, hi⟩
    have lo := monthNumber_mono lo
    have hi := monthNumber_mono hi
    exact Int.le_antisymm hi lo
  · intro h
    obtain ⟨hs, he⟩ := month_congr h
    rw [← hs, ← he]
    exact ⟨Frequency.periodStart_le .monthly e, e.le_monthEnd⟩

/-- The dates from the first to the last day of a year are those of the year. -/
theorem mem_year_iff {d e : Date} : (d.yearStart ≤ e ∧ e ≤ d.yearEnd) ↔ e.year = d.year := by
  constructor
  · rintro ⟨lo, hi⟩
    have lo := year_mono lo
    have hi := year_mono hi
    exact Nat.le_antisymm hi lo
  · intro h
    obtain ⟨hs, he⟩ := year_congr h
    rw [← hs, ← he]
    exact ⟨Frequency.periodStart_le .yearly e, e.le_yearEnd⟩

end Date

namespace DayEntry

variable {entry : DayEntry} {d e : Date}

/-- What an entry selects inside the month of a date lies in that month. -/
theorem selectsIn_month : entry.SelectsIn d.monthStart d.monthEnd e ↔
    e.monthNumber = d.monthNumber ∧ entry.SelectsIn e.monthStart e.monthEnd e := by
  constructor
  · intro h
    have hm := Date.mem_month_iff.1 h.1
    obtain ⟨hs, he⟩ := Date.month_congr hm
    rw [hs, he]
    exact ⟨hm, h⟩
  · rintro ⟨hm, h⟩
    obtain ⟨hs, he⟩ := Date.month_congr hm
    rwa [hs, he] at h

/-- What an entry selects inside the year of a date lies in that year. -/
theorem selectsIn_year : entry.SelectsIn d.yearStart d.yearEnd e ↔
    e.year = d.year ∧ entry.SelectsIn e.yearStart e.yearEnd e := by
  constructor
  · intro h
    have hy := Date.mem_year_iff.1 h.1
    obtain ⟨hs, he⟩ := Date.year_congr hy
    rw [hs, he]
    exact ⟨hy, h⟩
  · rintro ⟨hy, h⟩
    obtain ⟨hs, he⟩ := Date.year_congr hy
    rwa [hs, he] at h

end DayEntry

/-! ## Expanding a period -/

namespace Expansion

variable {x : Expansion} {start d : Date} {dates : List Date}

/-- What a month holds: the listed days, or what the entries select, or the anchor's day. -/
def MatchesInMonth (x : Expansion) (d : Date) : Prop :=
  if x.fields.byMonthDay ≠ [] then ∃ day ∈ x.fields.byMonthDay, day.val = d.day
  else if x.fields.byDay ≠ [] then
    ∃ entry ∈ x.fields.byDay, entry.SelectsIn d.monthStart d.monthEnd d
  else d.day = x.anchor.day

/-- The days that are looked up in a month are the ones in it that match. -/
theorem mem_daysInMonth (h : x.daysInMonth start = .ok dates) :
    d ∈ dates ↔ d.monthNumber = start.monthNumber ∧ x.MatchesInMonth d := by
  unfold daysInMonth at h
  unfold MatchesInMonth
  -- Days of the month go before entries, and entries before the anchor
  by_cases hday : x.fields.byMonthDay = []
  · by_cases hentry : x.fields.byDay = []
    · simp only [hday, hentry, List.isEmpty_nil, Bool.not_true, Bool.false_eq_true, if_false,
        Except.ok.injEq] at h
      subst h
      simp only [hday, hentry, ne_eq, not_true_eq_false, if_false, Option.mem_toList, dayOfMonth,
        Date.of?_eq_some, Date.monthNumber_eq_iff, and_assoc]
    · simp only [hday, List.isEmpty_nil, Bool.not_true, Bool.false_eq_true, if_false,
        List.isEmpty_eq_false_iff.2 hentry, Bool.not_false, if_true] at h
      simp only [hday, hentry, ne_eq, not_true_eq_false, not_false_eq_true, if_false, if_true,
        DayEntry.mem_datesOfAll h]
      constructor
      · rintro ⟨entry, mem, hsel⟩
        obtain ⟨hm, hsel⟩ := DayEntry.selectsIn_month.1 hsel
        exact ⟨hm, entry, mem, hsel⟩
      · rintro ⟨hm, entry, mem, hsel⟩
        exact ⟨entry, mem, DayEntry.selectsIn_month.2 ⟨hm, hsel⟩⟩
  · simp only [List.isEmpty_eq_false_iff.2 hday, Bool.not_false, if_true, Except.ok.injEq] at h
    subst h
    simp only [hday, ne_eq, not_false_eq_true, if_true, List.mem_filterMap, dayOfMonth,
      Date.of?_eq_some, Date.monthNumber_eq_iff]
    tauto

/-- There is no other month. -/
theorem mem_allMonths (month : MonthNumber) : month ∈ allMonths := by
  have := month.property
  refine List.mem_map.2 ⟨⟨month.val - 1, by omega⟩, List.mem_finRange _, ?_⟩
  exact Subtype.ext (show month.val - 1 + 1 = month.val by omega)

/-- The months of a year that are searched are the named ones. If no month is named, it is all of
them, or the month of the anchor if no day of the month is named either. -/
theorem mem_monthsInYear {month : MonthNumber} : month ∈ x.monthsInYear ↔
    (x.fields.byMonth.val = [] ∨ month ∈ x.fields.byMonth.val) ∧
      (x.fields.byMonth.val = [] → x.fields.byMonthDay = [] → month.val = x.anchor.month) := by
  unfold monthsInYear
  by_cases hmonth : x.fields.byMonth.val = []
  · by_cases hday : x.fields.byMonthDay = []
    · simp [hmonth, hday, Subtype.ext_iff]
    · simp [hmonth, hday, mem_allMonths]
  · simp [hmonth]

/-- The days that a yearly rule names. Its months and days of the month are not yet tested. -/
theorem mem_daysInYear (h : x.daysInYear start = .ok dates) (hs : start.yearStart = start) :
    d ∈ dates ↔ d.year = start.year ∧
      if x.fields.byDay ≠ [] ∧ x.fields.byMonth.val = [] then
        ∃ entry ∈ x.fields.byDay, entry.SelectsIn d.yearStart d.yearEnd d
      else ∃ month ∈ x.monthsInYear, month.val = d.month ∧ x.MatchesInMonth d := by
  unfold daysInYear at h
  split at h
  · rename_i c
    have c : x.fields.byDay ≠ [] ∧ x.fields.byMonth.val = [] := by simpa using c
    -- Without months the entries count inside the year
    rw [if_pos c, DayEntry.mem_datesOfAll h]
    rw [← hs]
    constructor
    · rintro ⟨entry, mem, hsel⟩
      obtain ⟨hy, hsel⟩ := DayEntry.selectsIn_year.1 hsel
      exact ⟨hy, entry, mem, hsel⟩
    · rintro ⟨hy, entry, mem, hsel⟩
      exact ⟨entry, mem, DayEntry.selectsIn_year.2 ⟨hy, hsel⟩⟩
  · rename_i c
    have c : ¬ (x.fields.byDay ≠ [] ∧ x.fields.byMonth.val = []) := by simpa using c
    -- Otherwise the months are gone through one by one
    obtain ⟨lists, hlists, rfl⟩ := Except.map_eq_ok.1 h
    rw [if_neg c, List.mem_flatten]
    constructor
    · rintro ⟨l, hl, hd⟩
      obtain ⟨month, hmonth, hl⟩ := (Except.mem_mapM hlists).1 hl
      obtain ⟨hm, hd⟩ := (mem_daysInMonth hl).1 hd
      obtain ⟨hy, hm⟩ := Date.monthNumber_eq_iff.1 hm
      exact ⟨hy, month, hmonth, hm.symm, hd⟩
    · rintro ⟨hy, month, hmonth, hm, hd⟩
      obtain ⟨l, hl⟩ := Except.exists_of_mapM hlists hmonth
      refine ⟨l, (Except.mem_mapM hlists).2 ⟨month, hmonth, hl⟩, (mem_daysInMonth hl).2 ⟨?_, hd⟩⟩
      exact Date.monthNumber_eq_iff.2 ⟨hy, hm.symm⟩

/-- The days that are looked up in a week are the ones in it with a wanted weekday. -/
theorem mem_daysInWeek (h : x.daysInWeek start = .ok dates) (hs : start.weekStart = start) :
    d ∈ dates ↔ (d.dayNumber : Int) / 7 = start.dayNumber / 7 ∧
      x.wantsWeekday d.weekday = true := by
  obtain ⟨week, hweek, rfl⟩ := Except.map_eq_ok.1 h
  have monday := start.dayNumber_weekStart
  rw [hs] at monday
  rw [List.mem_filter, Except.mem_mapM hweek]
  refine and_congr_left fun _ => ?_
  -- A date of the week is less than seven days after its Monday
  simp only [List.mem_range, Date.addDays_eq_ok]
  constructor
  · rintro ⟨offset, lt, h⟩
    omega
  · intro h
    exact ⟨d.dayNumber - start.dayNumber, by omega, by omega⟩

/-- The wanted weekdays are the named ones, or else the one of the anchor. -/
theorem wantsWeekday_iff {w : Weekday} : x.wantsWeekday w = true ↔
    if x.fields.byDay = [] then w = x.anchor.weekday
    else ∃ entry ∈ x.fields.byDay, w = entry.weekday := by
  unfold wantsWeekday
  by_cases hentry : x.fields.byDay = []
  · simp [hentry]
  · simp only [List.isEmpty_eq_false_iff.2 hentry, Bool.false_eq_true, if_false, hentry,
      List.contains_iff_mem, Fields.weekdays, List.mem_map]
    exact exists_congr fun entry => and_congr_right fun _ => eq_comm

/-- What a rule of years selects. -/
theorem selects_yearly (hfreq : x.fields.freq = .yearly) :
    x.Selects d ↔ x.MatchesMonth d ∧ x.MatchesMonthDay d ∧
      if x.fields.byDay ≠ [] ∧ x.fields.byMonth.val = [] then
        ∃ entry ∈ x.fields.byDay, entry.SelectsIn d.yearStart d.yearEnd d
      else ∃ month ∈ x.monthsInYear, month.val = d.month ∧ x.MatchesInMonth d := by
  refine and_congr_right fun hm => and_congr_right fun hd => ?_
  -- The month of the date is among those that a yearly rule looks into
  have months : (∃ month ∈ x.monthsInYear, month.val = d.month ∧ x.MatchesInMonth d) ↔
      (x.fields.byMonth.val = [] → x.fields.byMonthDay = [] → d.month = x.anchor.month) ∧
        x.MatchesInMonth d := by
    simp only [mem_monthsInYear]
    constructor
    · rintro ⟨month, ⟨-, hdefault⟩, hmonth, h⟩
      exact ⟨hmonth ▸ hdefault, h⟩
    · rintro ⟨hdefault, h⟩
      refine ⟨⟨d.month, d.valid.2.1⟩, ⟨?_, hdefault⟩, rfl, h⟩
      refine hm.imp_right ?_
      rintro ⟨month, mem, hmonth⟩
      exact (Subtype.ext hmonth : month = ⟨d.month, d.valid.2.1⟩) ▸ mem
  rw [months]
  -- No rule has both days of the month and entries
  by_cases hentry : x.fields.byDay = []
  · by_cases hday : x.fields.byMonthDay = []
    · simp [MatchesAnchor, MatchesInMonth, hfreq, hentry, hday, and_comm]
    · have := hd.resolve_left hday
      simp [MatchesAnchor, MatchesInMonth, hfreq, hentry, hday, this]
  · have hday := x.fields.dayFilters.resolve_right hentry
    by_cases hmonth : x.fields.byMonth.val = []
    · simp [MatchesEntry, hfreq, hentry, hmonth]
    · simp [MatchesEntry, MatchesInMonth, hfreq, hentry, hmonth, hday]

/-- What a rule of months selects. -/
theorem selects_monthly (hfreq : x.fields.freq = .monthly) :
    x.Selects d ↔ x.MatchesMonth d ∧ x.MatchesMonthDay d ∧ x.MatchesInMonth d := by
  refine and_congr_right fun _ => and_congr_right fun hd => ?_
  by_cases hentry : x.fields.byDay = []
  · by_cases hday : x.fields.byMonthDay = []
    · simp [MatchesAnchor, MatchesInMonth, hfreq, hentry, hday]
    · have := hd.resolve_left hday
      simp [MatchesAnchor, MatchesInMonth, hfreq, hentry, hday, this]
  · have hday := x.fields.dayFilters.resolve_right hentry
    simp [MatchesEntry, MatchesInMonth, hfreq, hentry, hday]

/-- What a rule of weeks selects. -/
theorem selects_weekly (hfreq : x.fields.freq = .weekly) :
    x.Selects d ↔ x.MatchesMonth d ∧ x.MatchesMonthDay d ∧ x.wantsWeekday d.weekday = true := by
  refine and_congr_right fun _ => and_congr_right fun _ => ?_
  rw [wantsWeekday_iff]
  by_cases hentry : x.fields.byDay = []
  · simp [MatchesAnchor, hfreq, hentry]
  · simp [MatchesEntry, hfreq, hentry]

/-- What a rule of days selects. -/
theorem selects_daily (hfreq : x.fields.freq = .daily) :
    x.Selects d ↔ x.MatchesMonth d ∧ x.MatchesMonthDay d ∧
      (x.fields.byDay = [] ∨ d.weekday ∈ x.fields.weekdays) := by
  refine and_congr_right fun _ => and_congr_right fun _ => ?_
  by_cases hentry : x.fields.byDay = []
  · simp [MatchesAnchor, hfreq, hentry]
  · simp only [MatchesEntry, hfreq, hentry, if_false, false_or, Fields.weekdays, List.mem_map]
    simp [eq_comm]

/-- The day itself is looked up, if its weekday is wanted. -/
theorem mem_daysInDay : d ∈ x.daysInDay start ↔
    d = start ∧ (x.fields.byDay = [] ∨ d.weekday ∈ x.fields.weekdays) := by
  unfold daysInDay
  by_cases c : x.fields.byDay = [] ∨ start.weekday ∈ x.fields.weekdays
  · rw [if_pos (by simpa using c), List.mem_singleton]
    exact ⟨fun h => ⟨h, h ▸ c⟩, fun h => h.1⟩
  · rw [if_neg (by simpa using c)]
    refine ⟨fun h => absurd h List.not_mem_nil, ?_⟩
    rintro ⟨rfl, h⟩
    exact absurd h c

/-- The dates that the parts name in a period, tested for months and days of the month, are the
selected dates of the period. -/
theorem mem_namedDays (h : x.namedDays start = .ok dates)
    (hs : x.fields.freq.periodStart start = start) :
    (d ∈ dates ∧ x.MatchesMonth d ∧ x.MatchesMonthDay d) ↔
      x.fields.freq.periodNumber d = x.fields.freq.periodNumber start ∧ x.Selects d := by
  unfold namedDays at h
  -- The tests of months and days are part of both sides
  cases hfreq : x.fields.freq with
  | yearly =>
    rw [hfreq] at h hs
    rw [mem_daysInYear h hs, selects_yearly hfreq]
    simp only [Frequency.periodNumber, Int.natCast_inj]
    tauto
  | monthly =>
    rw [hfreq] at h hs
    rw [mem_daysInMonth h, selects_monthly hfreq]
    simp only [Frequency.periodNumber]
    tauto
  | weekly =>
    rw [hfreq] at h hs
    rw [mem_daysInWeek h hs, selects_weekly hfreq]
    simp only [Frequency.periodNumber]
    tauto
  | daily =>
    rw [hfreq] at h hs
    injection h with h
    subst h
    -- A period of one day is its first date
    have same : d = start ↔ (d.dayNumber : Int) = start.dayNumber :=
      ⟨fun e => by rw [e], fun e => Date.dayNumber_inj (Int.ofNat.inj e)⟩
    rw [mem_daysInDay, selects_daily hfreq, same]
    simp only [Frequency.periodNumber]
    tauto

/-- Expanding a period gives the selected dates of the period. -/
theorem mem_days (h : x.days start = .ok dates) (hs : x.fields.freq.periodStart start = start) :
    d ∈ dates ↔
      x.fields.freq.periodNumber d = x.fields.freq.periodNumber start ∧ x.Selects d := by
  obtain ⟨named, hnamed, rfl⟩ := Except.map_eq_ok.1 h
  rw [Date.mem_ascending, List.mem_filter, passesFilters_iff, mem_namedDays hnamed hs]

/-- The days of a period ascend. -/
theorem pairwise_days (h : x.days start = .ok dates) : dates.Pairwise (· < ·) := by
  obtain ⟨named, hnamed, rfl⟩ := Except.map_eq_ok.1 h
  exact Date.pairwise_ascending _

end Expansion

end Recurrence
