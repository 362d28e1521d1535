import Recurrence.Calendar.Period

/-!
# Periods form a line

The periods of a frequency are numbered in a row, so that all arithmetic on period starts becomes
arithmetic on integers.

* `Frequency.periodNumber`: the number of the period that holds a date.
* `Frequency.periodNumber_shift`: a shift by `k` periods adds `k` to the number.
* `Frequency.shift_eq_ok`: a period start is reached from any other by the difference of numbers.
* `Frequency.shift_congr`: shifts to periods with one number are the same.
* `Frequency.periodsBetween_eq`: the number of periods between two starts is that difference.
-/

namespace Recurrence

namespace Date

/-! ## Dates and their months -/

/-- Later dates lie in no earlier month. -/
theorem monthNumber_mono {a b : Date} (h : a ≤ b) : a.monthNumber ≤ b.monthNumber := by
  refine Int.not_lt.1 fun lt => ?_
  have := lt_iff.1 (lt_of_monthNumber_lt lt)
  have := le_iff.1 h
  omega

/-- Later dates lie in no earlier year. -/
theorem year_mono {a b : Date} (h : a ≤ b) : a.year ≤ b.year := by
  have hm := monthNumber_mono h
  have := a.valid.2.1
  have := b.valid.2.1
  simp only [monthNumber] at hm
  omega

/-- A date lies its day of the month after the start of the month. -/
theorem dayNumber_monthStart (d : Date) : d.monthStart.dayNumber + (d.day - 1) = d.dayNumber := by
  simp only [dayNumber, monthStart]
  omega

/-- A date lies its place in the year after the start of the year. -/
theorem dayNumber_yearStart (d : Date) : d.yearStart.dayNumber + d.yearDay = d.dayNumber := by
  rw [dayNumber_eq d, dayNumber_eq]
  simp only [yearStart, yearDay, daysBeforeMonth]
  omega

/-- Dates with the same year, month and day are the same. -/
theorem ext_parts {a b : Date} (hy : a.year = b.year) (hm : a.month = b.month)
    (hd : a.day = b.day) : a = b := by
  cases a
  cases b
  simp only at hy hm hd
  subst hy hm hd
  rfl

/-- A date is made from its year, month and day. -/
theorem of?_eq_some {year month day : Nat} {d : Date} :
    of? year month day = some d ↔ d.year = year ∧ d.month = month ∧ d.day = day := by
  unfold of?
  split
  · rw [Option.some.injEq]
    constructor
    · rintro rfl
      exact ⟨rfl, rfl, rfl⟩
    · rintro ⟨rfl, rfl, rfl⟩
      rfl
  · rename_i h
    constructor
    · intro e
      injection e
    · rintro ⟨rfl, rfl, rfl⟩
      -- The parts of a date are always valid
      exact absurd d.valid h

/-- Two dates of one month are the same when their days are. -/
theorem eq_of_monthNumber {a b : Date} (hm : a.monthNumber = b.monthNumber)
    (hd : a.day = b.day) : a = b := by
  have := a.valid.2.1
  have := b.valid.2.1
  simp only [monthNumber] at hm
  exact ext_parts (by omega) (by omega) hd

/-- A shift by months succeeds exactly when the year of the result is in the calendar. -/
theorem shiftMonths_isOk {d : Date} {months : Int} :
    (∃ e, d.shiftMonths months = .ok e) ↔
      1 ≤ (d.monthNumber + months) / 12 ∧ (d.monthNumber + months) / 12 ≤ 9999 := by
  unfold shiftMonths
  simp only
  split
  · rename_i h
    exact ⟨fun _ => h, fun _ => ⟨_, rfl⟩⟩
  · rename_i h
    refine ⟨fun found => ?_, fun h' => absurd h' h⟩
    obtain ⟨e, he⟩ := found
    injection he

/-- The day after a shift by months: the same, or the last one of its month. -/
theorem day_eq_of_shiftMonths {d e : Date} {months : Int} (h : d.shiftMonths months = .ok e) :
    e.day = min d.day e.lastDay := by
  unfold shiftMonths at h
  simp only at h
  split at h
  · injection h with h
    subst h
    rfl
  · injection h

/-- Shifts by months keep the order of dates. -/
theorem shiftMonths_mono {a b d e : Date} {months : Int} (le : a ≤ b)
    (hd : a.shiftMonths months = .ok d) (he : b.shiftMonths months = .ok e) : d ≤ e := by
  have number := monthNumber_mono le
  have hnd := monthNumber_of_shiftMonths hd
  have hne := monthNumber_of_shiftMonths he
  rcases Int.lt_or_eq_of_le number with lt | eq
  · exact Nat.le_of_lt (lt_of_monthNumber_lt (by omega))
  · -- Within a month the days decide
    have hday : a.day ≤ b.day := by
      have hy : a.year = b.year ∧ a.month = b.month := by
        have := a.valid.2.1
        have := b.valid.2.1
        simp only [monthNumber] at eq
        omega
      have := a.valid.2.2.1
      have := b.valid.2.2.1
      have le := le_iff.1 le
      simp only [dayNumber, hy.1, hy.2] at le
      omega
    have hy : d.year = e.year ∧ d.month = e.month := by
      have := d.valid.2.1
      have := e.valid.2.1
      simp only [monthNumber] at hnd hne eq
      omega
    -- Both days are cut to the length of the same month
    have hdd := day_eq_of_shiftMonths hd
    have hde := day_eq_of_shiftMonths he
    rw [le_iff]
    simp only [lastDay, dayNumber, hy.1, hy.2] at hdd hde ⊢
    omega

/-- Moving by years keeps the order of dates. -/
theorem shiftYears_mono {a b d e : Date} {years : Int} (le : a ≤ b)
    (hd : a.shiftYears years = .ok d) (he : b.shiftYears years = .ok e) : d ≤ e :=
  shiftMonths_mono le hd he

/-- A shift by months keeps the first day of a month. -/
theorem day_of_shiftMonths {d e : Date} {months : Int} (h : d.shiftMonths months = .ok e)
    (hd : d.day = 1) : e.day = 1 := by
  unfold shiftMonths at h
  simp only at h
  split at h
  · injection h with h
    subst h
    simp only [hd]
    have := monthLength_pos (isLeapYear ((d.monthNumber + months) / 12).toNat)
      (((d.monthNumber + months) % 12).toNat + 1)
    omega
  · injection h

/-- Months are counted through, so it does not matter from where they are. -/
theorem shiftMonths_congr {a b : Date} {j k : Int} (day : a.day = b.day)
    (number : a.monthNumber + j = b.monthNumber + k) : a.shiftMonths j = b.shiftMonths k := by
  unfold shiftMonths
  simp only [number, day]

/-- Days are counted through, so it does not matter from where they are. -/
theorem addDays_congr {a b : Date} {j k : Int}
    (number : (a.dayNumber : Int) + j = b.dayNumber + k) : a.addDays j = b.addDays k := by
  unfold addDays
  rw [number]

end Date

namespace Frequency

/-! ## Numbers of periods -/

/-- The number of the period that holds a date: its year, the months or days since the calendar
began, or the Mondays among them. -/
def periodNumber (freq : Frequency) (d : Date) : Int :=
  match freq with
  | yearly => d.year
  | monthly => d.monthNumber
  | weekly => d.dayNumber / 7
  | daily => d.dayNumber

variable {freq : Frequency} {a b d e : Date}

/-- The start of a period lies in that period. -/
theorem periodNumber_periodStart (freq : Frequency) (d : Date) :
    freq.periodNumber (freq.periodStart d) = freq.periodNumber d := by
  cases freq with
  | yearly => rfl
  | monthly => rfl
  | weekly =>
    simp only [periodNumber, periodStart, Date.dayNumber_weekStart]
    omega
  | daily => rfl

/-- A later date lies in no earlier period. -/
theorem periodNumber_mono (h : a ≤ b) : freq.periodNumber a ≤ freq.periodNumber b := by
  have hd := Date.le_iff.1 h
  cases freq with
  | yearly => exact Int.ofNat_le.2 (Date.year_mono h)
  | monthly => exact Date.monthNumber_mono h
  | weekly =>
    simp only [periodNumber]
    omega
  | daily => exact Int.ofNat_le.2 hd

/-- The dates of an earlier period are earlier. -/
theorem lt_of_periodNumber_lt (h : freq.periodNumber a < freq.periodNumber b) : a < b := by
  refine Nat.not_le.1 fun le => ?_
  have : freq.periodNumber b ≤ freq.periodNumber a := periodNumber_mono (Date.le_iff.2 le)
  omega

theorem periodStart_le (freq : Frequency) (d : Date) : freq.periodStart d ≤ d := by
  rw [Date.le_iff]
  -- Each kind of period starts a number of days before the date that is not negative
  cases freq with
  | yearly =>
    have := d.dayNumber_yearStart
    simp only [periodStart]
    omega
  | monthly =>
    have := d.dayNumber_monthStart
    simp only [periodStart]
    omega
  | weekly =>
    simp only [periodStart, Date.dayNumber_weekStart]
    omega
  | daily => exact Nat.le_refl _

/-- The number decides the period. -/
theorem periodStart_congr (h : freq.periodNumber a = freq.periodNumber b) :
    freq.periodStart a = freq.periodStart b := by
  cases freq with
  | yearly => exact Date.ext_parts (Int.ofNat.inj h) rfl rfl
  | monthly => exact Date.eq_of_monthNumber h rfl
  | weekly =>
    apply Date.dayNumber_inj
    simp only [periodNumber] at h
    simp only [periodStart, Date.dayNumber_weekStart]
    omega
  | daily => exact Date.dayNumber_inj (Int.ofNat.inj h)

/-- A later period starts later. -/
theorem periodStart_mono (h : freq.periodNumber a ≤ freq.periodNumber b) :
    freq.periodStart a ≤ freq.periodStart b := by
  rcases Int.lt_or_eq_of_le h with lt | eq
  · rw [← periodNumber_periodStart freq a, ← periodNumber_periodStart freq b] at lt
    exact Nat.le_of_lt (lt_of_periodNumber_lt lt)
  · rw [periodStart_congr eq]
    exact Nat.le_refl _

/-- A period starts with its own start. -/
theorem periodStart_periodStart (freq : Frequency) (d : Date) :
    freq.periodStart (freq.periodStart d) = freq.periodStart d :=
  periodStart_congr (periodNumber_periodStart freq d)

/-- Period starts with the same number are the same. -/
theorem start_inj (ha : freq.periodStart a = a) (hb : freq.periodStart b = b)
    (h : freq.periodNumber a = freq.periodNumber b) : a = b := by
  rw [← ha, ← hb]
  exact periodStart_congr h

/-! ## Shifts -/

/-- A number of periods later the number of the period is larger by it. -/
theorem periodNumber_shift {k : Int} (h : freq.shift d k = .ok e) :
    freq.periodNumber e = freq.periodNumber d + k := by
  -- A year is twelve months, and a week seven days
  cases freq with
  | yearly =>
    have := Date.monthNumber_of_shiftMonths (show d.shiftMonths (12 * k) = .ok e from h)
    have := d.valid.2.1
    have := e.valid.2.1
    simp only [Date.monthNumber] at *
    simp only [periodNumber]
    omega
  | monthly => exact Date.monthNumber_of_shiftMonths h
  | weekly =>
    have := Date.addDays_eq_ok.1 (show d.addDays (7 * k) = .ok e from h)
    simp only [periodNumber]
    omega
  | daily => exact Date.addDays_eq_ok.1 h

/-- A shift leads from a period start to a period start. -/
theorem periodStart_shift {k : Int} (hd : freq.periodStart d = d) (h : freq.shift d k = .ok e) :
    freq.periodStart e = e := by
  cases freq with
  | yearly =>
    have hday : e.day = 1 := Date.day_of_shiftMonths h (by rw [← hd]; rfl)
    have hmonth : d.month = 1 := by rw [← hd]; rfl
    have := Date.monthNumber_of_shiftMonths (show d.shiftMonths (12 * k) = .ok e from h)
    have := e.valid.2.1
    simp only [Date.monthNumber] at *
    exact Date.ext_parts rfl (show 1 = e.month by omega) hday.symm
  | monthly =>
    have hday : e.day = 1 := Date.day_of_shiftMonths h (by rw [← hd]; rfl)
    exact Date.ext_parts rfl rfl hday.symm
  | weekly =>
    have := Date.addDays_eq_ok.1 (show d.addDays (7 * k) = .ok e from h)
    -- The day number of a Monday is a multiple of seven
    have hmod := d.dayNumber_weekStart
    rw [show d.weekStart = d from hd] at hmod
    apply Date.dayNumber_inj
    simp only [periodStart, Date.dayNumber_weekStart]
    omega
  | daily => rfl

/-- Between two dates that a shift leads to, all shifts succeed. -/
theorem exists_shift {j k : Int} (h : freq.shift d k = .ok e) (hj : 0 ≤ j) (hk : j ≤ k) :
    ∃ between, freq.shift d j = .ok between := by
  -- By months the year of the result decides, by days its number
  cases freq with
  | yearly =>
    have hd := d.valid
    have h' := Date.shiftMonths_isOk.1 ⟨e, show d.shiftMonths (12 * k) = .ok e from h⟩
    refine Date.shiftMonths_isOk.2 ?_
    simp only [Date.monthNumber] at *
    omega
  | monthly =>
    have hd := d.valid
    have h' := Date.shiftMonths_isOk.1 ⟨e, show d.shiftMonths k = .ok e from h⟩
    refine Date.shiftMonths_isOk.2 ?_
    simp only [Date.monthNumber] at *
    omega
  | weekly =>
    have he := Date.addDays_eq_ok.1 (show d.addDays (7 * k) = .ok e from h)
    have := e.dayNumber_lt
    refine ⟨.ofDayNumber (d.dayNumber + (7 * j).toNat) (by omega), Date.addDays_eq_ok.2 ?_⟩
    rw [Date.dayNumber_ofDayNumber]
    omega
  | daily =>
    have he := Date.addDays_eq_ok.1 (show d.addDays k = .ok e from h)
    have := e.dayNumber_lt
    refine ⟨.ofDayNumber (d.dayNumber + j.toNat) (by omega), Date.addDays_eq_ok.2 ?_⟩
    rw [Date.dayNumber_ofDayNumber]
    omega

/-- From one period start the difference of numbers leads to the other. -/
theorem shift_eq_ok (ha : freq.periodStart a = a) (hb : freq.periodStart b = b) :
    freq.shift a (freq.periodNumber b - freq.periodNumber a) = .ok b := by
  have ok : ∃ e, freq.shift a (freq.periodNumber b - freq.periodNumber a) = .ok e := by
    have hva := a.valid
    have hvb := b.valid
    cases freq with
    | yearly =>
      refine Date.shiftMonths_isOk.2 ?_
      simp only [Date.monthNumber, periodNumber]
      omega
    | monthly =>
      refine Date.shiftMonths_isOk.2 ?_
      simp only [Date.monthNumber, periodNumber]
      omega
    | weekly =>
      have ha' := a.dayNumber_weekStart
      have hb' := b.dayNumber_weekStart
      rw [show a.weekStart = a from ha] at ha'
      rw [show b.weekStart = b from hb] at hb'
      refine ⟨b, Date.addDays_eq_ok.2 ?_⟩
      simp only [periodNumber]
      omega
    | daily =>
      refine ⟨b, Date.addDays_eq_ok.2 ?_⟩
      simp only [periodNumber]
      omega
  -- The shift leads to a period start with the number of the other
  obtain ⟨e, he⟩ := ok
  have hnumber := periodNumber_shift he
  rw [he, start_inj (periodStart_shift ha he) hb (by omega)]

/-- From period starts, shifts to periods with the same number lead to the same date, or to the same
fault outside the calendar. -/
theorem shift_congr {j k : Int} (ha : freq.periodStart a = a) (hb : freq.periodStart b = b)
    (number : freq.periodNumber a + j = freq.periodNumber b + k) :
    freq.shift a j = freq.shift b k := by
  -- Starts of years and months agree in all that is not counted
  cases freq with
  | yearly =>
    have first : a.month = b.month ∧ a.day = b.day := by
      rw [← ha, ← hb]
      exact ⟨rfl, rfl⟩
    apply Date.shiftMonths_congr first.2
    simp only [periodNumber] at number
    simp only [Date.monthNumber, first.1]
    omega
  | monthly =>
    have first : a.day = b.day := by
      rw [← ha, ← hb]
      rfl
    exact Date.shiftMonths_congr first number
  | weekly =>
    have ha' := a.dayNumber_weekStart
    have hb' := b.dayNumber_weekStart
    rw [show a.weekStart = a from ha] at ha'
    rw [show b.weekStart = b from hb] at hb'
    apply Date.addDays_congr
    simp only [periodNumber] at number
    omega
  | daily => exact Date.addDays_congr number

/-- The distance between two dates in periods is that of their periods' numbers. -/
theorem periodsBetween_eq (ha : freq.periodStart a = a) :
    freq.periodsBetween a b = freq.periodNumber b - freq.periodNumber a := by
  cases freq with
  | yearly => rfl
  | monthly => rfl
  | weekly =>
    have ha' := a.dayNumber_weekStart
    rw [show a.weekStart = a from ha] at ha'
    simp only [periodsBetween, periodNumber]
    omega
  | daily => rfl

end Frequency

end Recurrence
