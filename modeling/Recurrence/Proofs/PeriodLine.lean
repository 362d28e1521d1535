import Recurrence.Proofs.Restart

/-!
# The line of periods

Shifts move along the periods of a frequency as addition moves along the integers, for years and
months of any length as for weeks and days.

* `Frequency.shift_eq_ok_iff`: a shift leads to the period start that lies so many periods away.
* `Frequency.shift_shift`: shifts one after the other add up.
* `Frequency.IsFirstDue`, `Frequency.shift_roundUp_iff`: the first period from a floor on that lies
  a multiple of a step from the anchor's.
* `Frequency.isLine`: the laws of the line.
-/

namespace Recurrence.Frequency

variable {freq : Frequency} {a b d e anchor floor p : Date} {j k : Int} {step : Positive}

/-! ## Shifts -/

/-- A date lies before the start of the next period. -/
theorem lt_of_shift_one (h : freq.shift (freq.periodStart d) 1 = .ok e) : d < e := by
  have number := periodNumber_shift h
  rw [periodNumber_periodStart] at number
  exact lt_of_periodNumber_lt (show freq.periodNumber d < freq.periodNumber e by omega)

/-- From a period start, a shift leads to the period start that lies so many periods away. It fails
only if the calendar does not have it. -/
theorem shift_eq_ok_iff (ha : freq.periodStart a = a) : freq.shift a k = .ok b ↔
    freq.periodStart b = b ∧ freq.periodNumber b = freq.periodNumber a + k := by
  constructor
  · intro h
    exact ⟨periodStart_shift ha h, periodNumber_shift h⟩
  · intro ⟨hb, number⟩
    rw [← shift_eq_ok ha hb]
    apply congrArg
    omega

/-- Shifts one after the other add up, also where the second one leaves the calendar. -/
theorem shift_shift (ha : freq.periodStart a = a) (h : freq.shift a j = .ok b) :
    freq.shift b k = freq.shift a (j + k) := by
  have number := periodNumber_shift h
  apply shift_congr (periodStart_shift ha h) ha
  omega

/-! ## Periods that are due -/

/-- Whether a date is the start of a period that is not before the floor's and lies a multiple of a
step from the anchor's, behind it or before it. -/
structure IsDue (freq : Frequency) (anchor floor : Date) (step : Positive) (p : Date) : Prop where
  start : freq.periodStart p = p
  later : freq.periodStart floor ≤ p
  multiple : (step.val : Int) ∣ freq.periodsBetween (freq.periodStart anchor) p

/-- Whether a date is the start of the first such period. -/
def IsFirstDue (freq : Frequency) (anchor floor : Date) (step : Positive) (p : Date) : Prop :=
  freq.IsDue anchor floor step p ∧ ∀ q, freq.IsDue anchor floor step q → p ≤ q

/-- The number of periods from the anchor's to the floor's, rounded up to a multiple of the step. -/
def roundedPeriods (freq : Frequency) (anchor floor : Date) (step : Positive) : Int :=
  Walk.roundUp (freq.periodsBetween (freq.periodStart anchor) (freq.periodStart floor)) step.val

/-- The rounded distance is a multiple of the step and covers the way to the floor. -/
theorem roundedPeriods_spec (freq : Frequency) (anchor floor : Date) (step : Positive) :
    freq.periodNumber floor ≤ freq.periodNumber anchor + freq.roundedPeriods anchor floor step ∧
      (step.val : Int) ∣ freq.roundedPeriods anchor floor step := by
  have between := periodsBetween_eq (freq.periodStart_periodStart anchor)
    (b := freq.periodStart floor)
  rw [periodNumber_periodStart, periodNumber_periodStart] at between
  have pos : (0 : Int) < step.val := Int.ofNat_lt.2 step.property
  obtain ⟨le, -, multiple⟩ := Walk.roundUp_spec pos
    (n := freq.periodsBetween (freq.periodStart anchor) (freq.periodStart floor))
  unfold roundedPeriods
  exact ⟨by omega, multiple⟩

/-- No period that is due has a smaller number than the one to which the periods are rounded. -/
theorem IsDue.number_le (h : freq.IsDue anchor floor step p) :
    freq.periodNumber anchor + freq.roundedPeriods anchor floor step ≤ freq.periodNumber p := by
  have anchored := freq.periodStart_periodStart anchor
  have multiple := h.multiple
  have later : freq.periodNumber (freq.periodStart floor) ≤ freq.periodNumber p :=
    periodNumber_mono h.later
  -- The distance to a period that is due is a multiple, so it is not below the rounded one
  have between := periodsBetween_eq anchored (b := freq.periodStart floor)
  have pos : (0 : Int) < step.val := Int.ofNat_lt.2 step.property
  rw [periodNumber_periodStart freq floor] at between later
  rw [periodsBetween_eq anchored] at multiple
  rw [periodNumber_periodStart freq anchor] at between multiple
  have le := Walk.roundUp_le pos multiple
    (n := freq.periodsBetween (freq.periodStart anchor) (freq.periodStart floor)) (by omega)
  unfold roundedPeriods
  omega

/-- The period to which the periods are rounded is due. -/
theorem isDue_of_shift
    (h : freq.shift (freq.periodStart anchor) (freq.roundedPeriods anchor floor step) = .ok p) :
    freq.IsDue anchor floor step p := by
  have anchored := freq.periodStart_periodStart anchor
  obtain ⟨start, number⟩ := (shift_eq_ok_iff anchored).1 h
  obtain ⟨later, multiple⟩ := roundedPeriods_spec freq anchor floor step
  -- The period stands as far from the anchor as the rounded distance says
  have between := periodsBetween_eq anchored (b := p)
  rw [periodNumber_periodStart] at number between
  constructor
  · exact start
  · rw [← start]
    exact periodStart_mono (by omega)
  · have eq : freq.periodsBetween (freq.periodStart anchor) p =
        freq.roundedPeriods anchor floor step := by omega
    rwa [eq]

/-- If some period is due, the calendar has the one to which the periods are rounded, since it lies
between the floor's and that one. -/
theorem IsDue.exists_shift (h : freq.IsDue anchor floor step p) :
    ∃ q, freq.shift (freq.periodStart anchor) (freq.roundedPeriods anchor floor step) = .ok q := by
  have anchored := freq.periodStart_periodStart anchor
  have floored := freq.periodStart_periodStart floor
  have le := h.number_le
  have later := (roundedPeriods_spec freq anchor floor step).1
  -- The rounded distance leads to a period between the floor and the one that is due
  have reach := shift_eq_ok floored h.start
  rw [periodNumber_periodStart] at reach
  obtain ⟨q, hq⟩ := Frequency.exists_shift reach
    (j := freq.periodNumber anchor + freq.roundedPeriods anchor floor step -
      freq.periodNumber floor) (by omega) (by omega)
  refine ⟨q, (shift_congr anchored floored ?_).trans hq⟩
  rw [periodNumber_periodStart, periodNumber_periodStart]
  omega

/-- The rounded number of periods leads from the anchor's period to the first one that is due. -/
theorem shift_roundUp_iff :
    freq.shift (freq.periodStart anchor) (freq.roundedPeriods anchor floor step) = .ok p ↔
      freq.IsFirstDue anchor floor step p := by
  -- No period that is due comes before the one where the shift leads
  have least {q : Date}
      (h : freq.shift (freq.periodStart anchor) (freq.roundedPeriods anchor floor step) = .ok q)
      {r : Date} (due : freq.IsDue anchor floor step r) : q ≤ r := by
    have number := periodNumber_shift h
    have le := due.number_le
    rw [periodNumber_periodStart] at number
    rw [← due.start, ← (isDue_of_shift h).start]
    exact periodStart_mono (by omega)
  constructor
  · intro h
    exact ⟨isDue_of_shift h, fun _ => least h⟩
  · intro ⟨due, first⟩
    obtain ⟨q, hq⟩ := due.exists_shift
    have le := Date.le_iff.1 (least hq due)
    have ge := Date.le_iff.1 (first q (isDue_of_shift hq))
    rw [hq, Date.dayNumber_inj (Nat.le_antisymm le ge)]

/-- Of every third month, counted from November 2011, May is the first that is not before March
2012. -/
example : monthly.shift (monthly.periodStart ⟨2011, 11, 30, by decide⟩)
    (roundedPeriods monthly ⟨2011, 11, 30, by decide⟩ ⟨2012, 3, 15, by decide⟩ ⟨3, by decide⟩) =
      .ok ⟨2012, 5, 1, by decide⟩ := by
  decide

/-! ## The line -/

/-- The laws of the line of periods. Where a shift is said to lead to a date, the calendar has it;
shifts that leave the calendar fail. -/
structure IsLine (freq : Frequency) : Prop where
  start_start (d : Date) : freq.periodStart (freq.periodStart d) = freq.periodStart d
  start_mono (d e : Date) : d ≤ e → freq.periodStart d ≤ freq.periodStart e
  /-- A date lies in the period that begins at its start, and before the next one. -/
  start_le (d : Date) : freq.periodStart d ≤ d
  lt_next (d next : Date) : freq.shift (freq.periodStart d) 1 = .ok next → d < next
  /-- The number of periods between two starts is the difference of their numbers. -/
  between (d e : Date) : freq.periodsBetween (freq.periodStart d) (freq.periodStart e) =
    freq.periodNumber e - freq.periodNumber d
  /-- A shift leads to the period start that lies so many periods away, if there is one. -/
  shift_iff (d e : Date) (k : Int) : freq.shift (freq.periodStart d) k = .ok e ↔
    freq.periodStart e = e ∧ freq.periodsBetween (freq.periodStart d) e = k
  shift_add (d m : Date) (j k : Int) : freq.shift (freq.periodStart d) j = .ok m →
    freq.shift m k = freq.shift (freq.periodStart d) (j + k)
  shift_between (d e : Date) : freq.shift (freq.periodStart d)
    (freq.periodsBetween (freq.periodStart d) (freq.periodStart e)) = .ok (freq.periodStart e)
  /-- Rounding up the number of periods from the anchor's to the floor's leads to the first period
  that is due, if there is one. -/
  first_due (anchor floor p : Date) (step : Positive) :
    freq.shift (freq.periodStart anchor) (Walk.roundUp
      (freq.periodsBetween (freq.periodStart anchor) (freq.periodStart floor)) step.val) = .ok p ↔
        freq.IsFirstDue anchor floor step p

/-- The periods of each frequency form a line. -/
theorem isLine (freq : Frequency) : freq.IsLine := by
  have start (d : Date) := freq.periodStart_periodStart d
  -- Distances are differences of numbers, which is all that the cases need
  have between (d e : Date) : freq.periodsBetween (freq.periodStart d) e =
      freq.periodNumber e - freq.periodNumber d := by
    rw [periodsBetween_eq (start d), periodNumber_periodStart]
  constructor
  case start_start => exact start
  case start_mono => exact fun d e le => periodStart_mono (periodNumber_mono le)
  case start_le => exact freq.periodStart_le
  case lt_next => exact fun d next => lt_of_shift_one
  case between => exact fun d e => by rw [between, periodNumber_periodStart]
  case shift_iff =>
    intro d e k
    rw [shift_eq_ok_iff (start d), between, periodNumber_periodStart]
    exact and_congr_right fun _ => by omega
  case shift_add => exact fun d m j k => shift_shift (start d)
  case shift_between =>
    intro d e
    rw [periodsBetween_eq (start d)]
    exact shift_eq_ok (start d) (start e)
  case first_due => exact fun anchor floor p step => shift_roundUp_iff

end Recurrence.Frequency
