/-!
# Years and months

Lengths of the years and months of the proleptic Gregorian calendar, and the day counts that
precede them.

* `daysBeforeYear_succ`: a year has 366 days when it is a leap year and 365 otherwise.
* `yearOf_bounds`: `yearOf n` is the year that holds the `n`-th day, counted from zero.
* `monthOf_bounds`: `monthOf leap r` is the month that holds the `r`-th day of a year.
-/

namespace Recurrence

/-- Every fourth year is a leap year, except the centuries not divisible by 400. -/
def isLeapYear (year : Nat) : Bool :=
  year % 4 == 0 && (year % 100 != 0 || year % 400 == 0)

/-- Every fourth year is a leap year, but of the full centuries only every fourth. -/
theorem isLeapYear_iff (year : Nat) :
    isLeapYear year = true ↔ year % 4 = 0 ∧ (year % 100 ≠ 0 ∨ year % 400 = 0) := by
  simp [isLeapYear]

/-- Number of days of a year. -/
def yearLength (leap : Bool) : Nat :=
  if leap then 366 else 365

/-- Number of days of a month in a year that is or is not a leap year. -/
def monthLength (leap : Bool) : Nat → Nat
  | 2 => if leap then 29 else 28
  | 4 => 30
  | 6 => 30
  | 9 => 30
  | 11 => 30
  | _ => 31

/-- No month is shorter than 28 days. -/
theorem monthLength_pos (leap : Bool) (month : Nat) : 28 ≤ monthLength leap month := by
  unfold monthLength
  split <;> first | omega | (split <;> omega)

/-- No month is longer than 31 days. -/
theorem monthLength_le (leap : Bool) (month : Nat) : monthLength leap month ≤ 31 := by
  unfold monthLength
  split <;> first | omega | (split <;> omega)

/-! ## Day counts of years -/

/-- Number of days from the start of year 1 to the start of `year`. -/
def daysBeforeYear (year : Nat) : Nat :=
  365 * (year - 1) + (year - 1) / 4 - (year - 1) / 100 + (year - 1) / 400

private theorem succ_div_eq (y k : Nat) :
    (y + 1) / k = y / k + if (y + 1) % k = 0 then 1 else 0 := by
  rw [Nat.succ_div]
  simp only [Nat.dvd_iff_mod_eq_zero]

/-- A year begins where the one before it ends. -/
theorem daysBeforeYear_succ (year : Nat) (h : 1 ≤ year) :
    daysBeforeYear (year + 1) = daysBeforeYear year + yearLength (isLeapYear year) := by
  obtain ⟨y, rfl⟩ : ∃ y, year = y + 1 := ⟨year - 1, by omega⟩
  have h4 := succ_div_eq y 4
  have h100 := succ_div_eq y 100
  have h400 := succ_div_eq y 400
  have hle : y / 100 ≤ y / 4 := by omega
  have e4 : (y + 1) % 100 = 0 → (y + 1) % 4 = 0 := by omega
  have e100 : (y + 1) % 400 = 0 → (y + 1) % 100 = 0 := by omega
  simp only [daysBeforeYear, yearLength, isLeapYear_iff, Nat.add_sub_cancel]
  rw [h4, h100, h400]
  -- Nothing but the three quotients matters from here on
  generalize y / 4 = a at *
  generalize y / 100 = b at *
  generalize y / 400 = c at *
  by_cases c4 : (y + 1) % 4 = 0 <;> by_cases c100 : (y + 1) % 100 = 0 <;>
    by_cases c400 : (y + 1) % 400 = 0 <;> simp_all <;> omega

private theorem daysBeforeYear_le_succ (year : Nat) :
    daysBeforeYear year ≤ daysBeforeYear (year + 1) := by
  cases year with
  | zero => simp [daysBeforeYear]
  | succ y => rw [daysBeforeYear_succ (y + 1) (by omega)]; omega

/-- Later years begin later. -/
theorem daysBeforeYear_mono {a b : Nat} (h : a ≤ b) : daysBeforeYear a ≤ daysBeforeYear b := by
  induction h with
  | refl => exact Nat.le_refl _
  | step _ ih => exact Nat.le_trans ih (daysBeforeYear_le_succ _)

/-- The year that holds a day. The quotient by the mean length of a year is off by at most one. -/
def yearOf (n : Nat) : Nat :=
  let guess := 400 * n / 146097 + 1
  if n < daysBeforeYear guess then guess - 1
  else if daysBeforeYear (guess + 1) ≤ n then guess + 1
  else guess

/-- A day lies between the starts of its year and of the next one. -/
theorem yearOf_bounds (n : Nat) :
    1 ≤ yearOf n ∧ daysBeforeYear (yearOf n) ≤ n ∧ n < daysBeforeYear (yearOf n + 1) := by
  unfold yearOf
  simp only
  -- The year is guessed from its mean length and then moved by at most one
  split
  · rename_i h
    simp only [daysBeforeYear, Nat.add_sub_cancel] at h ⊢
    omega
  · split
    · rename_i h h'
      simp only [daysBeforeYear, Nat.add_sub_cancel] at h h' ⊢
      omega
    · rename_i h h'
      simp only [daysBeforeYear, Nat.add_sub_cancel] at h h' ⊢
      omega

/-- A day between the starts of a year and of the next one lies in that year. -/
theorem yearOf_eq {n year : Nat} (h : daysBeforeYear year ≤ n)
    (h' : n < daysBeforeYear (year + 1)) : yearOf n = year := by
  obtain ⟨-, lo, hi⟩ := yearOf_bounds n
  rcases Nat.lt_trichotomy (yearOf n) year with lt | eq | gt
  · have := daysBeforeYear_mono (show yearOf n + 1 ≤ year from lt)
    omega
  · exact eq
  · have := daysBeforeYear_mono (show year + 1 ≤ yearOf n from gt)
    omega

/-! ## Day counts of months -/

/-- Number of days from the start of a year to the start of a month. -/
def daysBeforeMonth (leap : Bool) : Nat → Nat
  | 0 => 0
  | 1 => 0
  | month + 2 => daysBeforeMonth leap (month + 1) + monthLength leap (month + 1)

/-- A month begins where the one before it ends. -/
theorem daysBeforeMonth_succ (leap : Bool) {month : Nat} (h : 1 ≤ month) :
    daysBeforeMonth leap (month + 1) = daysBeforeMonth leap month + monthLength leap month := by
  obtain ⟨m, rfl⟩ : ∃ m, month = m + 1 := ⟨month - 1, by omega⟩
  rfl

private theorem daysBeforeMonth_le_succ (leap : Bool) (month : Nat) :
    daysBeforeMonth leap month ≤ daysBeforeMonth leap (month + 1) := by
  cases month with
  | zero => simp [daysBeforeMonth]
  | succ m => have := daysBeforeMonth_succ leap (show 1 ≤ m + 1 by omega); omega

/-- Later months begin later. -/
theorem daysBeforeMonth_mono (leap : Bool) {a b : Nat} (h : a ≤ b) :
    daysBeforeMonth leap a ≤ daysBeforeMonth leap b := by
  induction h with
  | refl => exact Nat.le_refl _
  | step _ ih => exact Nat.le_trans ih (daysBeforeMonth_le_succ leap _)

/-- The twelve months make up the year. -/
theorem daysBeforeMonth_thirteen (leap : Bool) : daysBeforeMonth leap 13 = yearLength leap := by
  cases leap <;> rfl

/-- The month that holds a day of the year: the number of months begun by then. -/
def monthOf (leap : Bool) (yearDay : Nat) : Nat :=
  ((List.range' 1 12).filter fun month => daysBeforeMonth leap month ≤ yearDay).length

/-- A day lies between the starts of its month and of the next one. -/
theorem monthOf_bounds (leap : Bool) {yearDay : Nat} (h : yearDay < yearLength leap) :
    1 ≤ monthOf leap yearDay ∧ monthOf leap yearDay ≤ 12 ∧
      daysBeforeMonth leap (monthOf leap yearDay) ≤ yearDay ∧
      yearDay < daysBeforeMonth leap (monthOf leap yearDay + 1) := by
  -- A year has few enough days to check each of them
  have key : ∀ leap : Bool, ∀ r : Fin (yearLength leap),
      1 ≤ monthOf leap r ∧ monthOf leap r ≤ 12 ∧
        daysBeforeMonth leap (monthOf leap r) ≤ r ∧
        r < daysBeforeMonth leap (monthOf leap r + 1) := by
    decide +kernel
  exact key leap ⟨yearDay, h⟩

/-- A day between the starts of a month and of the next one lies in that month. -/
theorem monthOf_eq (leap : Bool) {month yearDay : Nat} (hm : 1 ≤ month) (hm' : month ≤ 12)
    (h : daysBeforeMonth leap month ≤ yearDay) (h' : yearDay < daysBeforeMonth leap (month + 1)) :
    monthOf leap yearDay = month := by
  have hlt : yearDay < yearLength leap := by
    have := daysBeforeMonth_mono leap (show month + 1 ≤ 13 by omega)
    rw [daysBeforeMonth_thirteen] at this
    omega
  obtain ⟨-, -, lo, hi⟩ := monthOf_bounds leap hlt
  rcases Nat.lt_trichotomy (monthOf leap yearDay) month with lt | eq | gt
  · have := daysBeforeMonth_mono leap (show monthOf leap yearDay + 1 ≤ month from lt)
    omega
  · exact eq
  · have := daysBeforeMonth_mono leap (show month + 1 ≤ monthOf leap yearDay from gt)
    omega

end Recurrence
