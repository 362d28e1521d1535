import Recurrence.Proofs.Selection
import Recurrence.Series.Occurrences

/-!
# Candidates of a series

Which moments a series may have at all, told without walking through it: the anchor's time of day on
every date that qualifies.

* `Series.Visits`, `Series.Qualifies`: the periods that a series visits, and its dates.
* `Series.candidatesFrom`: the candidates from a period on that answer a query.
* `Series.candidatesFrom_eq`: they are those of the period, followed by those from the next period
  on that is visited.
-/

namespace Recurrence

/-! ## Order of moments -/

namespace Moment

variable {a b c : Moment}

/-- In one zone the readings decide which moment is before. -/
theorem isBefore_iff (h : a.zone = b.zone) :
    a.isBefore b = true ↔ a.reading.ticks < b.reading.ticks := by
  simp [isBefore, h]

/-- And if it is not before, it is as late or later. -/
theorem isBefore_eq_false_iff (h : a.zone = b.zone) :
    a.isBefore b = false ↔ b.reading.ticks ≤ a.reading.ticks := by
  simp [isBefore, h]

/-- No moment is before itself. -/
theorem isBefore_irrefl (a : Moment) : a.isBefore a = false := by
  simp [isBefore]

/-- No two moments are before each other. -/
theorem isBefore_asymm (h : a.isBefore b = true) : b.isBefore a = false := by
  unfold isBefore at *
  split at h
  · rename_i same
    rw [if_pos same.symm]
    exact decide_eq_false (Nat.lt_asymm (of_decide_eq_true h))
  · rename_i other
    rw [if_neg fun same => other same.symm]
    exact decide_eq_false (Int.lt_asymm (of_decide_eq_true h))

/-- In one zone what is before an earlier moment is before the later one. -/
theorem isBefore_trans (hab : a.zone = b.zone) (hbc : b.zone = c.zone)
    (h : a.isBefore b = true) (h' : b.isBefore c = true) : a.isBefore c = true :=
  (isBefore_iff (hab.trans hbc)).2
    (Nat.lt_trans ((isBefore_iff hab).1 h) ((isBefore_iff hbc).1 h'))

/-- An earlier reading lies on no later date. -/
theorem date_le_of_ticks_le (h : a.reading.ticks ≤ b.reading.ticks) : a.date ≤ b.date := by
  have ha := a.reading.time.lt
  have hb := b.reading.time.lt
  rw [Date.le_iff]
  simp only [Reading.ticks, ticksPerDay] at *
  simp only [date]
  omega

end Moment

namespace Series

variable {s : Series} {q : Query} {d e : Date}

/-- The moments of a series are ordered by their dates. -/
theorem isBefore_momentOn : (s.momentOn d).isBefore (s.momentOn e) = true ↔ d < e := by
  rw [Moment.isBefore_iff (show (s.momentOn d).zone = (s.momentOn e).zone from rfl), Date.lt_iff]
  simp only [Reading.ticks, momentOn, ticksPerDay]
  omega

/-! ## Qualifying dates -/

/-- What the periods of a series are expanded with. -/
def expansion (s : Series) : Expansion := ⟨s.fields, s.reading.date⟩

/-- Whether a series visits the period with a number: it lies a multiple of the step after the
anchor's. -/
def Visits (s : Series) (n : Int) : Prop :=
  s.freq.periodNumber s.reading.date ≤ n ∧
    (s.fields.step.val : Int) ∣ n - s.freq.periodNumber s.reading.date

/-- Whether a date may hold an occurrence: its period is visited, and the parts select it. -/
def Qualifies (s : Series) (d : Date) : Prop :=
  s.Visits (s.freq.periodNumber d) ∧ s.expansion.Selects d

instance (s : Series) (n : Int) : Decidable (s.Visits n) := inferInstanceAs (Decidable (_ ∧ _))

instance (s : Series) (d : Date) : Decidable (s.Qualifies d) := inferInstanceAs (Decidable (_ ∧ _))

/-- The period of the anchor begins where it is said to. -/
theorem anchorPeriod_start (s : Series) : s.freq.periodStart s.anchorPeriod = s.anchorPeriod :=
  Frequency.periodStart_periodStart _ _

/-- It has the number of the anchor's date. -/
theorem periodNumber_anchorPeriod (s : Series) :
    s.freq.periodNumber s.anchorPeriod = s.freq.periodNumber s.reading.date :=
  Frequency.periodNumber_periodStart _ _

/-- A series advances by a period at least. -/
theorem step_pos (s : Series) : (0 : Int) < s.fields.step.val :=
  Int.ofNat_lt.2 s.fields.step.property

/-- A series visits the period that is a step behind a visited one. -/
theorem Visits.next {n : Int} (h : s.Visits n) : s.Visits (n + s.fields.step.val) := by
  have pos := s.step_pos
  refine ⟨by have := h.1; omega, ?_⟩
  obtain ⟨k, hk⟩ := h.2
  exact ⟨k + 1, by rw [Int.mul_add]; omega⟩

/-- Between one visited period and the next none is visited. -/
theorem Visits.eq_or_next_le {n m : Int} (hn : s.Visits n) (hm : s.Visits m) (le : n ≤ m) :
    m = n ∨ n + s.fields.step.val ≤ m := by
  obtain ⟨j, hj⟩ := hn.2
  obtain ⟨k, hk⟩ := hm.2
  have pos := s.step_pos
  generalize (s.fields.step.val : Int) = step at *
  -- Both numbers are multiples of the step apart from the anchor, so these are compared
  rcases Int.lt_trichotomy j k with lt | eq | gt
  · right
    have := Int.mul_le_mul_of_nonneg_left (show j + 1 ≤ k from lt) (Int.le_of_lt pos)
    rw [Int.mul_add] at this
    omega
  · left
    subst eq
    omega
  · have := Int.mul_lt_mul_of_pos_left gt pos
    omega

end Series

/-! ## Candidates -/

namespace Date

/-- All dates, in order. -/
def calendar : List Date := span ⟨1, 1, 1, by decide⟩ ⟨9999, 12, 31, by decide⟩

/-- Every date is in the calendar. -/
theorem mem_calendar (d : Date) : d ∈ calendar := by
  have lo := d.dayNumber_bounds.1
  have hi := d.dayNumber_lt
  refine mem_span.2 ⟨?_, ?_⟩
  · exact Nat.zero_le _
  · rw [le_iff]
    have : (⟨9999, 12, 31, by decide⟩ : Date).dayNumber = 3652058 := by decide
    simp only [total] at hi
    omega

/-- The calendar ascends. -/
theorem pairwise_calendar : calendar.Pairwise (· < ·) := pairwise_span _ _

end Date

namespace Series

variable {s : Series} {q : Query} {d e : Date}

/-- Whether a moment answers a query: it is not before the anchor, and later than the bound. -/
def admits (s : Series) (q : Query) (m : Moment) : Bool := !m.isBefore s.anchor && q.accepts m

/-- A search admits what is neither before the anchor nor refused by the question. -/
theorem admits_eq_not {m : Moment} :
    s.admits q m = !(m.isBefore s.anchor || !q.accepts m) := by
  rw [admits, Bool.not_or, Bool.not_not]

/-- The candidates that answer a query, from the period with a number on. -/
def candidatesFrom (s : Series) (q : Query) (n : Int) : List Moment :=
  ((Date.calendar.filter fun d => s.Qualifies d ∧ n ≤ s.freq.periodNumber d).map
    s.momentOn).filter (s.admits q)

/-- The candidates from a period on are the admitted moments of the series in it or behind it. -/
theorem mem_candidatesFrom {n : Int} {m : Moment} : m ∈ s.candidatesFrom q n ↔
    m = s.momentOn m.date ∧ s.Qualifies m.date ∧ n ≤ s.freq.periodNumber m.date ∧
      s.admits q m = true := by
  simp only [candidatesFrom, List.mem_filter, List.mem_map, Date.mem_calendar, true_and,
    decide_eq_true_eq]
  constructor
  · rintro ⟨⟨d, ⟨hd, hn⟩, rfl⟩, hm⟩
    exact ⟨rfl, hd, hn, hm⟩
  · rintro ⟨on, hd, hn, hm⟩
    exact ⟨⟨m.date, ⟨hd, hn⟩, on.symm⟩, hm⟩

/-- The candidates of a visited period are the anchor's time of day on its qualifying dates. -/
theorem candidates_eq_ok {start : Date} {found : List Moment} (h : s.candidates start = .ok found)
    (hs : s.freq.periodStart start = start) (hv : s.Visits (s.freq.periodNumber start)) :
    found = (Date.calendar.filter fun d =>
      s.Qualifies d ∧ s.freq.periodNumber d = s.freq.periodNumber start).map s.momentOn := by
  obtain ⟨days, hdays, rfl⟩ := Except.map_eq_ok.1 h
  congr 1
  -- Both lists ascend, so they are equal if they have the same dates
  refine List.Pairwise.eq_of_mem_iff (r := (· < ·)) (Expansion.pairwise_days hdays)
    (Date.pairwise_calendar.filter _) fun d => ?_
  have mem := Expansion.mem_days hdays hs (d := d)
  simp only [List.mem_filter, Date.mem_calendar, true_and, decide_eq_true_eq]
  constructor
  · intro hd
    obtain ⟨same, sel⟩ := mem.1 hd
    exact ⟨⟨same ▸ hv, sel⟩, same⟩
  · rintro ⟨⟨-, sel⟩, same⟩
    exact mem.2 ⟨same, sel⟩

/-- A candidate of a period is the moment of a selected date in it. -/
theorem mem_candidates {start : Date} {found : List Moment} (h : s.candidates start = .ok found)
    (hs : s.freq.periodStart start = start) {m : Moment} (hm : m ∈ found) :
    m = s.momentOn m.date ∧ s.freq.periodStart m.date = start ∧ s.expansion.Selects m.date := by
  obtain ⟨days, hdays, rfl⟩ := Except.map_eq_ok.1 h
  obtain ⟨d, hd, rfl⟩ := List.mem_map.1 hm
  obtain ⟨same, sel⟩ := (Expansion.mem_days hdays hs).1 hd
  exact ⟨rfl, (Frequency.periodStart_congr same).trans hs, sel⟩

/-- The candidates of a period ascend. -/
theorem pairwise_candidates {start : Date} {found : List Moment}
    (h : s.candidates start = .ok found) :
    found.Pairwise fun a b => a.isBefore b = true := by
  obtain ⟨days, hdays, rfl⟩ := Except.map_eq_ok.1 h
  exact (Expansion.pairwise_days hdays).map _ fun _ _ hlt => isBefore_momentOn.2 hlt

/-- The candidates from a visited period on are its own, and those from the next one on. -/
theorem candidatesFrom_eq {start : Date} {found : List Moment}
    (h : s.candidates start = .ok found) (hs : s.freq.periodStart start = start)
    (hv : s.Visits (s.freq.periodNumber start)) :
    s.candidatesFrom q (s.freq.periodNumber start) = found.filter (s.admits q) ++
      s.candidatesFrom q (s.freq.periodNumber start + s.fields.step.val) := by
  have pos := s.step_pos
  -- The dates of this period come before those of the later ones
  have split := List.filter_or_of_pairwise Date.pairwise_calendar
    (p := fun d => decide (s.Qualifies d ∧ s.freq.periodNumber d = s.freq.periodNumber start))
    (q := fun d => decide
      (s.Qualifies d ∧ s.freq.periodNumber start + s.fields.step.val ≤ s.freq.periodNumber d))
    fun a b ha hb => by
      have ha := (of_decide_eq_true ha).2
      have hb := (of_decide_eq_true hb).2
      have : s.freq.periodNumber a < s.freq.periodNumber b := by omega
      exact Frequency.lt_of_periodNumber_lt this
  -- A date that qualifies lies in this period, or in one from the next step on
  have same : (fun d => decide (s.Qualifies d ∧
      s.freq.periodNumber start ≤ s.freq.periodNumber d)) = fun d =>
      decide (s.Qualifies d ∧ s.freq.periodNumber d = s.freq.periodNumber start) ||
        decide (s.Qualifies d ∧
          s.freq.periodNumber start + s.fields.step.val ≤ s.freq.periodNumber d) := by
    funext d
    rw [← Bool.decide_or, decide_eq_decide]
    constructor
    · rintro ⟨hd, le⟩
      rcases hv.eq_or_next_le hd.1 le with eq | next
      · exact Or.inl ⟨hd, eq⟩
      · exact Or.inr ⟨hd, next⟩
    · rintro (⟨hd, eq⟩ | ⟨hd, next⟩)
      · exact ⟨hd, by omega⟩
      · exact ⟨hd, by omega⟩
  rw [candidatesFrom, same, split, candidates_eq_ok h hs hv, List.map_append, List.filter_append]
  rfl

end Series

end Recurrence
