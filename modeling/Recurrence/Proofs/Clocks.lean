import Recurrence.Moment.Basic
import Recurrence.Proofs.Shifts

/-!
# Orderly clocks

The clocks of a place are orderly if its shifts keep apart and those of its yearly rule stay inside
their years. On orderly clocks the reading that is shown at an instant leads back to that instant,
though the two are looked up in shifts of different years around the turn of a year.

* `History.IsOrderly`, `Zone.IsOrderly`: orderly clocks.
* `History.offsetAt_eq`, `History.offsetOn_eq`: offsets by one list of shifts for all years.
* `Moment.instant_ofInstant`: the moment at an instant has that instant.
* `Moment.instant_order`: readings and their instants have the same order, but for readings that an
  offset change repeats or skips.
-/

namespace Recurrence

open Shift (latest offsetAfter isSecond Cut Tidy)

/-! ## Years -/

namespace History

/-- Later years begin later. -/
theorem yearStart_mono {a b : Nat} (h : a ≤ b) : yearStart a ≤ yearStart b := by
  have := daysBeforeYear_mono h
  unfold yearStart
  omega

/-- No second lies before the first year. -/
theorem yearOfSeconds_pos (seconds : Int) : 1 ≤ yearOfSeconds seconds :=
  (yearOf_bounds _).1

/-- A second lies in its year. What comes before the calendar is counted to its first year. -/
theorem yearOfSeconds_bounds (seconds : Int) :
    (yearOfSeconds seconds = 1 ∨ yearStart (yearOfSeconds seconds) ≤ seconds) ∧
      seconds < yearStart (yearOfSeconds seconds + 1) := by
  obtain ⟨-, lo, hi⟩ := yearOf_bounds (seconds / 86400 + 719162).toNat
  unfold yearStart yearOfSeconds
  by_cases before : seconds / 86400 + 719162 < 0
  · rw [Int.toNat_of_nonpos (by omega)] at hi ⊢
    exact ⟨.inl rfl, by omega⟩
  · exact ⟨.inr (by omega), by omega⟩

end History

/-- Whether a shift lies in a year, by its instant and by all readings that it touches. -/
def Shift.LiesIn (s : Shift) (year : Nat) : Prop :=
  (History.yearStart year ≤ s.wallStart true ∧
    s.wallStart false < History.yearStart (year + 1)) ∧
      History.yearStart year ≤ s.instant ∧ s.instant < History.yearStart (year + 1)

namespace History

variable {h : History}

/-- Without a rule all shifts are on record. -/
theorem shiftsIn_none (hrule : h.rule = none) (years : List Nat) :
    h.shiftsIn years = h.recorded := by
  unfold shiftsIn
  rw [hrule]

/-- With a rule its new shifts are added to those on record. -/
theorem shiftsIn_some {rule : YearlyRule} (hrule : h.rule = some rule) (years : List Nat) :
    h.shiftsIn years = h.recorded ++ (years.flatMap rule.shifts).filter h.isNew := by
  unfold shiftsIn
  rw [hrule]
  rfl

/-- A shift after a new one is new. -/
theorem isNew_of_le {a b : Shift} (ha : h.isNew a = true) (le : a.instant ≤ b.instant) :
    h.isNew b = true := by
  unfold isNew at *
  split
  · rfl
  · rename_i known hknown
    rw [hknown] at ha
    have := of_decide_eq_true ha
    exact decide_eq_true (by omega)

/-! ## Orderly histories -/

/-- Whether the shifts of a history keep apart, year after year, and those of its rule lie in their
years. The years of the rule are counted from one. -/
structure IsOrderly (h : History) : Prop where
  tidy : ∀ years, Tidy h.initial (h.shiftsIn (List.range years))
  within : ∀ rule ∈ h.rule, ∀ year, 1 ≤ year → ∀ s ∈ rule.shifts year, s.LiesIn year
  no_year_zero : ∀ rule ∈ h.rule, ∀ s ∈ rule.shifts 0, h.isNew s = false

/-- A yearly rule has shifts in every year. -/
theorem shifts_ne_nil (rule : YearlyRule) (year : Nat) : rule.shifts year ≠ [] := by
  unfold YearlyRule.shifts
  simp only
  split <;> simp

/-- The years before two years, the two years and some years after them. -/
theorem range_eq_append (year count : Nat) : List.range (year + 2 + count) =
    List.range year ++ ([year, year + 1] ++ List.range' (year + 2) count) := by
  rw [List.range_eq_range', List.range_eq_range', Nat.add_assoc, ← List.range'_append_1,
    ← List.range'_append_1, Nat.zero_add]
  rfl

/-- The new shifts of a rule in some years that have come. -/
def newShifts (h : History) (rule : YearlyRule) (key : Shift → Int) (x : Int)
    (years : List Nat) : List Shift :=
  ((years.flatMap rule.shifts).filter h.isNew).filter fun s => key s ≤ x

/-- The new shifts that have come are shifts of the rule after the record. -/
theorem mem_newShifts {rule : YearlyRule} {key : Shift → Int} {x : Int} {years : List Nat}
    {s : Shift} : s ∈ h.newShifts rule key x years ↔
      (∃ year ∈ years, s ∈ rule.shifts year) ∧ h.isNew s = true ∧ key s ≤ x := by
  simp only [newShifts, List.mem_filter, List.mem_flatMap, decide_eq_true_eq, and_assoc]

/-- The new shifts of two stretches of years are those of both together. -/
theorem newShifts_append {rule : YearlyRule} {key : Shift → Int} {x : Int}
    (years later : List Nat) : h.newShifts rule key x (years ++ later) =
      h.newShifts rule key x years ++ h.newShifts rule key x later := by
  simp only [newShifts, List.flatMap_append, List.filter_append]

section Near

variable {rule : YearlyRule} {key : Shift → Int} {x : Int} {year : Nat}

/-- Shifts of later years have not come. -/
theorem newShifts_later (orderly : h.IsOrderly) (hrule : h.rule = some rule)
    (hkey : ∀ {s : Shift} {year}, s.LiesIn year →
      yearStart year ≤ key s ∧ key s < yearStart (year + 1))
    (pos : 1 ≤ year) (hi : x < yearStart year) (count : Nat) :
    h.newShifts rule key x (List.range' year count) = [] := by
  refine List.eq_nil_iff_forall_not_mem.2 fun s hs => ?_
  obtain ⟨⟨later, hlater, hs⟩, -, come⟩ := mem_newShifts.1 hs
  have le := (List.mem_range'_1.1 hlater).1
  have := (hkey (orderly.within rule hrule later (by omega) s hs)).1
  have := yearStart_mono le
  omega

/-- If a shift of an earlier year is new, then so is each shift of a year that has passed. -/
theorem newShifts_passed (orderly : h.IsOrderly) (hrule : h.rule = some rule)
    (hkey : ∀ {s : Shift} {year}, s.LiesIn year →
      yearStart year ≤ key s ∧ key s < yearStart (year + 1))
    (lo : yearStart (year + 1) ≤ x) {e : Shift}
    (he : e ∈ h.newShifts rule key x (List.range year)) :
    h.newShifts rule key x [year, year + 1] ≠ [] := by
  obtain ⟨⟨before, hbefore, he⟩, fresh, -⟩ := mem_newShifts.1 he
  have lt := List.mem_range.1 hbefore
  have pos : 1 ≤ before := by
    apply Nat.pos_of_ne_zero
    intro zero
    rw [zero] at he
    rw [orderly.no_year_zero rule hrule e he] at fresh
    injection fresh
  obtain ⟨s, rest, hs⟩ := List.exists_cons_of_ne_nil (shifts_ne_nil rule year)
  have hs : s ∈ rule.shifts year := by simp [hs]
  have inside := orderly.within rule hrule year (by omega) s hs
  -- The earlier shift lies in its own year, so before this one
  have past := (orderly.within rule hrule before pos e he).2.2
  have := yearStart_mono (show before + 1 ≤ year from lt)
  have come := (hkey inside).2
  have fresh' := isNew_of_le fresh (b := s) (by have := inside.2.1; omega)
  exact List.ne_nil_of_mem (mem_newShifts.2 ⟨⟨year, by simp, hs⟩, fresh', by omega⟩)

end Near

/-- The shifts that can matter in a year tell the last shift that has come as well as all shifts of
all years do. Before the calendar begins, those of its first year do. -/
theorem latest_shiftsNear (orderly : h.IsOrderly) {key : Shift → Int}
    (hkey : ∀ {s : Shift} {year}, s.LiesIn year →
      yearStart year ≤ key s ∧ key s < yearStart (year + 1))
    {x : Int} {year years : Nat} (pos : 1 ≤ year)
    (lo : year = 1 ∨ yearStart year ≤ x) (hi : x < yearStart (year + 1)) (hyears : year < years) :
    latest key x (h.shiftsNear year) = latest key x (h.shiftsIn (List.range years)) := by
  unfold shiftsNear
  cases hrule : h.rule with
  | none => rw [shiftsIn_none hrule, shiftsIn_none hrule]
  | some rule =>
    obtain ⟨y, rfl⟩ := Nat.exists_eq_add_of_le' pos
    obtain ⟨count, rfl⟩ := Nat.exists_eq_add_of_lt hyears
    have enough : y + 1 + count + 1 = y + 2 + count := by omega
    rw [shiftsIn_some hrule, shiftsIn_some hrule, enough, range_eq_append, Nat.add_sub_cancel]
    unfold latest
    rw [List.filter_append, List.filter_append]
    show (_ ++ h.newShifts rule key x [y, y + 1]).getLast? =
      (_ ++ h.newShifts rule key x (_ ++ (_ ++ _))).getLast?
    rw [newShifts_append, newShifts_append,
      newShifts_later orderly hrule hkey (by omega) (show x < yearStart (y + 2) from hi),
      List.append_nil]
    -- What has come of the two years is looked up last
    by_cases near : h.newShifts rule key x [y, y + 1] = []
    · -- If no shift of the two years has come, none of an earlier year is new
      have early : h.newShifts rule key x (List.range y) = [] := by
        rcases lo with first | lo
        · rw [show y = 0 by omega]
          rfl
        · exact List.eq_nil_iff_forall_not_mem.2 fun e he =>
            newShifts_passed orderly hrule hkey lo he near
      rw [near, early]
      rfl
    · rw [List.getLast?_append_of_ne_nil _ near, List.getLast?_append_of_ne_nil,
        List.getLast?_append_of_ne_nil _ near]
      exact List.append_ne_nil_of_right_ne_nil _ near

/-! ## Offsets -/

/-- The instant of a shift lies in its year. -/
theorem instant_bounds {s : Shift} {year : Nat} (hs : s.LiesIn year) :
    yearStart year ≤ s.instant ∧ s.instant < yearStart (year + 1) :=
  hs.2

/-- The readings that a shift touches lie in its year. -/
theorem wallStart_bounds (second : Bool) {s : Shift} {year : Nat} (hs : s.LiesIn year) :
    yearStart year ≤ s.wallStart second ∧ s.wallStart second < yearStart (year + 1) := by
  have := s.wallStart_true_le
  obtain ⟨⟨lo, hi⟩, -⟩ := hs
  cases second
  · exact ⟨by omega, hi⟩
  · exact ⟨lo, by omega⟩

variable {past coming : List Shift} {years : Nat}

/-- The offset in force at an instant, by the shifts of all years. -/
theorem offsetAt_eq (orderly : h.IsOrderly) {t : Int} (hyears : yearOfSeconds t < years)
    (hall : h.shiftsIn (List.range years) = past ++ coming)
    (cut : Cut (·.instant) t past coming) :
    h.offsetAt t = (offsetAfter h.initial past, isSecond past t) := by
  obtain ⟨lo, hi⟩ := yearOfSeconds_bounds t
  have found : latest (·.instant) t (h.shiftsNear (yearOfSeconds t)) = past.getLast? := by
    rw [latest_shiftsNear orderly instant_bounds (yearOfSeconds_pos t) lo hi hyears, hall,
      cut.latest_eq]
  unfold latest at found
  unfold offsetAt isSecond offsetAfter
  simp only [found]
  cases past.getLast? <;> rfl

/-- The offset that belongs to a reading, by the shifts of all years. -/
theorem offsetOn_eq (orderly : h.IsOrderly) {wall : Int} {second : Bool}
    (hyears : yearOfSeconds wall < years) (hall : h.shiftsIn (List.range years) = past ++ coming)
    (cut : Cut (·.wallStart second) wall past coming) :
    h.offsetOn wall second = offsetAfter h.initial past := by
  obtain ⟨lo, hi⟩ := yearOfSeconds_bounds wall
  have found : latest (·.wallStart second) wall (h.shiftsNear (yearOfSeconds wall)) =
      past.getLast? := by
    rw [latest_shiftsNear orderly (wallStart_bounds second) (yearOfSeconds_pos wall) lo hi hyears,
      hall, cut.latest_eq]
  unfold latest at found
  unfold offsetOn offsetAfter
  simp only [found]
  cases past.getLast? <;> rfl

/-- The reading of an instant has the offset that is in force at the instant. -/
theorem offsetOn_offsetAt (orderly : h.IsOrderly) (t : Int) :
    h.offsetOn (t + (h.offsetAt t).1) (h.offsetAt t).2 = (h.offsetAt t).1 := by
  let years := max (yearOfSeconds t) (yearOfSeconds (t + (h.offsetAt t).1)) + 1
  have tidy := orderly.tidy years
  obtain ⟨past, coming, hall, cut⟩ := tidy.exists_cut_instant t
  have before : yearOfSeconds t < years := by omega
  have before' : yearOfSeconds (t + (h.offsetAt t).1) < years := by omega
  rw [hall] at tidy
  have reading := cut.reading tidy
  have offset := offsetAt_eq orderly before hall cut
  rw [offset] at before' ⊢
  exact offsetOn_eq orderly before' hall reading

/-! ## Order -/

/-- The two passes over a reading that a shift touches have the offsets before and after it. -/
theorem offsetOn_touched (orderly : h.IsOrderly) {s : Shift} {wall : Int}
    (hyears : yearOfSeconds wall < years)
    (hall : h.shiftsIn (List.range years) = past ++ s :: coming)
    (begun : s.wallStart true ≤ wall) (going : wall < s.wallStart false) :
    h.offsetOn wall false = s.before ∧ h.offsetOn wall true = s.after := by
  have tidy := orderly.tidy years
  rw [hall] at tidy
  have regrouped : past ++ s :: coming = (past ++ [s]) ++ coming := by simp
  constructor
  · have first_pass := Shift.cut_first_pass tidy begun going
    rw [offsetOn_eq orderly hyears hall first_pass, tidy.before_eq]
  · have second_pass := Shift.cut_second_pass tidy begun going
    rw [offsetOn_eq orderly hyears (hall.trans regrouped) second_pass,
      Shift.offsetAfter_concat]

/-- If the passes over a reading agree on its offset, that offset is in force at its instant. -/
theorem offsetAt_offsetOn (orderly : h.IsOrderly) {wall : Int}
    (agree : h.offsetOn wall true = h.offsetOn wall false) :
    (h.offsetAt (wall - h.offsetOn wall false)).1 = h.offsetOn wall false := by
  let years := max (yearOfSeconds wall) (yearOfSeconds (wall - h.offsetOn wall false)) + 1
  have wall_years : yearOfSeconds wall < years := by omega
  have instant_years : yearOfSeconds (wall - h.offsetOn wall false) < years := by omega
  have tidy := orderly.tidy years
  obtain ⟨past, coming, hall, cut⟩ := tidy.exists_cut_wallStart false wall
  have offset := offsetOn_eq orderly wall_years hall cut
  -- The instant comes after the same shifts as the first pass over its reading
  have instant_cut : Cut (·.instant) (wall - h.offsetOn wall false) past coming := by
    rw [hall] at tidy
    refine Shift.cut_of_ends (tidy.pairwise.imp And.left) (fun s hs => ?_) fun s hs => ?_
    · have hs : past.getLast? = some s := hs
      have come := cut.past s (List.mem_of_getLast? hs)
      simp only [offset, offsetAfter, hs, Option.map_some, Option.getD_some]
      simp only [Shift.wallStart, Bool.false_eq_true, if_false] at come
      omega
    · obtain ⟨rest, rfl⟩ := List.head?_eq_some_iff.1 hs
      rcases cut.lt_instant with early | ⟨-, gap, begun, going⟩
      · rw [offset, ← tidy.before_eq]
        exact early
      · have touched := offsetOn_touched orderly wall_years hall begun going
        omega
  rw [offsetAt_eq orderly instant_years hall instant_cut]
  exact offset.symm

/-- A reading before one shift belongs to an earlier instant than a reading after that shift or a
later one, unless one of the two readings is skipped. -/
theorem reading_order_across (orderly : h.IsOrderly) {x y : Int}
    (x_years : yearOfSeconds x < years) (y_years : yearOfSeconds y < years)
    {first second : Bool} {s last : Shift} {past' coming' : List Shift}
    (hall : h.shiftsIn (List.range years) = past ++ s :: coming)
    (cut : Cut (·.wallStart first) x past (s :: coming))
    (hall' : h.shiftsIn (List.range years) = past' ++ last :: coming')
    (cut' : Cut (·.wallStart second) y (past' ++ [last]) coming')
    (order : s.instant ≤ last.instant) :
    x - h.offsetOn x first < y - h.offsetOn y second ∨
      (first = false ∧ h.offsetOn x false < h.offsetOn x true) ∨
        second = true ∧ h.offsetOn y false < h.offsetOn y true := by
  rcases cut.lt_instant with early | ⟨rfl, gap, begun, going⟩
  · rcases cut'.instant_le with late | ⟨rfl, gap, begun, going⟩
    · -- Neither reading is touched by a change, so their offsets are those around the two shifts
      left
      have tidy := orderly.tidy years
      have regrouped : past' ++ last :: coming' = (past' ++ [last]) ++ coming' := by simp
      rw [hall] at tidy
      rw [offsetOn_eq orderly x_years hall cut, ← tidy.before_eq,
        offsetOn_eq orderly y_years (hall'.trans regrouped) cut', Shift.offsetAfter_concat]
      omega
    · have touched := offsetOn_touched orderly y_years hall' begun going
      rw [touched.1, touched.2]
      exact .inr (.inr ⟨rfl, gap⟩)
  · have touched := offsetOn_touched orderly x_years hall begun going
    rw [touched.1, touched.2]
    exact .inr (.inl ⟨rfl, gap⟩)

/-- A reading belongs to no earlier instant than another one that is not later, with three
exceptions: both are repeated, and the earlier one is the second pass; the earlier one is skipped,
and the first pass; the later one is skipped, and the second pass. -/
theorem reading_order (orderly : h.IsOrderly) {x y : Int} (le : x ≤ y)
    (first second : Bool) :
    h.offsetOn x first = h.offsetOn y second ∨
      x - h.offsetOn x first < y - h.offsetOn y second ∨
        (first = true ∧ second = false ∧ h.offsetOn x true < h.offsetOn x false ∧
          h.offsetOn y true < h.offsetOn y false) ∨
        (first = false ∧ h.offsetOn x false < h.offsetOn x true) ∨
          second = true ∧ h.offsetOn y false < h.offsetOn y true := by
  let years := max (yearOfSeconds x) (yearOfSeconds y) + 1
  have x_years : yearOfSeconds x < years := by omega
  have y_years : yearOfSeconds y < years := by omega
  have tidy := orderly.tidy years
  obtain ⟨past, coming, hall, cut⟩ := tidy.exists_cut_wallStart first x
  obtain ⟨past', coming', hall', cut'⟩ := tidy.exists_cut_wallStart second y
  have x_offset := offsetOn_eq orderly x_years hall cut
  have y_offset := offsetOn_eq orderly y_years hall' cut'
  rcases List.append_eq_append_iff.1 (hall.symm.trans hall') with
    ⟨between, rfl, rfl⟩ | ⟨between, rfl, rfl⟩
  · cases between with
    | nil =>
      rw [List.append_nil] at y_offset
      exact .inl (x_offset.trans y_offset.symm)
    | cons s rest =>
      -- The later reading has come after more shifts
      obtain ⟨front, last, hlast⟩ :=
        (List.eq_nil_or_concat' (s :: rest)).resolve_left (List.cons_ne_nil _ _)
      have order : s.instant ≤ last.instant := by
        rw [hall] at tidy
        exact tidy.head_le (by simp [hlast])
      rw [hlast, ← List.append_assoc] at hall' cut'
      rw [List.append_assoc, List.singleton_append] at hall'
      have across := reading_order_across orderly x_years y_years hall cut hall' cut' order
      rcases across with lt | skips
      · exact .inr (.inl lt)
      · exact .inr (.inr (.inr skips))
  · cases between with
    | nil =>
      rw [List.append_nil] at x_offset
      exact .inl (x_offset.trans y_offset.symm)
    | cons s rest =>
      -- The earlier reading has come after more shifts, so one shift touches both
      have come := cut.past s (by simp)
      have wait := cut'.coming s (by simp)
      have ends := s.wallStart_true_le
      have passes : first = true ∧ second = false := by
        cases first <;> cases second <;> simp only [reduceCtorEq, and_self, and_true, and_false]
        all_goals omega
      obtain ⟨rfl, rfl⟩ := passes
      have x_touched := offsetOn_touched orderly x_years hall' come (by omega)
      have y_touched := offsetOn_touched orderly y_years hall' (by omega) wait
      rw [x_touched.1, x_touched.2, y_touched.1, y_touched.2]
      rcases Int.lt_trichotomy s.after s.before with back | same | on
      · exact .inr (.inr (.inl ⟨rfl, rfl, back, back⟩))
      · exact .inl same
      · exact .inr (.inl (by omega))

end History

/-! ## Zones -/

/-- Whether the clocks of a zone are orderly. A fixed offset always is. -/
def Zone.IsOrderly : Zone → Prop
  | .region r => r.history.IsOrderly
  | .fixed _ _ => True
  | .written _ => True

namespace Moment

variable {zone : Zone} {t : Int} {m : Moment}

/-- The first year begins with the calendar. -/
theorem yearStart_one : History.yearStart 1 = -Zone.unixStart := rfl

/-- The moment at an instant has that instant. -/
theorem instant_ofInstant (orderly : zone.IsOrderly) (h : ofInstant t zone = .ok m) :
    m.instant = t := by
  unfold ofInstant at h
  split at h
  · injection h
  · rename_i utc hutc
    have hutc := Reading.ofTicks?_eq_some.1 hutc
    simp only at h
    split at h
    · injection h
    · rename_i reading hreading
      have hreading := Reading.ofTicks?_eq_some.1 hreading
      injection h with h
      subst h
      unfold instant offset
      simp only
      cases zone with
      | fixed offset given =>
        simp only [Zone.offsetAt] at hreading
        simp only [Zone.offsetOn]
        omega
      | written offset =>
        simp only [Zone.offsetAt] at hreading
        simp only [Zone.offsetOn]
        omega
      | region r =>
        simp only [Zone.offsetAt] at hreading
        simp only [Zone.offsetOn, Zone.offsetAt]
        -- The clock shows the instant and the offset there, and the offset of that reading is read
        have wall : (reading.seconds : Int) - Zone.unixStart =
            (t / ticksPerSecond - Zone.unixStart) +
              (r.history.offsetAt (t / ticksPerSecond - Zone.unixStart)).1 := by
          unfold Reading.seconds
          unfold ticksPerSecond at *
          omega
        rw [wall, History.offsetOn_offsetAt orderly]
        omega

/-- A moment read on the clocks of another zone has the same instant. -/
theorem instant_inZone (orderly : zone.IsOrderly) {a : Moment} (h : a.inZone zone = .ok m) :
    m.instant = a.instant := by
  unfold inZone at h
  split at h
  · injection h with h
    rw [h]
  · exact instant_ofInstant orderly h

/-- Where the passes over a reading agree, its instant does not depend on the pass. -/
theorem instant_first_pass (h : m.second = true → m.isUncertain = false) :
    (⟨m.reading, m.zone, false⟩ : Moment).instant = m.instant := by
  obtain ⟨reading, zone, second⟩ := m
  cases second with
  | false => rfl
  | true =>
    have same := bne_eq_false_iff_eq.1 (h rfl)
    simp only [instant, offset]
    rw [same]

/-! ## Order -/

/-- Whether an offset change repeats the reading of a moment: the clock goes back. -/
def IsRepeated (m : Moment) : Prop :=
  m.zone.offsetOn m.reading true < m.zone.offsetOn m.reading false

/-- Whether an offset change skips the reading of a moment: the clock goes forward. -/
def IsSkipped (m : Moment) : Prop :=
  m.zone.offsetOn m.reading false < m.zone.offsetOn m.reading true

/-- Whether an offset change can stand between two readings so that the earlier one does not belong
to the earlier instant: it repeats both, the earlier one in the second pass and the later one in the
first; or it skips the earlier one, in the first pass, or the later one, in the second. -/
def TurnsBefore (a b : Moment) : Prop :=
  (a.second = true ∧ b.second = false ∧ a.IsRepeated ∧ b.IsRepeated) ∨
    (a.second = false ∧ a.IsSkipped) ∨ (b.second = true ∧ b.IsSkipped)

instance (a b : Moment) : Decidable (a.TurnsBefore b) :=
  inferInstanceAs (Decidable ((_ ∧ _ ∧ _ < _ ∧ _ < _) ∨ (_ ∧ _ < _) ∨ (_ ∧ _ < _)))

/-- On orderly clocks readings and their instants have the same order, unless an offset change
stands between them. -/
theorem instant_order {a b : Moment} (orderly : b.zone.IsOrderly) (same : a.zone = b.zone)
    (le : a.reading.ticks ≤ b.reading.ticks) :
    a.offset = b.offset ∨ a.instant < b.instant ∨ a.TurnsBefore b := by
  obtain ⟨x, zone, first⟩ := a
  obtain ⟨y, zone', second⟩ := b
  have same : zone = zone' := same
  subst same
  -- Only the clocks of a region change their offset
  cases zone with
  | fixed offset given => exact .inl rfl
  | written offset => exact .inl rfl
  | region r =>
    have seconds : (x.seconds : Int) - Zone.unixStart ≤ (y.seconds : Int) - Zone.unixStart := by
      have : x.seconds ≤ y.seconds := Nat.div_le_div_right le
      omega
    simp only [offset, instant, TurnsBefore, IsRepeated, IsSkipped, Zone.offsetOn] at le ⊢
    -- The order of whole seconds leaves open what the microseconds add to it
    rcases History.reading_order orderly seconds first second with
      equal | lt | ⟨rfl, rfl, back, back'⟩ | ⟨rfl, gap⟩ | ⟨rfl, gap⟩
    · rw [equal]
      exact .inl rfl
    · right; left
      unfold Reading.seconds ticksPerSecond at *
      omega
    · right; right; left
      unfold ticksPerSecond
      exact ⟨rfl, rfl, by omega, by omega⟩
    · right; right; right; left
      unfold ticksPerSecond
      exact ⟨rfl, by omega⟩
    · right; right; right; right
      unfold ticksPerSecond
      exact ⟨rfl, by omega⟩

/-- Of two readings the later one comes at a later instant, unless an offset change stands between
them. -/
theorem instant_lt_of_ticks_lt {a b : Moment} (orderly : b.zone.IsOrderly) (same : a.zone = b.zone)
    (lt : a.reading.ticks < b.reading.ticks) : a.instant < b.instant ∨ a.TurnsBefore b := by
  rcases instant_order orderly same (Nat.le_of_lt lt) with equal | later
  · left
    unfold instant
    omega
  · exact later

/-- A reading that is no earlier comes at no earlier instant, unless an offset change stands between
them. -/
theorem instant_le_of_ticks_le {a b : Moment} (orderly : b.zone.IsOrderly) (same : a.zone = b.zone)
    (le : a.reading.ticks ≤ b.reading.ticks) : a.instant ≤ b.instant ∨ a.TurnsBefore b := by
  rcases instant_order orderly same le with equal | lt | turns
  · left
    unfold instant
    omega
  · exact .inl (Int.le_of_lt lt)
  · exact .inr turns

end Moment

end Recurrence
