import Recurrence.Proofs.Clocks
import Recurrence.Zone.Choice

/-!
# Regions with orderly clocks

A yearly rule depends on a year only through its length and the weekday on which it begins, so
fourteen kinds of year tell how its shifts follow one another. A history is orderly if its rule
keeps apart the shifts of any two such years and carries on its record.

* `YearlyRule.IsRegular`, `YearlyRule.isChain_years`: rules whose shifts keep apart year after year.
* `History.isOrderly_of_settles`: histories that go over into such a rule.
* `Region.isOrderly_all`: the clocks of the regions that are listed are orderly.
-/

namespace Recurrence

open Shift (Tidy Precedes)
open History (yearStart)

/-! ## Years of one kind -/

namespace Shift

/-- A delayed shift begins with the same offset. -/
@[simp] theorem delay_before (seconds : Int) (s : Shift) : (s.delay seconds).before = s.before :=
  rfl

/-- A delayed shift leads to the same offset. -/
@[simp] theorem delay_after (seconds : Int) (s : Shift) : (s.delay seconds).after = s.after := rfl

/-- Its instant is later. -/
@[simp] theorem delay_instant (seconds : Int) (s : Shift) :
    (s.delay seconds).instant = s.instant + seconds := rfl

/-- The readings that it touches are later by as much. -/
@[simp] theorem delay_wallStart (seconds : Int) (s : Shift) (second : Bool) :
    (s.delay seconds).wallStart second = s.wallStart second + seconds := by
  simp only [wallStart, delay_before, delay_after, delay_instant]
  omega

/-- Shifts that are delayed alike follow one another as before. -/
theorem delay_precedes_iff {seconds : Int} {a b : Shift} :
    (a.delay seconds).Precedes (b.delay seconds) ↔ a.Precedes b := by
  simp only [Precedes, delay_before, delay_after, delay_wallStart]
  omega

/-- Delays add up. -/
theorem delay_delay (x y : Int) (s : Shift) : (s.delay x).delay y = s.delay (x + y) := by
  simp only [delay, Int.add_assoc]

end Shift

namespace ChangeDay

/-- The day of a change depends on the year only through its length, its first weekday and its
start. -/
theorem wallSeconds_eq (c : ChangeDay) (year : Nat) :
    c.wallSeconds year =
      c.yearSeconds (isLeapYear year) (daysBeforeYear year % 7) + yearStart year := by
  unfold wallSeconds yearSeconds yearStart
  simp only [Nat.add_assoc, Nat.mod_add_mod]
  omega

end ChangeDay

namespace YearlyRule

variable {rule : YearlyRule}

/-- So do the shifts of a rule. -/
theorem shifts_eq (rule : YearlyRule) (year : Nat) :
    rule.shifts year =
      (rule.yearShifts (isLeapYear year) (daysBeforeYear year % 7)).map
        (Shift.delay (yearStart year)) := by
  unfold shifts yearShifts
  simp only [ChangeDay.wallSeconds_eq]
  have move (x y : Int) : x + yearStart year - y = x - y + yearStart year := by omega
  split <;> rename_i order
  · rw [if_pos (by omega)]
    simp only [List.map_cons, List.map_nil, Shift.delay, move]
  · rw [if_neg (by omega)]
    simp only [List.map_cons, List.map_nil, Shift.delay, move]

/-- The weekday on which a year begins. -/
def weekdayOf (year : Nat) : Fin 7 := ⟨daysBeforeYear year % 7, Nat.mod_lt _ (by decide)⟩

/-- A year is as long as its days. -/
theorem yearStart_succ {year : Nat} (pos : 1 ≤ year) :
    yearStart (year + 1) = yearLength (isLeapYear year) * 86400 + yearStart year := by
  unfold yearStart
  rw [daysBeforeYear_succ year pos]
  push_cast
  omega

/-- The shifts of a regular rule lie in their years. -/
theorem IsRegular.liesIn (regular : rule.IsRegular) {year : Nat} (pos : 1 ≤ year) {s : Shift}
    (hs : s ∈ rule.shifts year) : s.LiesIn year := by
  rw [shifts_eq] at hs
  obtain ⟨r, hr, rfl⟩ := List.mem_map.1 hs
  obtain ⟨⟨wall_lo, wall_hi⟩, lo, hi⟩ := regular.within (isLeapYear year) (weekdayOf year) r hr
  have length : 365 * 86400 + yearStart year ≤ yearStart (year + 1) := by
    rw [yearStart_succ pos]
    unfold yearLength
    split <;> omega
  simp only [Shift.LiesIn, Shift.delay_wallStart, Shift.delay_instant]
  omega

/-- The shifts of two years in a row keep apart. -/
theorem IsRegular.isChain_pair (regular : rule.IsRegular) {year : Nat} (pos : 1 ≤ year) :
    (rule.shifts year ++ rule.shifts (year + 1)).IsChain Precedes := by
  have linked := regular.linked (isLeapYear year) (isLeapYear (year + 1)) (weekdayOf year)
  have weekday : daysBeforeYear (year + 1) % 7 =
      ((weekdayOf year : Nat) + yearLength (isLeapYear year)) % 7 := by
    rw [daysBeforeYear_succ year pos, weekdayOf, Nat.mod_add_mod]
  have later : Shift.delay (yearStart (year + 1)) =
      Shift.delay (yearStart year) ∘ Shift.delay (yearLength (isLeapYear year) * 86400) := by
    funext s
    rw [Function.comp, Shift.delay_delay, yearStart_succ pos]
  rw [shifts_eq, shifts_eq, weekday, later, ← List.map_map, ← List.map_append, List.isChain_map]
  exact (Shift.linked_iff.1 linked).imp fun _ _ precedes => Shift.delay_precedes_iff.2 precedes

/-- The shifts of any number of years in a row keep apart. -/
theorem IsRegular.isChain_years (regular : rule.IsRegular) {year : Nat} (pos : 1 ≤ year)
    (count : Nat) : ((List.range' year (count + 1)).flatMap rule.shifts).IsChain Precedes := by
  induction count generalizing year with
  | zero =>
    have pair := regular.isChain_pair pos
    simpa using (List.isChain_append.1 pair).1
  | succ count ih =>
    have rest := ih (Nat.succ_pos year)
    rw [List.range'_succ, List.flatMap_cons]
    rw [List.range'_succ, List.flatMap_cons] at rest ⊢
    have overlap := (regular.isChain_pair pos).append_overlap rest (History.shifts_ne_nil _ _)
    rwa [List.append_assoc] at overlap

end YearlyRule

/-! ## Histories -/

namespace Shift

variable {initial : Int} {front back : List Shift}

/-- The beginning of a tidy list is tidy. -/
theorem Tidy.of_append (h : Tidy initial (front ++ back)) : Tidy initial front := by
  refine ⟨(List.isChain_append.1 h.linked).1, fun s hs => h.first s ?_⟩
  rw [List.head?_append]
  simp only [Option.mem_def] at hs ⊢
  rw [hs]
  rfl

end Shift

namespace History

variable {history h : History}

/-- Without a rule it is enough that the record is tidy. -/
theorem isOrderly_of_record (hrule : h.rule = none) (tidy : Tidy h.initial h.recorded) :
    h.IsOrderly where
  tidy years := by rwa [shiftsIn_none hrule]
  within rule mem := by rw [hrule] at mem; injection mem
  no_year_zero rule mem := by rw [hrule] at mem; injection mem

variable {rule : YearlyRule} {year : Nat}

/-- The shifts that are new are those after the last one on record, which lies in the year of
transition. -/
theorem Settles.isNew_iff (settles : h.Settles rule year) :
    ∃ known : Int, yearStart year ≤ known ∧ known < yearStart (year + 1) ∧
      ∀ s, h.isNew s = true ↔ known < s.instant := by
  obtain ⟨known, mem, lo, hi⟩ := settles.known
  refine ⟨known.instant, lo, hi, fun s => ?_⟩
  unfold isNew
  rw [mem]
  exact decide_eq_true_iff

/-- From the year after the record on all shifts of the rule are new, and before its last year
none is. -/
theorem Settles.filter_isNew (settles : h.Settles rule year) (count : Nat) :
    ((List.range (year + 2 + count)).flatMap rule.shifts).filter h.isNew =
      (rule.shifts year).filter h.isNew ++
        (List.range' (year + 1) (count + 1)).flatMap rule.shifts := by
  obtain ⟨known, lo, hi, hnew⟩ := settles.isNew_iff
  -- Before the year of transition the record tells everything, the year zero included
  have early : ((List.range year).flatMap rule.shifts).filter h.isNew = [] := by
    refine List.filter_eq_nil_iff.2 fun s hs fresh => ?_
    obtain ⟨before, hbefore, hs⟩ := List.mem_flatMap.1 hs
    have lt := List.mem_range.1 hbefore
    cases before with
    | zero =>
      rw [settles.no_year_zero s hs] at fresh
      injection fresh
    | succ before =>
      have inside : s.instant < yearStart (before + 2) :=
        (settles.regular.liesIn (Nat.succ_pos before) hs).2.2
      have := yearStart_mono (show before + 2 ≤ year from lt)
      have := (hnew s).1 fresh
      omega
  -- After it the record has ended
  have late : ((List.range' (year + 1) (count + 1)).flatMap rule.shifts).filter h.isNew =
      (List.range' (year + 1) (count + 1)).flatMap rule.shifts := by
    refine List.filter_eq_self.2 fun s hs => ?_
    obtain ⟨later, hlater, hs⟩ := List.mem_flatMap.1 hs
    have le := (List.mem_range'_1.1 hlater).1
    have inside := (settles.regular.liesIn (by omega) hs).2.1
    have := yearStart_mono le
    exact (hnew s).2 (by omega)
  have years : List.range (year + 2 + count) =
      List.range year ++ year :: List.range' (year + 1) (count + 1) := by
    rw [range_eq_append, List.range'_succ]
    rfl
  rw [years, List.flatMap_append, List.flatMap_cons, List.filter_append, List.filter_append, early,
    late, List.nil_append]

/-- A history that goes over into a regular rule is orderly. -/
theorem isOrderly_of_settles (year : Nat) (hrule : h.rule = some rule)
    (settles : h.Settles rule year) : h.IsOrderly where
  tidy years := by
    have tidy := Shift.linkedFrom_iff.1 settles.linked
    have all : Tidy h.initial (h.shiftsIn (List.range (year + 2 + years))) := by
      rw [shiftsIn_some hrule, settles.filter_isNew, ← List.append_assoc]
      have years_chain := settles.regular.isChain_years (Nat.succ_pos year) years
      rw [List.range'_succ, List.flatMap_cons] at years_chain ⊢
      -- The record with two years of the rule and the years of the rule overlap in one year
      have overlap := tidy.linked.append_overlap years_chain (shifts_ne_nil _ _)
      rw [← List.append_assoc]
      refine ⟨overlap, fun s hs => tidy.first s ?_⟩
      rwa [List.head?_append_of_ne_nil] at hs
      exact List.append_ne_nil_of_right_ne_nil _ (shifts_ne_nil _ _)
    -- So many years from zero on end with any number of years that was asked for
    have split : List.range (year + 2 + years) =
        List.range years ++ List.range' years (year + 2) := by
      rw [List.range_eq_range', List.range_eq_range', Nat.add_comm, ← List.range'_append_1,
        Nat.zero_add]
    rw [split, shiftsIn_some hrule, List.flatMap_append, List.filter_append,
      ← List.append_assoc] at all
    rw [shiftsIn_some hrule]
    exact all.of_append
  within r mem year pos s hs := by
    rw [hrule] at mem
    injection mem with same
    subst same
    exact settles.regular.liesIn pos hs
  no_year_zero r mem := by
    rw [hrule] at mem
    injection mem with same
    subst same
    exact settles.no_year_zero

/-- A history whose shifts keep apart, on record and by rule, is orderly. -/
theorem IsSettled.isOrderly (h : history.IsSettled) : history.IsOrderly := by
  rcases h with ⟨hrule, linked⟩ | ⟨rule, hrule, known, -, settles⟩
  · exact isOrderly_of_record hrule (Shift.linkedFrom_iff.1 linked)
  · exact isOrderly_of_settles _ hrule settles

end History

/-! ## Zones that are chosen -/

/-- The clocks of all regions that a database knows are orderly. -/
theorem ZoneDatabase.isOrderly [ZoneDatabase] {r : Region} (known : r ∈ regions) :
    (Zone.region r).IsOrderly :=
  (ZoneDatabase.settled r known).isOrderly

/-- The clocks of the listed regions are orderly. -/
theorem Region.isOrderly_all : ∀ r ∈ all, (Zone.region r).IsOrderly := fun _ known =>
  ZoneDatabase.isOrderly known

/-- The clocks of a zone that is chosen by its name, or by leaving the choice out, are orderly. Only
a zone that is given as it is may have other ones. -/
theorem ZoneChoice.isOrderly_of_resolve [ZoneDatabase] {choice : ZoneChoice} {zone : Zone}
    (h : choice.resolve = .ok zone) (given : ∀ zone, choice = .given zone → zone.IsOrderly) :
    zone.IsOrderly := by
  -- A name is looked up among the regions of the database
  cases choice with
  | default =>
    injection h with h
    exact h ▸ Region.isOrderly_all .utc (by simp [Region.all])
  | named name =>
    unfold resolve Zone.ofName? at h
    simp only at h
    cases known : ZoneDatabase.regions.find? fun r => r.name == name with
    | none =>
      rw [known] at h
      injection h
    | some region =>
      rw [known] at h
      injection h with h
      exact h ▸ ZoneDatabase.isOrderly (List.mem_of_find?_eq_some known)
  | given zone' =>
    injection h with h
    exact h ▸ given zone' rfl

end Recurrence
