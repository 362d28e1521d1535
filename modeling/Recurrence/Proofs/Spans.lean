import Recurrence.Proofs.Lists
import Recurrence.Series.Expansion

/-!
# Weekdays of a span

What the entries of a rule select inside a span of dates, told by counting: the `n`-th Sunday of a
span is the Sunday of the span with exactly `n` Sundays up to it.

* `Date.span`: the dates from one to another.
* `DayEntry.SelectsIn`: whether an entry selects a date of a span.
* `DayEntry.mem_datesOfAll`: the dates that entries select are the ones that some entry selects.
* `Date.mem_ascending`, `Date.pairwise_ascending`: sorting dates keeps them and orders them.
-/

namespace Recurrence

namespace Date

/-! ## Order -/

instance : Std.Irrefl (fun a b : Date => a < b) := ⟨fun _ => Nat.lt_irrefl _⟩

instance : Std.Antisymm (fun a b : Date => a < b) :=
  ⟨fun _ _ h h' => absurd h (Nat.lt_asymm h')⟩

/-- A date up to another one is that date or an earlier one. -/
theorem eq_or_lt_iff_le {a b : Date} : a = b ∨ a < b ↔ a ≤ b := by
  simp only [lt_iff, le_iff]
  constructor
  · rintro (rfl | h)
    · exact Nat.le_refl _
    · exact Nat.le_of_lt h
  · intro h
    rcases Nat.eq_or_lt_of_le h with h | h
    · exact Or.inl (dayNumber_inj h)
    · exact Or.inr h

/-! ## Spans -/

/-- The dates from `first` to `last`, in order. -/
def span (first last : Date) : List Date :=
  (List.range' first.dayNumber (last.dayNumber + 1 - first.dayNumber)).filterMap
    fun (n : Nat) => ofDayNumber? n

/-- A span has the dates from its first to its last. -/
theorem mem_span {first last d : Date} : d ∈ span first last ↔ first ≤ d ∧ d ≤ last := by
  simp only [span, List.mem_filterMap, List.mem_range'_1, ofDayNumber?_eq_some, Int.natCast_inj,
    exists_eq_right', le_iff]
  omega

/-- The dates of a span ascend. -/
theorem pairwise_span (first last : Date) : (span first last).Pairwise (· < ·) := by
  refine List.Pairwise.filterMap _ (fun n m hnm a ha b hb => ?_) (List.pairwise_lt_range' 1)
  have ha := ofDayNumber?_eq_some.1 ha
  have hb := ofDayNumber?_eq_some.1 hb
  rw [lt_iff]
  omega

/-- The span up to one of its dates. -/
theorem filter_le_span {first last d : Date} (h : d ≤ last) :
    (span first last).filter (fun e => e ≤ d) = span first d := by
  refine List.Pairwise.eq_of_mem_iff (r := (· < ·)) ((pairwise_span _ _).filter _)
    (pairwise_span _ _) fun e => ?_
  simp only [List.mem_filter, mem_span, decide_eq_true_eq, le_iff] at *
  omega

/-- The span from one of its dates on. -/
theorem filter_ge_span {first last d : Date} (h : first ≤ d) :
    (span first last).filter (fun e => d ≤ e) = span d last := by
  refine List.Pairwise.eq_of_mem_iff (r := (· < ·)) ((pairwise_span _ _).filter _)
    (pairwise_span _ _) fun e => ?_
  simp only [List.mem_filter, mem_span, decide_eq_true_eq, le_iff] at *
  omega

end Date

/-! ## Weekdays of a span -/

namespace Weekday

/-- How many dates from `first` to `last` fall on a weekday. -/
def countIn (w : Weekday) (first last : Date) : Nat :=
  (Date.span first last).countP fun d => d.weekday = w

/-- Two dates fall on one weekday if whole weeks lie between them. -/
theorem weekday_eq_iff {a b : Date} :
    a.weekday = b.weekday ↔ a.dayNumber % 7 = b.dayNumber % 7 := by
  constructor
  · intro h
    have := a.number_weekday
    have := b.number_weekday
    rw [h] at *
    omega
  · intro h
    apply number_inj
    rw [a.number_weekday, b.number_weekday]
    omega

/-- Every seventh date from a date on: the later dates of the span with its weekday. -/
theorem mem_everyWeek {current last : Date} {dates : List Date}
    (h : everyWeek current last = .ok dates) {d : Date} :
    d ∈ dates ↔ current ≤ d ∧ d ≤ last ∧ d.weekday = current.weekday := by
  simp only [weekday_eq_iff, Date.le_iff]
  fun_induction everyWeek current last generalizing dates with
  | case1 current _ fault _ => injection h
  | case2 current le next hnext ih =>
    obtain ⟨rest, hrest, rfl⟩ := Except.map_eq_ok.1 h
    have step := Date.addDays_eq_ok.1 hnext
    rw [List.mem_cons, ih hrest]
    rw [Date.le_iff] at le
    -- Of the days that the step passes over only the first has the weekday
    constructor
    · rintro (rfl | h)
      · omega
      · omega
    · intro h
      by_cases same : d.dayNumber = current.dayNumber
      · exact Or.inl (Date.dayNumber_inj same)
      · exact Or.inr (by omega)
  | case3 current gt =>
    injection h with h
    subst h
    rw [Date.le_iff] at gt
    refine ⟨fun h => absurd h List.not_mem_nil, fun h => ?_⟩
    omega

/-- Dates a week apart ascend. -/
theorem pairwise_everyWeek {current last : Date} {dates : List Date}
    (h : everyWeek current last = .ok dates) : dates.Pairwise (· < ·) := by
  fun_induction everyWeek current last generalizing dates with
  | case1 current _ fault _ => injection h
  | case2 current le next hnext ih =>
    obtain ⟨rest, hrest, rfl⟩ := Except.map_eq_ok.1 h
    have step := Date.addDays_eq_ok.1 hnext
    refine List.pairwise_cons.2 ⟨fun d hd => ?_, ih hrest⟩
    -- All later ones come from the next week on
    have := Date.le_iff.1 ((mem_everyWeek hrest).1 hd).1
    rw [Date.lt_iff]
    omega
  | case3 current gt =>
    injection h with h
    subst h
    exact List.Pairwise.nil

/-- The dates of a span on a weekday are what is left of the span. -/
theorem datesBetween_eq {w : Weekday} {first last : Date} {dates : List Date}
    (h : w.datesBetween first last = .ok dates) :
    dates = (Date.span first last).filter fun d => d.weekday = w := by
  obtain ⟨start, hstart, hdates⟩ := Except.bind_eq_ok.1 h
  have hstart := Date.addDays_eq_ok.1 hstart
  have hfirst := first.number_weekday
  have hw := w.number_lt
  have weekday : start.weekday = w := by
    apply number_inj
    rw [start.number_weekday]
    omega
  -- Both lists are ascending, so it is enough that they have the same members
  refine List.Pairwise.eq_of_mem_iff (r := (· < ·)) (pairwise_everyWeek hdates)
    ((Date.pairwise_span _ _).filter _) fun d => ?_
  rw [mem_everyWeek hdates, weekday]
  simp only [List.mem_filter, Date.mem_span, decide_eq_true_eq, Date.le_iff]
  constructor
  · rintro ⟨h1, h2, h3⟩
    exact ⟨⟨by omega, h2⟩, h3⟩
  · rintro ⟨⟨h1, h2⟩, h3⟩
    have := weekday_eq_iff.1 (h3.trans weekday.symm)
    exact ⟨by omega, h2, h3⟩

end Weekday

/-! ## Entries -/

namespace DayEntry

/-- Whether an entry selects a date of a span: every date on its weekday if its ordinal is zero, and
otherwise the one with as many such dates up to it, or from it on if the ordinal is negative, as the
ordinal says. -/
def SelectsIn (entry : DayEntry) (first last d : Date) : Prop :=
  (first ≤ d ∧ d ≤ last) ∧ d.weekday = entry.weekday ∧
    (entry.ordinal = 0 ∨ (entry.weekday.countIn first d : Int) = entry.ordinal ∨
      (entry.weekday.countIn d last : Int) = -entry.ordinal)

instance (entry : DayEntry) (first last d : Date) : Decidable (entry.SelectsIn first last d) :=
  inferInstanceAs (Decidable (_ ∧ _))

/-- An ordinal selects a member of an ascending list by counting from one of its ends. -/
theorem mem_select {ordinal : Int} {found : List Date} (h : found.Pairwise (· < ·)) {d : Date} :
    d ∈ select ordinal found ↔ d ∈ found ∧ (ordinal = 0 ∨
      (found.countP (fun e => e ≤ d) : Int) = ordinal ∨
      (found.countP (fun e => d ≤ e) : Int) = -ordinal) := by
  have up : ∀ i, found[i]? = some d ↔ d ∈ found ∧ found.countP (fun e => e ≤ d) = i + 1 := by
    intro i
    have := List.getElem?_eq_some_iff_countP h (i := i) (a := d)
    simpa only [Date.eq_or_lt_iff_le] using this
  -- Counting from the end is counting in the reversed list, which descends
  have down : ∀ i, found.reverse[i]? = some d ↔
      d ∈ found ∧ found.countP (fun e => d ≤ e) = i + 1 := by
    intro i
    have irrefl : Std.Irrefl (fun a b : Date => b < a) := ⟨fun _ => Nat.lt_irrefl _⟩
    have antisymm : Std.Antisymm (fun a b : Date => b < a) :=
      ⟨fun _ _ h h' => absurd h (Nat.lt_asymm h')⟩
    have := List.getElem?_eq_some_iff_countP (r := fun a b : Date => b < a)
      (List.pairwise_reverse.2 h) (i := i) (a := d)
    simpa only [List.mem_reverse, List.countP_reverse, eq_comm (b := d),
      Date.eq_or_lt_iff_le] using this
  -- A member counts itself from both ends
  have counts : d ∈ found → 0 < found.countP (fun e => e ≤ d) ∧
      0 < found.countP (fun e => d ≤ e) := fun hd =>
    ⟨List.countP_pos_iff.2 ⟨d, hd, by simp [Date.le_iff]⟩,
      List.countP_pos_iff.2 ⟨d, hd, by simp [Date.le_iff]⟩⟩
  unfold select
  split
  · simp_all
  · split
    · rw [Option.mem_toList, up]
      refine and_congr_right fun hd => ?_
      have := counts hd
      omega
    · rw [Option.mem_toList, down]
      refine and_congr_right fun hd => ?_
      have := counts hd
      omega

/-- The dates of an entry are the ones it selects. -/
theorem mem_dates {entry : DayEntry} {first last : Date} {dates : List Date}
    (h : entry.dates first last = .ok dates) {d : Date} :
    d ∈ dates ↔ entry.SelectsIn first last d := by
  obtain ⟨found, hfound, rfl⟩ := Except.map_eq_ok.1 h
  rw [Weekday.datesBetween_eq hfound, mem_select ((Date.pairwise_span _ _).filter _)]
  simp only [List.mem_filter, Date.mem_span, decide_eq_true_eq, List.countP_filter, SelectsIn,
    and_assoc]
  refine and_congr_right fun h1 => and_congr_right fun h2 => and_congr_right fun _ => ?_
  -- The members up to a date are those of the span that ends there
  simp only [Weekday.countIn, ← Date.filter_le_span h2, ← Date.filter_ge_span h1,
    List.countP_filter, Bool.and_comm]

/-- So are the dates of several entries. -/
theorem mem_datesOfAll {entries : List DayEntry} {first last : Date} {dates : List Date}
    (h : datesOfAll entries first last = .ok dates) {d : Date} :
    d ∈ dates ↔ ∃ entry ∈ entries, entry.SelectsIn first last d := by
  obtain ⟨lists, hlists, rfl⟩ := Except.map_eq_ok.1 h
  simp only [List.mem_flatten, Except.mem_mapM hlists]
  constructor
  · rintro ⟨l, ⟨entry, hentry, hl⟩, hd⟩
    exact ⟨entry, hentry, (mem_dates hl).1 hd⟩
  · rintro ⟨entry, hentry, hsel⟩
    obtain ⟨l, hl⟩ := Except.exists_of_mapM hlists hentry
    exact ⟨l, ⟨entry, hentry, hl⟩, (mem_dates hl).2 hsel⟩

end DayEntry

/-! ## Sorting -/

namespace Date

/-- An inserted date is added to the others. -/
theorem mem_insertAscending {d e : Date} {l : List Date} :
    e ∈ insertAscending d l ↔ e = d ∨ e ∈ l := by
  induction l with
  | nil => simp [insertAscending]
  | cons c l ih =>
    simp only [insertAscending]
    split
    · simp
    · split
      · simp only [List.mem_cons, ih]
        tauto
      · -- Neither date is before the other one, so they are the same
        rename_i h h'
        have same : d = c := dayNumber_inj (by rw [lt_iff] at h h'; omega)
        simp [same]

/-- It is inserted in its place. -/
theorem pairwise_insertAscending {d : Date} {l : List Date} (h : l.Pairwise (· < ·)) :
    (insertAscending d l).Pairwise (· < ·) := by
  induction l with
  | nil => simp [insertAscending]
  | cons c l ih =>
    obtain ⟨hc, hl⟩ := List.pairwise_cons.1 h
    simp only [insertAscending]
    split
    · rename_i hd
      refine List.pairwise_cons.2 ⟨fun e he => ?_, h⟩
      -- The new date comes before the first one, so before all
      rcases List.mem_cons.1 he with rfl | he
      · exact hd
      · exact Nat.lt_trans hd (hc e he)
    · split
      · rename_i hd
        refine List.pairwise_cons.2 ⟨fun e he => ?_, ih hl⟩
        -- The first one stays in front of what is inserted behind it
        rcases mem_insertAscending.1 he with rfl | he
        · exact hd
        · exact hc e he
      · exact h

/-- Dates brought in order are the same dates. -/
theorem mem_ascending {e : Date} {l : List Date} : e ∈ ascending l ↔ e ∈ l := by
  induction l with
  | nil => rfl
  | cons d l ih =>
    rw [ascending, List.foldr_cons, mem_insertAscending, List.mem_cons, ← ih, ascending]

/-- Dates brought in order ascend, each of them once. -/
theorem pairwise_ascending (l : List Date) : (ascending l).Pairwise (· < ·) := by
  induction l with
  | nil => exact List.Pairwise.nil
  | cons d l ih => exact pairwise_insertAscending ih

end Date

end Recurrence
