import Recurrence.Proofs.Spans

/-!
# Counting weekdays

On spans that end a week before the calendar does, the weekdays of a span can always be gone
through: the step beyond the last of them stays inside the calendar.

* `Date.weekBeforeLast`: the last date that is followed by a whole week.
* `Weekday.datesBetween_eq_ok`, `DayEntry.dates_eq_ok`: the dates on a weekday, and those that an
  entry selects.
* `DayEntry.datesOfAll_eq_ok`: entries select entry by entry.
* `DayEntry.datesOfAll_counted`: what they select is counted from either end of the span.
-/

namespace Recurrence

/-! ## A week before the end -/

namespace Date

variable {d : Date}

/-- The last date of the calendar that is followed by a whole week. -/
def weekBeforeLast : Date := ⟨9999, 12, 24, by decide⟩

/-- Up to a week before the last date there is a week to add. -/
theorem le_weekBeforeLast_iff : d ≤ weekBeforeLast ↔ d.dayNumber + 7 < total := by
  have week : weekBeforeLast.dayNumber + 8 = total := rfl
  rw [le_iff]
  omega

/-- Days can be added up to the end of the calendar. -/
theorem exists_addDays {days : Int} (lo : 0 ≤ days) (hi : d.dayNumber + days < total) :
    ∃ e, d.addDays days = .ok e := by
  refine ⟨.ofDayNumber (d.dayNumber + days.toNat) (by omega), addDays_eq_ok.2 ?_⟩
  rw [dayNumber_ofDayNumber]
  omega

end Date

/-! ## Weekdays -/

namespace Weekday

variable {first last : Date}

/-- Dates a week apart are found if the calendar goes on for a week behind the last. -/
theorem exists_everyWeek (current : Date) (hl : last ≤ .weekBeforeLast) :
    ∃ dates, everyWeek current last = .ok dates := by
  rw [Date.le_weekBeforeLast_iff] at hl
  fun_induction everyWeek current last with
  | case1 current le fault failed =>
    have le := Date.le_iff.1 le
    -- The date to look up next is in the calendar, though it may lie behind the last
    obtain ⟨next, hnext⟩ := Date.exists_addDays (d := current) (show (0 : Int) ≤ 7 by decide)
      (by omega)
    rw [hnext] at failed
    injection failed
  | case2 current le next hnext ih =>
    obtain ⟨rest, hrest⟩ := ih
    exact ⟨_, Except.map_eq_ok.2 ⟨rest, hrest, rfl⟩⟩
  | case3 current gt => exact ⟨[], rfl⟩

/-- The first date on a weekday comes less than a week after the start of the span, and it may come
after the end. -/
theorem datesBetween_eq_ok (w : Weekday) (hf : first ≤ .weekBeforeLast)
    (hl : last ≤ .weekBeforeLast) :
    w.datesBetween first last = .ok ((Date.span first last).filter fun d => d.weekday = w) := by
  have room := Date.le_weekBeforeLast_iff.1 hf
  obtain ⟨start, hstart⟩ := Date.exists_addDays (d := first)
    (show (0 : Int) ≤ (w.number - first.weekday.number : Int) % 7 by omega) (by omega)
  obtain ⟨dates, hdates⟩ := exists_everyWeek start hl
  have found : w.datesBetween first last = .ok dates :=
    Except.bind_eq_ok.2 ⟨start, hstart, hdates⟩
  rw [found, datesBetween_eq found]

end Weekday

/-! ## Entries -/

namespace DayEntry

variable {first last : Date} {ordinal : Int}

/-- What is selected stands in the order of the list. -/
theorem pairwise_select {α : Type} {r : α → α → Prop} {found : List α} (h : found.Pairwise r) :
    (select ordinal found).Pairwise r := by
  have single (o : Option α) : o.toList.Pairwise r := by
    cases o <;> simp
  unfold select
  split
  · exact h
  · split
    · exact single _
    · exact single _

/-- An ordinal other than zero selects one member of a list, if the list has that many. -/
theorem length_select {α : Type} {found : List α} (h : ordinal ≠ 0) :
    (select ordinal found).length = if ordinal.natAbs ≤ found.length then 1 else 0 := by
  -- There is one item at a position of the list, and none beyond it
  have single (l : List α) (i : Nat) : l[i]?.toList.length = if i < l.length then 1 else 0 := by
    by_cases lt : i < l.length
    · simp [lt]
    · simp [lt]
  unfold select
  rw [if_neg h]
  split
  · rw [single]
    apply if_congr _ rfl rfl
    omega
  · rw [single, List.length_reverse]
    apply if_congr _ rfl rfl
    omega

/-- Up to a week before the last date, the dates of an entry are found. -/
theorem dates_eq_ok (entry : DayEntry) (hf : first ≤ .weekBeforeLast)
    (hl : last ≤ .weekBeforeLast) : entry.dates first last =
      .ok ((Date.span first last).filter fun d => entry.SelectsIn first last d) := by
  have found := entry.weekday.datesBetween_eq_ok hf hl
  have selected : entry.dates first last = .ok (select entry.ordinal _) :=
    Except.map_eq_ok.2 ⟨_, found, rfl⟩
  rw [selected]
  apply congrArg
  -- Both lists are ascending, so it is enough that they have the same members
  refine List.Pairwise.eq_of_mem_iff (r := (· < ·))
    (pairwise_select ((Date.pairwise_span _ _).filter _)) ((Date.pairwise_span _ _).filter _) ?_
  intro d
  rw [mem_dates selected, List.mem_filter, decide_eq_true_eq, Date.mem_span]
  exact ⟨fun h => ⟨h.1, h⟩, fun h => h.2⟩

/-- So are the dates of several entries. -/
theorem datesOfAll_eq_ok (entries : List DayEntry) (hf : first ≤ .weekBeforeLast)
    (hl : last ≤ .weekBeforeLast) : datesOfAll entries first last =
      .ok (entries.flatMap fun entry =>
        (Date.span first last).filter fun d => entry.SelectsIn first last d) := by
  rw [List.flatMap_def]
  refine Except.map_eq_ok.2 ⟨_, Except.mapM_eq_ok.2 ?_, rfl⟩
  rw [List.forall₂_map_right_iff, List.forall₂_same]
  exact fun entry _ => entry.dates_eq_ok hf hl

/-- No two dates of a span are selected by an ordinal other than zero. -/
theorem length_selected_le {entry : DayEntry} (h : entry.ordinal ≠ 0)
    (hf : first ≤ .weekBeforeLast) (hl : last ≤ .weekBeforeLast) :
    ((Date.span first last).filter fun d => entry.SelectsIn first last d).length ≤ 1 := by
  obtain ⟨found, -, selected⟩ := Except.map_eq_ok.1 (entry.dates_eq_ok hf hl)
  rw [← selected, length_select h]
  split <;> decide

/-- Entries select the dates of a span by counting its weekdays, from its start or from its end, and
what they select comes entry by entry. An ordinal other than zero selects one date at most. -/
theorem datesOfAll_counted (hf : first ≤ .weekBeforeLast) (hl : last ≤ .weekBeforeLast) :
    (∀ w : Weekday, w.datesBetween first last =
      .ok ((Date.span first last).filter fun d => d.weekday = w)) ∧
    (∀ entries : List DayEntry, datesOfAll entries first last =
      .ok (entries.flatMap fun entry =>
        (Date.span first last).filter fun d => entry.SelectsIn first last d)) ∧
    ∀ entry : DayEntry, entry.ordinal ≠ 0 →
      ((Date.span first last).filter fun d => entry.SelectsIn first last d).length ≤ 1 :=
  ⟨fun w => w.datesBetween_eq_ok hf hl, fun entries => datesOfAll_eq_ok entries hf hl,
    fun _ h => length_selected_le h hf hl⟩

/-- The last Friday of a span that ends as late as it may, its fifth one, which it does not have,
all its Sundays, and its second Monday. -/
theorem lastDecember_counted :
    ((⟨9999, 12, 1, by decide⟩ : Date) ≤ .weekBeforeLast ∧
      Date.weekBeforeLast ≤ .weekBeforeLast) ∧
    datesOfAll [⟨-1, .friday⟩, ⟨5, .friday⟩, ⟨0, .sunday⟩, ⟨2, .monday⟩]
        ⟨9999, 12, 1, by decide⟩ .weekBeforeLast =
      .ok [⟨9999, 12, 24, by decide⟩, ⟨9999, 12, 5, by decide⟩, ⟨9999, 12, 12, by decide⟩,
        ⟨9999, 12, 19, by decide⟩, ⟨9999, 12, 13, by decide⟩] := by
  have start : (⟨9999, 12, 1, by decide⟩ : Date) ≤ .weekBeforeLast := by decide
  have stop : Date.weekBeforeLast ≤ .weekBeforeLast := Nat.le_refl _
  refine ⟨⟨start, stop⟩, ?_⟩
  rw [(datesOfAll_counted start stop).2.1]
  decide +kernel

end DayEntry

end Recurrence
