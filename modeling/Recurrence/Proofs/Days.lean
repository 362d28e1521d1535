import Recurrence.Proofs.Regions
import Recurrence.Proofs.WrittenMoments

/-!
# Days in order

A time of day on a later date is no earlier instant, unless the clock is put forward by more than a
day in between. A whole day has been skipped at the date line, but no more than that.

* `Zone.KeepsDays`: the clocks that keep the order of days.
* `History.keepsDays_of_bounds`: the offsets of a history lie within a day.
* `History.keepsDays_of_record`: its shifts lie further apart than they put the clock forward.
* `Region.keepsDays_all`: the clocks of the regions that are listed keep the order of days.
-/

namespace Recurrence

open Shift (Tidy Cut offsetAfter)

/-! ## Histories -/

namespace History

variable {h : History}

/-- Whether readings that lie a day or more apart belong to instants in their order. -/
def KeepsDays (h : History) : Prop :=
  ∀ x y second, yearStart 1 ≤ x → x + 86400 ≤ y →
    x - h.offsetOn x second ≤ y - h.offsetOn y second

/-- Clocks keep the order of days if no offset is more than a day from another. -/
theorem keepsDays_of_bounds (lo : Int)
    (bounds : ∀ offset ∈ h.offsets, lo ≤ offset ∧ offset ≤ lo + 86400) : h.KeepsDays := by
  intro x y second _ later
  have hx := bounds _ (h.offsetOn_mem_offsets x second)
  have hy := bounds _ (h.offsetOn_mem_offsets y second)
  omega

/-- Whether the shifts on record put the clock forward by no more than a day: each of them, and any
stretch of them unless it takes that long. -/
structure IsGradual (h : History) : Prop where
  single : ∀ s ∈ h.recorded, s.after - s.before ≤ 86400
  stretch : ∀ second, h.recorded.Pairwise fun s last => last.after - s.before ≤ 86400 ∨
    last.after - s.before ≤ last.wallStart second - s.wallStart second

instance (h : History) : Decidable h.IsGradual :=
  decidable_of_iff (_ ∧ _) ⟨fun ⟨a, b⟩ => ⟨a, b⟩, fun ⟨a, b⟩ => ⟨a, b⟩⟩

/-- The shifts of a record that come between two readings put the clock forward by no more than the
readings lie apart. -/
theorem IsGradual.forward_le {x y : Int} {second : Bool} (gradual : h.IsGradual)
    (later : x + 86400 ≤ y) {past between coming : List Shift} {s last : Shift}
    (hall : h.recorded = past ++ (between ++ coming)) (first : between.head? = some s)
    (final : between.getLast? = some last) (wait : x < s.wallStart second)
    (come : last.wallStart second ≤ y) : last.after - s.before ≤ y - x := by
  obtain ⟨rest, rfl⟩ := List.head?_eq_some_iff.1 first
  rcases List.mem_cons.1 (List.mem_of_getLast? final) with rfl | mem
  · have := gradual.single last (by simp [hall])
    omega
  · have ordered := gradual.stretch second
    rw [hall] at ordered
    have stretches := (List.pairwise_append.1 ordered).2.1
    have := (List.pairwise_cons.1 (List.pairwise_append.1 stretches).1).1 last mem
    omega

/-- Clocks with a record alone keep the order of days if its shifts are gradual. -/
theorem keepsDays_of_record (hrule : h.rule = none) (orderly : h.IsOrderly)
    (gradual : h.IsGradual) : h.KeepsDays := by
  intro x y second _ later
  let years := max (yearOfSeconds x) (yearOfSeconds y) + 1
  have tidy := orderly.tidy years
  have record : h.shiftsIn (List.range years) = h.recorded := shiftsIn_none hrule _
  -- Each reading cuts the record in two, and only the shifts between the cuts matter
  obtain ⟨past, coming, hall, cut⟩ := tidy.exists_cut_wallStart second x
  obtain ⟨past', coming', hall', cut'⟩ := tidy.exists_cut_wallStart second y
  have x_offset := offsetOn_eq orderly (by omega) hall cut
  have y_offset := offsetOn_eq orderly (by omega) hall' cut'
  rcases List.append_eq_append_iff.1 (hall.symm.trans hall') with
    ⟨between, rfl, rfl⟩ | ⟨between, rfl, rfl⟩
  · rcases List.eq_nil_or_concat' between with rfl | ⟨front, last, hlast⟩
    · rw [List.append_nil] at y_offset
      omega
    · -- The shifts that come between the readings lead from the one offset to the other
      obtain ⟨s, rest, hfirst⟩ := List.exists_cons_of_ne_nil
        (show between ≠ [] by rw [hlast]; exact List.concat_ne_nil _ _)
      have wait := cut.coming s (by simp [hfirst])
      have come := cut'.past last (by simp [hlast])
      have first : between.head? = some s := by simp [hfirst]
      have final : between.getLast? = some last := by simp [hlast]
      have forward := gradual.forward_le later (record.symm.trans hall) first final wait come
      rw [hall, hfirst] at tidy
      rw [hlast, ← List.append_assoc, Shift.offsetAfter_concat] at y_offset
      rw [y_offset, x_offset, ← tidy.before_eq]
      omega
  · -- No shift comes before the earlier reading and not before the later one
    cases between with
    | nil =>
      rw [List.append_nil] at x_offset
      omega
    | cons s rest =>
      have come := cut.past s (by simp)
      have wait := cut'.coming s (by simp)
      omega

end History

/-! ## Zones -/

/-- Whether on the clocks of a zone a time of day, in the same pass, is no earlier instant on a
later date. -/
def Zone.KeepsDays (zone : Zone) : Prop :=
  ∀ (time : TimeOfDay) (second : Bool) (d e : Date), d ≤ e →
    (⟨⟨d, time⟩, zone, second⟩ : Moment).instant ≤ (⟨⟨e, time⟩, zone, second⟩ : Moment).instant

/-- A zone that keeps one offset keeps the order of days. -/
theorem Zone.keepsDays_fixed (offset : Int) (given : Option String) :
    (Zone.fixed offset given).KeepsDays := by
  intro time second d e le
  have := Date.le_iff.1 le
  simp only [Moment.instant, Moment.offset, Zone.offsetOn, Reading.ticks, ticksPerDay]
  omega

/-- A region keeps the order of days if its history does. -/
theorem Zone.keepsDays_region {region : Region} (keeps : region.history.KeepsDays) :
    (Zone.region region).KeepsDays := by
  intro time second d e le
  rcases Nat.lt_or_eq_of_le (Date.le_iff.1 le) with lt | same
  · have start : History.yearStart 1 ≤ ((⟨d, time⟩ : Reading).seconds : Int) - Zone.unixStart := by
      rw [Moment.yearStart_one]
      omega
    -- Readings at one time of day lie whole days apart
    have later : ((⟨d, time⟩ : Reading).seconds : Int) - Zone.unixStart + 86400 ≤
        (⟨e, time⟩ : Reading).seconds - Zone.unixStart := by
      simp only [Reading.seconds, Reading.ticks, ticksPerDay, ticksPerSecond]
      omega
    have order := keeps _ _ second start later
    simp only [Moment.instant, Moment.offset, Zone.offsetOn]
    simp only [Reading.seconds, Reading.ticks, ticksPerDay, ticksPerSecond] at order ⊢
    omega
  · obtain rfl := Date.dayNumber_inj same
    exact Int.le_refl _

/-- The clocks of the listed regions keep the order of days. -/
theorem Region.keepsDays_all : ∀ r ∈ all, (Zone.region r).KeepsDays := by
  suffices ∀ r ∈ all, r.history.KeepsDays from fun r mem => Zone.keepsDays_region (this r mem)
  simp only [all, List.forall_mem_cons]
  refine ⟨?utc, ?newYork, ?losAngeles, ?saoPaulo, ?paris, ?lordHowe, ?apia, ?kiritimati, ?kolkata,
    ?tokyo, by simp⟩
  case utc => exact History.keepsDays_of_bounds 0 (by decide +kernel)
  case newYork => exact History.keepsDays_of_bounds (-18000) (by decide +kernel)
  case losAngeles => exact History.keepsDays_of_bounds (-28800) (by decide +kernel)
  case saoPaulo => exact History.keepsDays_of_bounds (-11188) (by decide +kernel)
  case paris => exact History.keepsDays_of_bounds 0 (by decide +kernel)
  case lordHowe => exact History.keepsDays_of_bounds 36000 (by decide +kernel)
  case kolkata => exact History.keepsDays_of_bounds 19270 (by decide +kernel)
  case tokyo => exact History.keepsDays_of_bounds 32400 (by decide +kernel)
  -- Two regions have crossed the date line
  case apia =>
    exact History.keepsDays_of_record rfl (isOrderly_all .apia (by simp [all])) (by decide +kernel)
  case kiritimati =>
    exact History.keepsDays_of_record rfl (isOrderly_all .kiritimati (by simp [all]))
      (by decide +kernel)

end Recurrence
