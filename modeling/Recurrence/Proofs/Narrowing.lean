import Recurrence.Proofs.Paging

/-!
# Narrower queries

A query that accepts less has the same next occurrence if it accepts that one. So the next
occurrence after a moment stays the same when the moment moves closer to it.

* `Walk.start_narrow`: the search for a narrower query.
* `Series.nextOf_narrow`: the next occurrence after a later bound.
* `Series.not_before_of_nextOf`: two occurrences that follow their bounds do not cross.
* `Series.nextOf_eq_following_iff`: the moments after which the occurrence that follows another one
  is the next.
* `Series.mem_of_nextOf_before`: a bound before an occurrence leads back to the occurrences so far.
-/

namespace Recurrence

namespace Query

/-- Whether a query differs from another at most by a later bound. -/
def Narrows (q' q : Query) : Prop :=
  q'.exclude = q.exclude ∧ ∀ bound, q.after = some bound →
    ∃ bound', q'.after = some bound' ∧ bound'.isBefore bound = false

/-- A narrower query accepts no more. -/
theorem accepts_of_narrows {q' q : Query} (hn : q'.Narrows q) {zone : Zone}
    (hz : q.InZone zone) (hz' : q'.InZone zone) {m : Moment} (hm : m.zone = zone)
    (h : q'.accepts m = true) :
    q.accepts m = true := by
  unfold accepts
  split
  · rfl
  · rename_i bound hbound
    obtain ⟨bound', hbound', le⟩ := hn.2 bound hbound
    have zone_bound := hz bound hbound
    have zone_bound' := hz' bound' hbound'
    rw [accepts, hbound'] at h
    have le := (Moment.isBefore_eq_false_iff (zone_bound'.trans zone_bound.symm)).1 le
    have lt := (Moment.isBefore_iff (zone_bound'.trans hm.symm)).1 h
    exact (Moment.isBefore_iff (zone_bound.trans hm.symm)).2 (Nat.lt_of_le_of_lt le lt)

/-- Any bound narrows a question without one. -/
theorem narrows_none (m : Moment) (exclude : Bool) :
    (⟨some m, exclude⟩ : Query).Narrows ⟨none, exclude⟩ :=
  ⟨rfl, fun _ h => by injection h⟩

/-- A later bound narrows a question. -/
theorem narrows_some {m m' : Moment} (h : m'.isBefore m = false) (exclude : Bool) :
    (⟨some m', exclude⟩ : Query).Narrows ⟨some m, exclude⟩ := by
  refine ⟨rfl, fun bound hbound => ⟨m', rfl, ?_⟩⟩
  injection hbound with hbound
  exact hbound ▸ h

end Query

namespace Walk

variable {s : Series} {q q' : Query} {m b : Moment}

/-! ## Narrower searches -/

/-- A narrower query begins to search no earlier. -/
theorem floor_le_of_narrows (hz : q.InZone s.zone) (hz' : q'.InZone s.zone)
    (hn : q'.Narrows q) : (floor s q).date ≤ (floor s q').date := by
  cases hbound : q.after with
  | none =>
    rw [floor_eq_anchor (q := q) fun bound h => nomatch hbound.symm.trans h]
    exact anchor_date_le_floor hz'
  | some bound =>
    obtain ⟨bound', hbound', le⟩ := hn.2 bound hbound
    have zone : bound.zone = s.anchor.zone := hz bound hbound
    have zone' : bound'.zone = s.anchor.zone := hz' bound' hbound'
    have le := (Moment.isBefore_eq_false_iff (zone'.trans zone.symm)).1 le
    cases before : bound.isBefore s.anchor with
    | true =>
      -- The wider search starts from the anchor, and no search starts earlier
      rw [floor_eq_anchor (q := q) fun b h => Option.some.inj (hbound.symm.trans h) ▸ before]
      exact anchor_date_le_floor hz'
    | false =>
      have anchored := (Moment.isBefore_eq_false_iff zone).1 before
      have before' : bound'.isBefore s.anchor = false :=
        (Moment.isBefore_eq_false_iff zone').2 (Nat.le_trans anchored le)
      rw [floor_eq_bound hbound before, floor_eq_bound hbound' before']
      exact Moment.date_le_of_ticks_le le

/-- Within a period, a narrower query passes over what a wider one passes over, and takes the
occurrence that the wider one finds if it accepts that. -/
theorem scan_narrow {l : List Moment} (hz : q.InZone s.zone) (hz' : q'.InZone s.zone)
    (hn : q'.Narrows q) (hl : ∀ m ∈ l, m.zone = s.zone) {outcome : Outcome}
    (h : scan s q l = .ok outcome)
    (hfound : ∀ m rest, outcome = .found m rest → q'.accepts m = true)
    (hended : outcome ≠ .ended) : scan s q' l = .ok outcome := by
  induction l with
  | nil => exact h
  | cons m l ih =>
    have ih := ih fun m hm => hl m (List.mem_cons_of_mem _ hm)
    have narrow (h : s.admits q' m = true) : s.admits q m = true := by
      rw [admits_iff] at h ⊢
      exact ⟨h.1, Query.accepts_of_narrows hn hz hz' (hl m List.mem_cons_self) h.2⟩
    have same : leavesOut s q' m = leavesOut s q m := by
      rw [leavesOut, leavesOut, hn.1]
    rw [scan_cons] at h ⊢
    -- The scans part only over candidates that the narrower query refuses
    cases admitted : s.admits q' m with
    | true =>
      rw [if_pos (narrow admitted)] at h
      rw [if_pos rfl]
      split at h
      · injection h with h
        exact absurd h.symm hended
      · rename_i past
        obtain ⟨out, hout, h⟩ := Except.bind_eq_ok.1 h
        rw [if_neg past]
        refine Except.bind_eq_ok.2 ⟨out, same.trans hout, ?_⟩
        cases out with
        | true => exact ih h
        | false => exact h
    | false =>
      rw [if_neg Bool.false_ne_true]
      split at h
      · rename_i admitted'
        split at h
        · injection h with h
          exact absurd h.symm hended
        · obtain ⟨out, -, h⟩ := Except.bind_eq_ok.1 h
          cases out with
          | true => exact ih h
          | false =>
            -- The narrower query accepts what the wider one finds
            injection h with h
            have found : s.admits q' m = true :=
              admits_iff.2 ⟨(admits_iff.1 admitted').1, hfound m l h.symm⟩
            rw [admitted] at found
            injection found
      · exact ih h

/-- A search finds nothing before the period from which it starts. -/
theorem le_of_seek {horizon period : Date} {w : Walk} (hs : s.freq.periodStart period = period)
    (h : seek s q horizon period = .ok (some (b, w))) :
    s.freq.periodNumber period ≤ s.freq.periodNumber b.date := by
  induction period using period_induct s with
  | step period ih =>
    rw [seek_eq] at h
    split at h
    · injection h with h
      injection h
    · obtain ⟨l, hl, h⟩ := Except.bind_eq_ok.1 h
      obtain ⟨outcome, hscan, h⟩ := Except.bind_eq_ok.1 h
      -- It was found in this period, or in a later one
      cases outcome with
      | found m rest =>
        injection h with h
        injection h with h
        injection h with hm _
        subst hm
        obtain ⟨⟨before, rfl⟩, -⟩ := scan_eq_found hscan
        obtain ⟨-, start, -⟩ := Series.mem_candidates hl hs
          (List.mem_append_right _ List.mem_cons_self)
        rw [← start, Frequency.periodNumber_periodStart]
      | ended =>
        injection h with h
        injection h
      | none =>
        obtain ⟨next, hnext, h⟩ := Except.bind_eq_ok.1 h
        have := ih next hnext (Frequency.periodStart_shift hs hnext) h
        have := Frequency.periodNumber_shift hnext
        have := s.step_pos
        omega

/-- A narrower search that starts later, but not after the occurrence that the wider one finds,
finds it as well. -/
theorem seek_narrow (hz : q.InZone s.zone) (hz' : q'.InZone s.zone) (hn : q'.Narrows q)
    {horizon horizon' period start : Date} {w : Walk}
    (hs : s.freq.periodStart period = period) (hv : s.Visits (s.freq.periodNumber period))
    (h : seek s q horizon period = .ok (some (b, w))) (ha : q'.accepts b = true)
    (le : horizon ≤ horizon') (hs' : s.freq.periodStart start = start)
    (hv' : s.Visits (s.freq.periodNumber start))
    (from_period : s.freq.periodNumber period ≤ s.freq.periodNumber start)
    (to_found : s.freq.periodNumber start ≤ s.freq.periodNumber b.date) :
    seek s q' horizon' start = .ok (some (b, w)) := by
  induction period using period_induct s generalizing start with
  | step period ih =>
    have hseek := h
    rw [seek_eq] at h
    split at h
    · injection h with h
      injection h
    · rename_i go
      obtain ⟨l, hl, h⟩ := Except.bind_eq_ok.1 h
      obtain ⟨outcome, hscan, h⟩ := Except.bind_eq_ok.1 h
      have zone : ∀ m ∈ l, m.zone = s.zone := fun m hm => by
        rw [(Series.mem_candidates hl hs hm).1]
        rfl
      -- The narrower search looks at this period in the same way if it starts here
      have here (hscan' : scan s q' l = .ok outcome) :
          seek s q' horizon' period = settle s q' horizon' period outcome := by
        rw [seek_eq, if_neg]
        · simp only [bind, Except.bind, hl, hscan']
        · rw [Bool.or_eq_true, not_or, decide_eq_true_eq] at go ⊢
          exact ⟨Nat.not_lt.2 (Nat.le_trans (Nat.not_lt.1 go.1) le), go.2⟩
      cases outcome with
      | found m rest =>
        injection h with h
        injection h with h
        injection h with hm hw
        subst hm hw
        have hscan' := scan_narrow hz hz' hn zone hscan
          (fun _ _ h => by injection h with h; exact h ▸ ha) fun h => by injection h
        obtain ⟨⟨before, rfl⟩, -⟩ := scan_eq_found hscan
        have at_found := (Series.mem_candidates hl hs (m := m) (by simp)).2.1
        rw [← Frequency.periodNumber_periodStart s.freq m.date, at_found] at to_found
        rw [Frequency.start_inj hs' hs (Int.le_antisymm to_found from_period), here hscan']
        rfl
      | ended =>
        injection h with h
        injection h
      | none =>
        obtain ⟨next, hnext, h⟩ := Except.bind_eq_ok.1 h
        have hs_next := Frequency.periodStart_shift hs hnext
        have number := Frequency.periodNumber_shift hnext
        have hv_next : s.Visits (s.freq.periodNumber next) := number ▸ hv.next
        -- The narrower search starts at this period, where it finds nothing either, or at a later
        -- one
        rcases hv.eq_or_next_le hv' from_period with eq | later
        · have hscan' := scan_narrow hz hz' hn zone hscan (fun _ _ h => by injection h)
            fun h => by injection h
          rw [Frequency.start_inj hs' hs eq, here hscan', settle, hnext]
          exact ih next hnext hs_next hv_next h hs_next hv_next (Int.le_refl _)
            (le_of_seek hs_next h)
        · exact ih next hnext hs_next hv_next h hs' hv' (number ▸ later) to_found

/-- The search for a narrower query finds what the wider one finds, if its horizon is a date. -/
theorem start_narrow (hz : q.InZone s.zone) (hz' : q'.InZone s.zone) (hn : q'.Narrows q)
    {w : Walk} (h : start s q = .ok (some (b, w))) (ha : q'.accepts b = true)
    {horizon' : Date} (hh' : (floor s q').date.shiftYears s.lookahead.val = .ok horizon') :
    start s q' = .ok (some (b, w)) := by
  obtain ⟨hf, hp⟩ := start_follows hz h
  rw [start_eq] at h
  obtain ⟨horizon, hh, h⟩ := Except.bind_eq_ok.1 h
  obtain ⟨period, hperiod, h⟩ := Except.bind_eq_ok.1 h
  obtain ⟨hs, hv, -, period_lt⟩ := visits_first (anchor_date_le_floor hz) hperiod
  have pos := s.step_pos
  have le_floor : s.freq.periodNumber (floor s q).date ≤ s.freq.periodNumber (floor s q').date :=
    Frequency.periodNumber_mono (floor_le_of_narrows hz hz' hn)
  have anchor_le : s.freq.periodNumber s.reading.date ≤ s.freq.periodNumber (floor s q').date :=
    Frequency.periodNumber_mono (anchor_date_le_floor hz')
  have floor_le : s.freq.periodNumber (floor s q').date ≤ s.freq.periodNumber b.date := by
    refine Frequency.periodNumber_mono (floor_le_of_admits hz' ?_)
    rw [← hf.on]
    exact admits_iff.2 ⟨hf.anchored, ha⟩
  -- The first period of the narrower search exists, since that of the occurrence does
  obtain ⟨start', hstart'⟩ : ∃ start', s.freq.shift s.anchorPeriod
      (firstPeriod s (floor s q').date) = .ok start' := by
    have hshift := shift_firstPeriod hf.visited
    rw [firstPeriod_eq, roundUp_eq pos hf.visited.2 (Int.le_refl _) (by omega)] at hshift
    refine Frequency.exists_shift hshift ?_ ?_
    · rw [firstPeriod_eq]
      exact Int.le_trans (by omega) (roundUp_spec pos).1
    · rw [firstPeriod_eq]
      exact roundUp_le pos hf.visited.2 (by omega)
  obtain ⟨hs', hv', le_start, start_lt⟩ := visits_first (anchor_date_le_floor hz') hstart'
  -- Visited periods lie a step apart, so the searches start in order
  have from_period : s.freq.periodNumber period ≤ s.freq.periodNumber start' := by
    refine Int.not_lt.1 fun lt => ?_
    rcases hv'.eq_or_next_le hv (Int.le_of_lt lt) with eq | next <;> omega
  have to_found : s.freq.periodNumber start' ≤ s.freq.periodNumber b.date := by
    refine Int.not_lt.1 fun lt => ?_
    rcases hf.visited.eq_or_next_le hv' (Int.le_of_lt lt) with eq | next <;> omega
  have le := Date.shiftYears_mono (floor_le_of_narrows hz hz' hn) hh hh'
  rw [start_eq]
  exact Except.bind_eq_ok.2 ⟨horizon', hh', Except.bind_eq_ok.2 ⟨start', hstart',
    seek_narrow hz hz' hn hs hv h ha le hs' hv' from_period to_found⟩⟩

end Walk

namespace Series

variable {s : Series} {bound bound' : Option Moment} {a b r : Moment}

/-! ## Later bounds -/

/-- Without a count, an answer has a horizon inside the calendar. -/
theorem horizon_of_nextOf {first : Option Moment} (h : s.nextOf bound = .ok first)
    (hcount : s.fields.count = none) :
    ∃ horizon, (Walk.floor s ⟨bound, true⟩).date.shiftYears s.lookahead.val = .ok horizon := by
  rw [nextOf, hcount] at h
  obtain ⟨r, hr, -⟩ := Except.map_eq_ok.1 (orFail_eq_ok.1 h)
  rw [Walk.start_eq] at hr
  obtain ⟨horizon, hh, -⟩ := Except.bind_eq_ok.1 hr
  exact ⟨horizon, hh⟩

/-- The next occurrence after a moment is the next one after every later moment before it, if there
is a horizon for a search from there. -/
theorem nextOf_narrow (hz : (⟨bound, true⟩ : Query).InZone s.zone)
    (hz' : (⟨bound', true⟩ : Query).InZone s.zone)
    (hn : (⟨bound', true⟩ : Query).Narrows ⟨bound, true⟩) (h : s.nextOf bound = .ok (some b))
    (ha : (⟨bound', true⟩ : Query).accepts b = true)
    (hh : s.fields.count = none →
      ∃ horizon, (Walk.floor s ⟨bound', true⟩).date.shiftYears s.lookahead.val = .ok horizon) :
    s.nextOf bound' = .ok (some b) := by
  -- Without a count the narrower question must have a horizon of its own
  cases hcount : s.fields.count with
  | none =>
    obtain ⟨horizon, hh⟩ := hh hcount
    simp only [nextOf, hcount] at h ⊢
    obtain ⟨r, hr, h⟩ := Except.map_eq_ok.1 (orFail_eq_ok.1 h)
    obtain ⟨⟨c, w⟩, rfl, rfl⟩ := Option.map_eq_some_iff.1 h
    rw [firstOf, Walk.start_narrow hz hz' hn hr ha hh]
    rfl
  | some count =>
    simp only [nextOf, hcount] at h ⊢
    split at h
    · injection h
    · rename_i small
      rw [if_neg small]
      exact orFail_eq_ok.2 (firstCounted_narrow (w := none) trivial
        (fun m hm => Query.accepts_of_narrows hn hz hz' hm) (orFail_eq_ok.1 h) ha)

/-- If the next occurrence after one moment comes before the next one after another, then it is not
later than that other moment. -/
theorem not_before_of_nextOf (hz : (⟨bound, true⟩ : Query).InZone s.zone) (hr : r.zone = s.zone)
    (ha : s.nextOf bound = .ok (some a)) (hb : s.nextOf (some r) = .ok (some b))
    (lt : a.isBefore b = true) : r.isBefore a = false := by
  have differ : a ≠ b := fun eq => by
    rw [eq, Moment.isBefore_irrefl] at lt
    injection lt
  have hzr : (⟨some r, true⟩ : Query).InZone s.zone := inZone_some hr
  refine Bool.eq_false_iff.2 fun before => differ ?_
  have of_narrows (hn : (⟨some r, true⟩ : Query).Narrows ⟨bound, true⟩) : a = b := by
    rw [nextOf_narrow hz hzr hn ha before (horizon_of_nextOf hb)] at hb
    exact Option.some.inj (Except.ok.inj hb)
  cases bound with
  | none => exact of_narrows (Query.narrows_none r true)
  | some p =>
    have hp := hz p rfl
    cases order : r.isBefore p with
    | false =>
      exact of_narrows (Query.narrows_some order true)
    | true =>
      -- The other moment comes before the bound, so it has the same next occurrence
      have hn := Query.narrows_some (Moment.isBefore_asymm order) true
      have zone := (nextOf_admits hz ha).1
      have accepted : p.isBefore b = true := Moment.isBefore_trans (hp.trans zone.symm)
        (zone.trans (nextOf_admits hzr hb).1.symm) (nextOf_accepted hz ha) lt
      rw [nextOf_narrow hzr hz hn hb accepted (horizon_of_nextOf ha)] at ha
      exact (Option.some.inj (Except.ok.inj ha)).symm

/-- From an occurrence on, the occurrence that follows it is the next one after exactly those
moments that come before it and have a horizon. -/
theorem nextOf_eq_following_iff (hz : (⟨bound, true⟩ : Query).InZone s.zone) (hr : r.zone = s.zone)
    (ha : s.nextOf bound = .ok (some a)) (hb : s.nextOf (some a) = .ok (some b)) :
    s.nextOf (some r) = .ok (some b) ↔
      r.isBefore a = false ∧ r.isBefore b = true ∧ (s.fields.count = none →
        ∃ horizon, r.date.shiftYears s.lookahead.val = .ok horizon) := by
  obtain ⟨zone, admitted⟩ := nextOf_admits hz ha
  have hzr : (⟨some r, true⟩ : Query).InZone s.zone := inZone_some hr
  -- A moment from the occurrence on is also the floor of its search
  have floor_eq (le : r.isBefore a = false) : Walk.floor s ⟨some r, true⟩ = r := by
    refine Walk.floor_eq_bound rfl ?_
    have anchored := (Walk.admits_iff.1 admitted).1
    have anchored := (Moment.isBefore_eq_false_iff (b := s.anchor) zone).1 anchored
    have le := (Moment.isBefore_eq_false_iff (hr.trans zone.symm)).1 le
    exact (Moment.isBefore_eq_false_iff (b := s.anchor) hr).2 (Nat.le_trans anchored le)
  constructor
  · intro h
    have lt : a.isBefore b = true := nextOf_accepted (inZone_some zone) hb
    have le := not_before_of_nextOf hz hr ha h lt
    refine ⟨le, nextOf_accepted hzr h, fun hcount => ?_⟩
    exact floor_eq le ▸ horizon_of_nextOf h hcount
  · rintro ⟨le, before, hh⟩
    exact nextOf_narrow (inZone_some zone) hzr (Query.narrows_some le true) hb before
      ((floor_eq le).symm ▸ hh)

/-- The next occurrence after a moment before one of the occurrences is that one, or comes before
it among them. -/
theorem mem_of_nextOf_before (hz : (⟨bound, true⟩ : Query).InZone s.zone) (hr : r.zone = s.zone)
    (hn : (⟨some r, true⟩ : Query).Narrows ⟨bound, true⟩) {n i : Nat} {found : List Moment}
    (h : s.occurrences bound n = .ok found) (hi : found[i]? = some a)
    (before : r.isBefore a = true) (hb : s.nextOf (some r) = .ok (some b)) :
    ∃ j ≤ i, found[j]? = some b := by
  induction n generalizing bound i found with
  | zero =>
    rw [occurrences_zero] at h
    injection h with h
    subst h
    injection hi
  | succ n ih =>
    rcases occurrences_succ_eq_ok hz h with ⟨-, rfl⟩ | ⟨m, rest, hm, hz', hrest, rfl⟩
    · injection hi
    · -- The first moment behind the bound is the answer; those before it are passed over
      cases order : r.isBefore m with
      | true =>
        rw [nextOf_narrow hz (inZone_some hr) hn hm order (horizon_of_nextOf hb)] at hb
        exact ⟨0, Nat.zero_le i, Except.ok.inj hb⟩
      | false =>
        cases i with
        | zero =>
          injection hi with hi
          rw [hi, before] at order
          injection order
        | succ i =>
          obtain ⟨j, hj, hfound⟩ := ih hz' (Query.narrows_some order true) hrest hi
          exact ⟨j + 1, Nat.succ_le_succ hj, hfound⟩

end Series

end Recurrence
