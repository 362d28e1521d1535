import Recurrence.Proofs.Bindings
import Recurrence.Proofs.Candidates

/-!
# Restarting a walk

A walk that stands at an occurrence goes on exactly as a new walk that starts from there: the same
occurrences, the same end, and the same fault if there is one. So a walk has no state beyond its
last occurrence.

* `Walk.Follows`: what a walk knows after an occurrence.
* `Walk.resume_eq_start`: going on is starting again.
* `Series.take_succ`: the occurrences of a walk are its first one, and those of the walk from there.
-/

namespace Recurrence

namespace Query

/-- Whether the bound of a query stands on the clocks of a zone. -/
def InZone (q : Query) (zone : Zone) : Prop := ∀ bound, q.after = some bound → bound.zone = zone

/-- A query without a bound suits every zone. -/
theorem inZone_none (exclude : Bool) (zone : Zone) : InZone ⟨none, exclude⟩ zone :=
  fun _ h => nomatch h

/-- The query for what comes after a moment. -/
def beyond (q : Query) (m : Moment) : Query := ⟨some m, q.exclude⟩

/-- A question beyond a moment of a zone is put in that zone. -/
theorem inZone_beyond {m : Moment} {zone : Zone} (q : Query) (h : m.zone = zone) :
    (q.beyond m).InZone zone := by
  intro bound hb
  injection hb with hb
  rw [← hb]
  exact h

/-- The bound of a question, read on the clocks of a zone, stands on them. -/
theorem inZone_of_mapM {after : Option Stamp} {bound : Option Moment} {zone : Zone}
    (h : after.mapM (fun stamp => stamp.inZone zone) = .ok bound) (exclude : Bool) :
    InZone ⟨bound, exclude⟩ zone := by
  intro m hm
  subst hm
  cases after with
  | none =>
    injection h with h
    injection h
  | some stamp =>
    rw [Option.mapM_some] at h
    obtain ⟨read, hread, h⟩ := Except.map_eq_ok.1 h
    injection h with h
    exact h ▸ Stamp.zone_inZone hread

end Query

namespace Walk

variable {s : Series} {q q' : Query} {m : Moment}

/-! ## Scanning candidates -/

/-- Whether a query leaves a moment out. -/
def leavesOut (s : Series) (q : Query) (m : Moment) : Except CalendarFault Bool :=
  if q.exclude then s.isExcluded m else .ok false

/-- A scan looks at a candidate that answers the query, and passes over one that does not. -/
theorem scan_cons (s : Series) (q : Query) (m : Moment) (l : List Moment) :
    scan s q (m :: l) =
      if s.admits q m then
        if s.isPastEnd m then .ok .ended
        else leavesOut s q m >>= fun out => if out then scan s q l else .ok (.found m l)
      else scan s q l := by
  rw [scan, Series.admits_eq_not, leavesOut]
  -- The tests are made in this order: admitted, past the end, excluded
  cases m.isBefore s.anchor || !q.accepts m with
  | true => rfl
  | false =>
    simp only [Bool.false_eq_true, if_false, Bool.not_false, if_true]
    split
    · rfl
    · split
      · cases s.isExcluded m with
        | error fault => rfl
        | ok out => cases out <;> rfl
      · rfl

/-- A scan depends on a query only through its tests on the candidates. -/
theorem scan_congr {l : List Moment} (hx : q.exclude = q'.exclude)
    (h : ∀ m ∈ l, q.accepts m = q'.accepts m) : scan s q l = scan s q' l := by
  induction l with
  | nil => rfl
  | cons m l ih =>
    have admits : s.admits q m = s.admits q' m := by
      rw [Series.admits, Series.admits, h m List.mem_cons_self]
    have leavesOut : leavesOut s q m = leavesOut s q' m := by
      rw [Walk.leavesOut, Walk.leavesOut, hx]
    rw [scan_cons, scan_cons, admits, leavesOut, ih fun m hm => h m (List.mem_cons_of_mem _ hm)]

/-- A scan passes over candidates that do not answer the query. -/
theorem scan_append {before l : List Moment} (h : ∀ m ∈ before, s.admits q m = false) :
    scan s q (before ++ l) = scan s q l := by
  induction before with
  | nil => rfl
  | cons m before ih =>
    have ih := ih fun m hm => h m (List.mem_cons_of_mem _ hm)
    rw [List.cons_append, scan_cons, h m List.mem_cons_self, if_neg Bool.false_ne_true, ih]

/-- What a scan finds, and where. -/
theorem scan_eq_found {l rest : List Moment} (h : scan s q l = .ok (.found m rest)) :
    (∃ before, l = before ++ m :: rest) ∧ s.admits q m = true ∧ s.isPastEnd m = false ∧
      leavesOut s q m = .ok false := by
  induction l with
  | nil =>
    injection h with h
    injection h
  | cons c l ih =>
    -- What is found behind the first candidate has that candidate before it as well
    have later (h : scan s q l = .ok (.found m rest)) :
        (∃ before, c :: l = before ++ m :: rest) ∧ s.admits q m = true ∧
          s.isPastEnd m = false ∧ leavesOut s q m = .ok false := by
      obtain ⟨⟨before, rfl⟩, hm⟩ := ih h
      exact ⟨⟨c :: before, rfl⟩, hm⟩
    rw [scan_cons] at h
    split at h
    · rename_i admitted
      split at h
      · injection h with h
        injection h
      · rename_i past
        obtain ⟨out, hout, h⟩ := Except.bind_eq_ok.1 h
        cases out with
        | true => exact later h
        | false =>
          injection h with h
          injection h with hm hrest
          subst hm hrest
          exact ⟨⟨[], rfl⟩, admitted, Bool.eq_false_iff.2 past, hout⟩
    · exact later h

/-! ## Seeking through periods -/

/-- What a search makes of the candidates of a period: an occurrence, the end, or a look into the
next period that is visited. -/
def settle (s : Series) (q : Query) (horizon period : Date) :
    Outcome → Except CalendarFault (Option (Moment × Walk))
  | .found m rest => .ok (some (m, ⟨m.date, period, rest⟩))
  | .ended => .ok none
  | .none => s.freq.shift period s.fields.step.val >>= seek s q horizon

/-- A search from a period on: it stops there, or scans the candidates of the period and settles
what that came to. -/
theorem seek_eq (s : Series) (q : Query) (horizon period : Date) :
    seek s q horizon period =
      if horizon < period || s.isPastEndingDate period then .ok none
      else s.candidates period >>= fun l => scan s q l >>= settle s q horizon period := by
  rw [seek]
  split
  · rfl
  · cases s.candidates period with
    | error fault => rfl
    | ok candidates =>
      simp only [bind, Except.bind]
      cases scan s q candidates with
      | error fault => rfl
      | ok outcome =>
        cases outcome with
        | found m rest => rfl
        | ended => rfl
        | none =>
          simp only [settle, bind, Except.bind]
          split <;> rename_i h <;> rw [h]

/-- A walk is resumed by scanning what its last period has left. -/
theorem resume_eq (s : Series) (q : Query) (w : Walk) :
    resume s q w = w.origin.shiftYears s.lookahead.val >>= fun horizon =>
      scan s q w.pending >>= settle s q horizon w.period := by
  unfold resume
  refine bind_congr fun horizon => bind_congr fun outcome => ?_
  cases outcome with
  | found m rest => rfl
  | ended => rfl
  | none => rfl

/-- What holds of a period whenever it holds of the next one that is visited holds of all. -/
theorem period_induct (s : Series) {motive : Date → Prop}
    (step : ∀ period, (∀ next, s.freq.shift period s.fields.step.val = .ok next → motive next) →
      motive period) (period : Date) : motive period := by
  -- With every step fewer days are left until the end of the calendar
  induction hn : Date.total - period.dayNumber using Nat.strongRecOn generalizing period with
  | ind n ih =>
    refine step period fun next hnext => ih _ ?_ next rfl
    have := Date.lt_iff.1 (Frequency.lt_of_shift s.step_pos hnext)
    have := next.dayNumber_lt
    omega

/-- From a date on, a search depends on a query only through its tests on later candidates. -/
theorem seek_congr (hx : q.exclude = q'.exclude) {first : Date}
    (h : ∀ d, first ≤ d → q.accepts (s.momentOn d) = q'.accepts (s.momentOn d))
    (horizon period : Date) (hs : s.freq.periodStart period = period) (le : first ≤ period) :
    seek s q horizon period = seek s q' horizon period := by
  induction period using period_induct s with
  | step period ih =>
    rw [seek_eq, seek_eq]
    split
    · rfl
    · apply Except.bind_congr_ok
      intro l hl
      -- The candidates lie in the period, which begins on the first date or later
      have same : scan s q l = scan s q' l := by
        refine scan_congr hx fun m hm => ?_
        obtain ⟨on, start, -⟩ := Series.mem_candidates hl hs hm
        have := s.freq.periodStart_le m.date
        rw [start] at this
        rw [on]
        exact h m.date (Nat.le_trans le this)
      rw [same]
      apply Except.bind_congr_ok
      intro outcome _
      cases outcome with
      | found m rest => rfl
      | ended => rfl
      | none =>
        apply Except.bind_congr_ok
        intro next hnext
        have lt := Frequency.lt_of_shift s.step_pos hnext
        exact ih next hnext (Frequency.periodStart_shift hs hnext)
          (Nat.le_trans le (Nat.le_of_lt lt))

/-! ## Walks that stand at an occurrence -/

/-- What a walk of a series knows after an occurrence: its date, its period, which is visited and
not past the end, and the candidates after it in that period. -/
structure Follows (s : Series) (m : Moment) (w : Walk) : Prop where
  on : m = s.momentOn m.date
  anchored : m.isBefore s.anchor = false
  origin : w.origin = m.date
  period : w.period = s.freq.periodStart m.date
  visited : s.Visits (s.freq.periodNumber m.date)
  inside : s.isPastEndingDate w.period = false
  candidates : ∃ before, s.candidates w.period = .ok (before ++ m :: w.pending)

/-- What an occurrence of a query passes. -/
structure Passes (s : Series) (q : Query) (m : Moment) : Prop where
  admits : s.admits q m = true
  notPastEnd : s.isPastEnd m = false
  notLeftOut : leavesOut s q m = .ok false

/-- A search admits a moment that is not before the anchor and that the question accepts. -/
theorem admits_iff : s.admits q m = true ↔ m.isBefore s.anchor = false ∧ q.accepts m = true := by
  simp only [Series.admits, Bool.and_eq_true, Bool.not_eq_true']

/-- A search from a visited period hands out an occurrence together with a walk that stands at
it. -/
theorem seek_follows {horizon period : Date} {w : Walk} (hs : s.freq.periodStart period = period)
    (hv : s.Visits (s.freq.periodNumber period))
    (h : seek s q horizon period = .ok (some (m, w))) : Follows s m w ∧ Passes s q m := by
  induction period using period_induct s with
  | step period ih =>
    rw [seek_eq] at h
    split at h
    · injection h with h
      injection h
    · rename_i more
      obtain ⟨l, hl, h⟩ := Except.bind_eq_ok.1 h
      obtain ⟨outcome, hscan, h⟩ := Except.bind_eq_ok.1 h
      -- The moment was found in this period, or the search went on to the next one
      cases outcome with
      | found c rest =>
        injection h with h
        injection h with h
        injection h with hm hw
        subst hm hw
        obtain ⟨⟨before, rfl⟩, hadmits, hpast, hexcluded⟩ := scan_eq_found hscan
        obtain ⟨on, start, -⟩ := Series.mem_candidates hl hs
          (List.mem_append_right _ List.mem_cons_self)
        -- The period is not past the ending date, or the search would have stopped
        have inside : s.isPastEndingDate period = false :=
          Bool.eq_false_iff.2 fun hp => more (by rw [hp, Bool.or_true])
        have number : s.freq.periodNumber c.date = s.freq.periodNumber period := by
          rw [← start, Frequency.periodNumber_periodStart]
        exact ⟨⟨on, (admits_iff.1 hadmits).1, rfl, start.symm, number ▸ hv, inside, before, hl⟩,
          ⟨hadmits, hpast, hexcluded⟩⟩
      | ended =>
        injection h with h
        injection h
      | none =>
        obtain ⟨next, hnext, h⟩ := Except.bind_eq_ok.1 h
        refine ih next hnext (Frequency.periodStart_shift hs hnext) ?_ h
        rw [Frequency.periodNumber_shift hnext]
        exact hv.next

/-! ## Where a walk starts -/

/-- Rounding up gives the next multiple. -/
theorem roundUp_spec {n step : Int} (pos : 0 < step) :
    n ≤ roundUp n step ∧ roundUp n step < n + step ∧ step ∣ roundUp n step := by
  have hdiv := Int.mul_ediv_add_emod (-n) step
  have lo := Int.emod_nonneg (-n) (Int.ne_of_gt pos)
  have hi := Int.emod_lt_of_pos (-n) pos
  have eq : roundUp n step = -(step * (-n / step)) := by
    rw [roundUp, Int.neg_mul, Int.mul_comm]
  refine ⟨by omega, by omega, ?_⟩
  rw [eq]
  exact Int.dvd_neg.2 (Int.dvd_mul_right step _)

/-- A number is rounded to no more than any multiple of the step that is not below it. -/
theorem roundUp_le {n k step : Int} (pos : 0 < step) (hk : step ∣ k) (le : n ≤ k) :
    roundUp n step ≤ k := by
  obtain ⟨lo, hi, hdvd⟩ := roundUp_spec (n := n) pos
  obtain ⟨a, ha⟩ := hdvd
  obtain ⟨b, rfl⟩ := hk
  rw [ha] at hi ⊢
  -- With a larger quotient the rounded number would be a whole step too large
  refine Int.mul_le_mul_of_nonneg_left (Int.not_lt.1 fun gt => ?_) (Int.le_of_lt pos)
  have := Int.mul_le_mul_of_nonneg_left (show b + 1 ≤ a from gt) (Int.le_of_lt pos)
  rw [Int.mul_add] at this
  omega

/-- A number is rounded to the only multiple of the step that is so little above it. -/
theorem roundUp_eq {n k step : Int} (pos : 0 < step) (hk : step ∣ k) (le : n ≤ k)
    (lt : k < n + step) : roundUp n step = k := by
  obtain ⟨lo, -, hdvd⟩ := roundUp_spec (n := n) pos
  refine Int.le_antisymm (roundUp_le pos hk le) (Int.not_lt.1 fun gt => ?_)
  -- The rounded number is the least multiple that is not below itself
  obtain ⟨a, ha⟩ := hdvd
  obtain ⟨b, rfl⟩ := hk
  rw [ha] at lo gt
  have := Int.mul_le_mul_of_nonneg_left (show a + 1 ≤ b from
    Int.lt_of_mul_lt_mul_left gt (Int.le_of_lt pos)) (Int.le_of_lt pos)
  rw [Int.mul_add] at this
  omega

/-- The first period to search is the rounded distance from the anchor. -/
theorem firstPeriod_eq (s : Series) (d : Date) : firstPeriod s d =
    roundUp (s.freq.periodNumber d - s.freq.periodNumber s.reading.date) s.fields.step.val := by
  rw [firstPeriod, Frequency.periodsBetween_eq s.anchorPeriod_start,
    Frequency.periodNumber_periodStart, s.periodNumber_anchorPeriod]

/-- The first period of a search is the first visited one that is not before the floor's. -/
theorem visits_first {d start : Date} (le : s.reading.date ≤ d)
    (h : s.freq.shift s.anchorPeriod (firstPeriod s d) = .ok start) :
    s.freq.periodStart start = start ∧ s.Visits (s.freq.periodNumber start) ∧
      s.freq.periodNumber d ≤ s.freq.periodNumber start ∧
      s.freq.periodNumber start < s.freq.periodNumber d + s.fields.step.val := by
  have number := Frequency.periodNumber_shift h
  rw [s.periodNumber_anchorPeriod, firstPeriod_eq] at number
  obtain ⟨lo, hi, hdvd⟩ := roundUp_spec s.step_pos
    (n := s.freq.periodNumber d - s.freq.periodNumber s.reading.date)
  have mono : s.freq.periodNumber s.reading.date ≤ s.freq.periodNumber d :=
    Frequency.periodNumber_mono le
  refine ⟨Frequency.periodStart_shift s.anchorPeriod_start h, ⟨by omega, ?_⟩, by omega, by omega⟩
  rw [number, Int.add_comm, Int.add_sub_cancel]
  exact hdvd

/-- The period of a date that qualifies is the first one of a search from that date. -/
theorem shift_firstPeriod {d : Date} (hv : s.Visits (s.freq.periodNumber d)) :
    s.freq.shift s.anchorPeriod (firstPeriod s d) = .ok (s.freq.periodStart d) := by
  have pos := s.step_pos
  rw [firstPeriod_eq, roundUp_eq pos hv.2 (Int.le_refl _) (by omega)]
  have := Frequency.shift_eq_ok s.anchorPeriod_start (Frequency.periodStart_periodStart s.freq d)
  rwa [Frequency.periodNumber_periodStart, s.periodNumber_anchorPeriod] at this

/-- A search starts at the first visited period that can hold an answer. -/
theorem start_eq (s : Series) (q : Query) :
    start s q = (floor s q).date.shiftYears s.lookahead.val >>= fun horizon =>
      s.freq.shift s.anchorPeriod (firstPeriod s (floor s q).date) >>= seek s q horizon := rfl

/-- A search starts from its bound unless that is before the anchor. -/
theorem floor_eq_bound {bound : Moment} (hbound : q.after = some bound)
    (h : bound.isBefore s.anchor = false) : floor s q = bound := by
  simp [floor, hbound, h]

/-- A bound before the anchor does not matter. -/
theorem floor_eq_anchor (h : ∀ bound, q.after = some bound → bound.isBefore s.anchor = true) :
    floor s q = s.anchor := by
  unfold floor
  split
  · rfl
  · rename_i bound hbound
    exact if_pos (h bound hbound)

/-- A search never starts before the anchor. -/
theorem anchor_date_le_floor (hz : q.InZone s.zone) : s.reading.date ≤ (floor s q).date := by
  unfold floor
  split
  · exact Nat.le_refl _
  · rename_i bound hbound
    split
    · exact Nat.le_refl _
    · rename_i before
      have zone : bound.zone = s.anchor.zone := hz bound hbound
      have le := (Moment.isBefore_eq_false_iff zone).1 (Bool.eq_false_iff.2 before)
      exact Moment.date_le_of_ticks_le (a := s.anchor) le

/-- What answers a query lies on no earlier date than the floor. -/
theorem floor_le_of_admits (hz : q.InZone s.zone) {d : Date}
    (h : s.admits q (s.momentOn d) = true) : (floor s q).date ≤ d := by
  obtain ⟨anchored, accepted⟩ := admits_iff.1 h
  have later : s.anchor.date ≤ (s.momentOn d).date := Moment.date_le_of_ticks_le
    ((Moment.isBefore_eq_false_iff (show (s.momentOn d).zone = s.anchor.zone from rfl)).1 anchored)
  unfold floor
  -- The floor is the anchor, or the bound if that is not before the anchor
  split
  · exact later
  · rename_i bound hbound
    split
    · exact later
    · rw [Query.accepts, hbound] at accepted
      have zone : bound.zone = (s.momentOn d).zone := hz bound hbound
      have lt := (Moment.isBefore_iff zone).1 accepted
      exact Moment.date_le_of_ticks_le (b := s.momentOn d) (Nat.le_of_lt lt)

/-- A new walk hands out an occurrence together with a walk that stands at it. -/
theorem start_follows (hz : q.InZone s.zone) {w : Walk} (h : start s q = .ok (some (m, w))) :
    Follows s m w ∧ Passes s q m := by
  rw [start_eq] at h
  obtain ⟨horizon, -, h⟩ := Except.bind_eq_ok.1 h
  obtain ⟨period, hperiod, h⟩ := Except.bind_eq_ok.1 h
  obtain ⟨hs, hv, -⟩ := visits_first (anchor_date_le_floor hz) hperiod
  exact seek_follows hs hv h

/-- What comes after an accepted moment of a series is accepted as well. -/
theorem accepts_of_lt (hz : q.InZone s.zone) (on : m = s.momentOn m.date) (h : q.accepts m = true)
    {d : Date} (lt : m.date < d) : q.accepts (s.momentOn d) = true := by
  unfold Query.accepts at *
  split
  · rfl
  · rename_i bound hbound
    rw [hbound] at h
    have zone := hz bound hbound
    have hm : m.zone = s.zone := by rw [on]; rfl
    -- The bound is before the moment, and the moment before that of the later date
    have h1 := (Moment.isBefore_iff (zone.trans hm.symm)).1 h
    have h2 : m.isBefore (s.momentOn d) = true := by
      rw [on]
      exact Series.isBefore_momentOn.2 lt
    have h2 := (Moment.isBefore_iff (b := s.momentOn d) hm).1 h2
    exact (Moment.isBefore_iff (b := s.momentOn d) zone).2 (Nat.lt_trans h1 h2)

/-! ## Going on and starting again -/

namespace Follows

variable {w : Walk}

/-- A moment that a walk has found is in the zone of the series. -/
theorem zone (hf : Follows s m w) : m.zone = s.zone := by
  rw [hf.on]
  rfl

/-- An occurrence lies on no earlier date than the anchor. -/
theorem anchor_le (hf : Follows s m w) : s.reading.date ≤ m.date := by
  have zone : m.zone = s.anchor.zone := hf.zone
  have le := (Moment.isBefore_eq_false_iff zone).1 hf.anchored
  exact Moment.date_le_of_ticks_le (a := s.anchor) le

/-- An occurrence lies on a date that qualifies. -/
theorem qualifies (hf : Follows s m w) : s.Qualifies m.date := by
  obtain ⟨before, found⟩ := hf.candidates
  have start : s.freq.periodStart w.period = w.period := by
    rw [hf.period, Frequency.periodStart_periodStart]
  exact ⟨hf.visited, (Series.mem_candidates found start (m := m) (by simp)).2.2⟩

/-- A later occurrence lies on a later date. -/
theorem date_lt (hf : Follows s m w) {c : Moment} {next : Walk} (hf' : Follows s c next)
    (lt : m.isBefore c = true) : m.date < c.date := by
  rw [hf.on, hf'.on] at lt
  exact Series.isBefore_momentOn.1 lt

/-- The floor of a search beyond an occurrence is the occurrence. -/
theorem floor_beyond (hf : Follows s m w) (q : Query) : floor s (q.beyond m) = m :=
  floor_eq_bound rfl hf.anchored

/-- After an accepted occurrence, the query accepts just what comes later. -/
theorem accepts_beyond (hf : Follows s m w) (hz : q.InZone s.zone) (ha : q.accepts m = true)
    {d : Date} (lt : m.date < d) :
    q.accepts (s.momentOn d) = (q.beyond m).accepts (s.momentOn d) := by
  have h : m.isBefore (s.momentOn d) = true := by
    rw [hf.on]
    exact Series.isBefore_momentOn.2 lt
  rw [accepts_of_lt hz hf.on ha lt]
  exact h.symm

/-- The period of an occurrence begins before the horizon that the occurrence moves. -/
theorem period_le_horizon (hf : Follows s m w) {horizon : Date}
    (h : m.date.shiftYears s.lookahead.val = .ok horizon) : w.period ≤ horizon := by
  have ahead : m.date < horizon := Frequency.lt_of_shift
    (show (0 : Int) < s.lookahead.val from Int.ofNat_lt.2 s.lookahead.property)
    (show Frequency.yearly.shift m.date s.lookahead.val = .ok horizon from h)
  rw [hf.period]
  exact Nat.le_trans (s.freq.periodStart_le m.date) (Nat.le_of_lt ahead)

/-- The period of an occurrence is searched again beyond it: the horizon lies later. -/
theorem seek_again (hf : Follows s m w) {horizon : Date}
    (h : m.date.shiftYears s.lookahead.val = .ok horizon) (q : Query) :
    seek s q horizon w.period = s.candidates w.period >>=
      fun l => scan s q l >>= settle s q horizon w.period := by
  have reached : ¬ (horizon < w.period || s.isPastEndingDate w.period) = true := by
    rw [hf.inside, Bool.or_false, decide_eq_true_eq]
    exact Nat.not_lt.2 (hf.period_le_horizon h)
  rw [seek_eq, if_neg reached]

/-- Beyond an occurrence nothing is left of its period but the candidates after it. -/
theorem scan_again (hf : Follows s m w) (hz : q.InZone s.zone) (ha : q.accepts m = true)
    {before : List Moment} (h : s.candidates w.period = .ok (before ++ m :: w.pending)) :
    scan s (q.beyond m) (before ++ m :: w.pending) = scan s q w.pending := by
  have on : ∀ c ∈ before ++ m :: w.pending, c = s.momentOn c.date := fun c hc =>
    (Series.mem_candidates h (by rw [hf.period, Frequency.periodStart_periodStart]) hc).1
  obtain ⟨-, hpending, hbefore⟩ := List.pairwise_append.1 (Series.pairwise_candidates h)
  -- What comes up to the occurrence is not later than it
  have skip : ∀ c ∈ before ++ [m], s.admits (q.beyond m) c = false := by
    intro c hc
    have hcm : m.isBefore c = false := by
      rcases List.mem_append.1 hc with hc | hc
      · have lt := hbefore c hc m List.mem_cons_self
        have zone : c.zone = m.zone := by
          rw [hf.zone, on c (List.mem_append_left _ hc)]
          rfl
        have lt := (Moment.isBefore_iff zone).1 lt
        exact (Moment.isBefore_eq_false_iff zone.symm).2 (Nat.le_of_lt lt)
      · rw [List.mem_singleton.1 hc]
        exact m.isBefore_irrefl
    simp only [Series.admits, Query.accepts, Query.beyond, hcm, Bool.and_false]
  rw [show before ++ m :: w.pending = (before ++ [m]) ++ w.pending by simp, scan_append skip]
  refine scan_congr rfl fun c hc => ?_
  have lt := (List.pairwise_cons.1 hpending).1 c hc
  have hc := on c (by simp [hc])
  rw [hc, hf.on] at lt
  rw [hc]
  exact (hf.accepts_beyond hz ha (Series.isBefore_momentOn.1 lt)).symm

/-- Beyond an occurrence a search goes on from the next period as before. -/
theorem settle_again (hf : Follows s m w) (hz : q.InZone s.zone) (ha : q.accepts m = true)
    (horizon : Date) (outcome : Outcome) :
    settle s (q.beyond m) horizon w.period outcome = settle s q horizon w.period outcome := by
  cases outcome with
  | found c rest => rfl
  | ended => rfl
  | none =>
    apply Except.bind_congr_ok
    intro next hn
    have hs := Frequency.periodStart_shift
      (show s.freq.periodStart w.period = w.period by
        rw [hf.period, Frequency.periodStart_periodStart]) hn
    have number := Frequency.periodNumber_shift hn
    rw [hf.period, Frequency.periodNumber_periodStart] at number
    have pos := s.step_pos
    refine seek_congr (show (q.beyond m).exclude = q.exclude from rfl) (fun d le => ?_)
      horizon next hs (Nat.le_refl _)
    -- The next period is a later one than that of the occurrence
    have mono : s.freq.periodNumber next ≤ s.freq.periodNumber d :=
      Frequency.periodNumber_mono le
    have : s.freq.periodNumber m.date < s.freq.periodNumber d := by omega
    exact (hf.accepts_beyond hz ha (Frequency.lt_of_periodNumber_lt this)).symm

end Follows

/-- Going on from an occurrence is starting a new search beyond it. -/
theorem resume_eq_start {w : Walk} (hf : Follows s m w) (hz : q.InZone s.zone)
    (ha : q.accepts m = true) : resume s q w = start s (q.beyond m) := by
  obtain ⟨before, hl⟩ := hf.candidates
  rw [resume_eq, start_eq, hf.floor_beyond, hf.origin, shift_firstPeriod hf.visited]
  -- Both searches have the horizon of the occurrence and begin in its period
  cases hh : m.date.shiftYears s.lookahead.val with
  | error fault => rfl
  | ok horizon =>
    simp only [bind, Except.bind]
    rw [← hf.period, hf.seek_again hh, hl]
    simp only [bind, Except.bind]
    rw [hf.scan_again hz ha hl]
    cases scan s q w.pending with
    | error fault => rfl
    | ok outcome => exact (hf.settle_again hz ha horizon outcome).symm

/-- A walk that goes on hands out a later occurrence, and stands at it. -/
theorem resume_follows {w next : Walk} {c : Moment} (hf : Follows s m w) (hz : q.InZone s.zone)
    (ha : q.accepts m = true) (h : resume s q w = .ok (some (c, next))) :
    Follows s c next ∧ m.isBefore c = true ∧ Passes s q c := by
  rw [resume_eq_start hf hz ha] at h
  obtain ⟨hf', hp⟩ := start_follows (Query.inZone_beyond q hf.zone) h
  have lt : m.isBefore c = true := (admits_iff.1 hp.admits).2
  refine ⟨hf', lt, admits_iff.2 ⟨hf'.anchored, ?_⟩, hp.notPastEnd, hp.notLeftOut⟩
  rw [hf'.on]
  exact accepts_of_lt hz hf.on ha (hf.date_lt hf' lt)

/-- Whether a walk has not begun, or stands at an occurrence that its query accepts. -/
def Stands (s : Series) (q : Query) : Option Walk → Prop
  | none => True
  | some w => ∃ m, Follows s m w ∧ q.accepts m = true

/-- A walk stands where it found a moment that passes. -/
theorem Follows.stands {w : Walk} (hf : Follows s m w) (hp : Passes s q m) :
    Stands s q (some w) :=
  ⟨m, hf, (admits_iff.1 hp.admits).2⟩

/-- A step of a walk hands out an occurrence together with a walk that stands at it. -/
theorem step_follows {w : Option Walk} {next : Walk} (hz : q.InZone s.zone) (hw : Stands s q w)
    (h : step s q w = .ok (some (m, next))) : Follows s m next ∧ Passes s q m := by
  cases w with
  | none => exact start_follows hz h
  | some w =>
    obtain ⟨c, hf, ha⟩ := hw
    obtain ⟨hf', -, hp⟩ := resume_follows hf hz ha h
    exact ⟨hf', hp⟩

end Walk

/-! ## Walks without state -/

namespace Series

variable {s : Series} {q : Query} {m : Moment}

/-- What a walk takes is nothing, or an occurrence and what the walk takes from there. -/
theorem take_succ_eq_ok {limit : Nat} {w : Option Walk} {found : List Moment}
    (h : s.take q (limit + 1) w = .ok found) :
    (Walk.step s q w = .ok none ∧ found = []) ∨
      ∃ m next rest, Walk.step s q w = .ok (some (m, next)) ∧
        s.take q limit (some next) = .ok rest ∧ found = m :: rest := by
  rw [take] at h
  -- The first step fails, finds nothing, or finds what the others follow
  cases hr : Walk.step s q w with
  | error fault =>
    rw [hr] at h
    injection h
  | ok r =>
    rw [hr] at h
    cases r with
    | none =>
      injection h with h
      exact Or.inl ⟨rfl, h.symm⟩
    | some step =>
      obtain ⟨rest, hrest, rfl⟩ := Except.map_eq_ok.1 h
      exact Or.inr ⟨step.1, step.2, rest, rfl, hrest, rfl⟩

/-- A walk that stands at an occurrence takes what a new walk beyond it takes. -/
theorem take_resume {w : Walk} (hf : Walk.Follows s m w) (hz : q.InZone s.zone)
    (ha : q.accepts m = true) (limit : Nat) :
    s.take q limit (some w) = s.take (q.beyond m) limit none := by
  induction limit generalizing q m w with
  | zero => rfl
  | succ limit ih =>
    have hz' := Query.inZone_beyond q hf.zone
    have same : Walk.step s q (some w) = Walk.step s (q.beyond m) none :=
      Walk.resume_eq_start hf hz ha
    rw [take, take, same]
    -- Both walks take the same step, and then stand at the same occurrence
    cases hr : Walk.step s (q.beyond m) none with
    | error fault => rfl
    | ok r =>
      cases r with
      | none => rfl
      | some found =>
        obtain ⟨c, next⟩ := found
        obtain ⟨hf', -, hp⟩ := Walk.resume_follows hf hz ha (same.trans hr)
        obtain ⟨-, hp'⟩ := Walk.start_follows hz' hr
        have accepted := (Walk.admits_iff.1 hp.admits).2
        have accepted' := (Walk.admits_iff.1 hp'.admits).2
        simp only
        rw [ih hf' hz accepted, ih hf' hz' accepted']
        rfl

/-- The first occurrence of a query, if a search finds one. -/
def firstOf (s : Series) (q : Query) : Except CalendarFault (Option Moment) :=
  Option.map Prod.fst <$> Walk.start s q

/-- The occurrences of a query are its first one, and those beyond it. -/
theorem take_succ (hz : q.InZone s.zone) (limit : Nat) :
    s.take q (limit + 1) none = s.firstOf q >>= fun
      | none => .ok []
      | some m => (m :: ·) <$> s.take (q.beyond m) limit none := by
  rw [take, firstOf, show Walk.step s q none = Walk.start s q from rfl]
  -- Behind the first moment, resuming the walk is asking anew beyond that moment
  cases hr : Walk.start s q with
  | error fault => rfl
  | ok r =>
    cases r with
    | none => rfl
    | some found =>
      obtain ⟨m, next⟩ := found
      obtain ⟨hf, hp⟩ := Walk.start_follows hz hr
      simp only
      rw [take_resume hf hz (Walk.admits_iff.1 hp.admits).2]
      rfl

end Series

end Recurrence
