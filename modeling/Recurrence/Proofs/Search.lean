import Recurrence.Proofs.Restart

/-!
# What a search finds

A search walks from period to period and looks at one candidate at a time. What it finds can be told
from the candidates alone: they are gone through in order, those that are left out are passed over,
and the search stops at the first candidate that lies out of reach or past the end.

* `Series.through`: the candidates that such a search hands out.
* `Series.take_eq_through`: a walk hands out these, as many as were asked for.
-/

namespace Recurrence

namespace Series

variable {s : Series} {q : Query} {m : Moment} {origin : Date}

/-! ## Going through candidates -/

/-- Whether the lookahead from a date reaches the period of another. A lookahead that leaves the
calendar reaches all of it. -/
def reaches (s : Series) (origin d : Date) : Bool :=
  match origin.shiftYears s.lookahead.val with
  | .ok horizon => s.freq.periodStart d ≤ horizon
  | .error _ => true

/-- Whether a search from a date does not come to the period of another: it lies beyond the
lookahead, or begins after the date of the end. -/
def outOfReach (s : Series) (origin d : Date) : Bool :=
  !s.reaches origin d || s.isPastEndingDate (s.freq.periodStart d)

/-- The moments that a search from a date hands out of a list of candidates. Its lookahead starts
anew from every one of them. -/
def through (s : Series) (exclude : Bool) (origin : Date) : List Moment → List Moment
  | [] => []
  | m :: rest =>
    if s.outOfReach origin m.date || s.isPastEnd m then []
    else if exclude && s.excludes m then through s exclude origin rest
    else m :: through s exclude m.date rest

/-- All candidates of a series that answer a query. -/
def candidatesOf (s : Series) (q : Query) : List Moment :=
  ((Date.calendar.filter s.Qualifies).map s.momentOn).filter (s.admits q)

/-- All candidates of a question ascend. -/
theorem pairwise_candidatesOf (s : Series) (q : Query) :
    (s.candidatesOf q).Pairwise fun a b => a.isBefore b = true :=
  ((Date.pairwise_calendar.filter _).map _ fun _ _ h => isBefore_momentOn.2 h).filter _

/-- They are the admitted moments of the series. -/
theorem mem_candidatesOf : m ∈ s.candidatesOf q ↔
    m = s.momentOn m.date ∧ s.Qualifies m.date ∧ s.admits q m = true := by
  simp only [candidatesOf, List.mem_filter, List.mem_map, Date.mem_calendar, true_and,
    decide_eq_true_eq]
  constructor
  · rintro ⟨⟨d, hd, rfl⟩, hm⟩
    exact ⟨rfl, hd, hm⟩
  · rintro ⟨on, hd, hm⟩
    exact ⟨⟨m.date, hd, on.symm⟩, hm⟩

/-- A date is out of reach if its period begins behind the horizon or behind the ending date. -/
theorem outOfReach_eq {horizon d : Date} (h : origin.shiftYears s.lookahead.val = .ok horizon) :
    s.outOfReach origin d = (decide (horizon < s.freq.periodStart d) ||
      s.isPastEndingDate (s.freq.periodStart d)) := by
  rw [outOfReach, reaches, h, ← decide_not]
  exact congrArg (· || _) (decide_eq_decide.2 Nat.not_le)

/-- What the lookahead does not reach, it does not reach in later periods either. -/
theorem reaches_mono {d e : Date} (le : s.freq.periodStart d ≤ s.freq.periodStart e)
    (h : s.reaches origin d = false) : s.reaches origin e = false := by
  unfold reaches at *
  split at h
  · exact decide_eq_false fun le' => of_decide_eq_false h (Nat.le_trans le le')
  · injection h

/-- What lies after a date that is out of reach is out of reach as well. -/
theorem outOfReach_mono {d e : Date} (le : s.freq.periodStart d ≤ s.freq.periodStart e)
    (h : s.outOfReach origin d = true) : s.outOfReach origin e = true := by
  rw [outOfReach, Bool.or_eq_true, Bool.not_eq_true'] at h ⊢
  refine h.imp (reaches_mono le) fun h => ?_
  unfold isPastEndingDate at *
  split at h
  · injection h
  · exact decide_eq_true (Nat.lt_of_lt_of_le (of_decide_eq_true h) le)

/-- Nothing is found if everything is out of reach. -/
theorem through_eq_nil {exclude : Bool} {l : List Moment}
    (h : ∀ m ∈ l, s.outOfReach origin m.date = true) : s.through exclude origin l = [] := by
  cases l with
  | nil => rfl
  | cons m rest => rw [through, if_pos (by rw [h m List.mem_cons_self, Bool.true_or])]

/-- What is found stands in the list that is searched. -/
theorem through_sublist (s : Series) (exclude : Bool) (origin : Date) (l : List Moment) :
    (s.through exclude origin l).Sublist l := by
  induction l generalizing origin with
  | nil => exact .slnil
  | cons m l ih =>
    rw [through]
    split
    · exact List.nil_sublist _
    · split
      · exact (ih origin).cons m
      · exact (ih m.date).cons_cons m

end Series

namespace Walk

variable {s : Series} {q : Query} {m : Moment} {origin : Date}

/-! ## One period -/

/-- What is still to come of a search after the candidates of a period, and of all later ones. -/
def remaining (s : Series) (q : Query) (w : Walk) : List Moment :=
  w.pending.filter (s.admits q) ++
    s.candidatesFrom q (s.freq.periodNumber w.period + s.fields.step.val)

/-- What a search hands out when a scan has led to an outcome, with later candidates to come. -/
def outcomeThrough (s : Series) (q : Query) (origin : Date) (later : List Moment) :
    Outcome → List Moment
  | .found m rest => m :: s.through q.exclude m.date (rest.filter (s.admits q) ++ later)
  | .ended => []
  | .none => s.through q.exclude origin later

/-- What a search leaves out is what it is to exclude. -/
theorem leavesOut_eq (made : s.Made) (hz : m.zone = s.zone) {out : Bool}
    (h : leavesOut s q m = .ok out) : (q.exclude && s.excludes m) = out := by
  unfold leavesOut at h
  split at h
  · rename_i exclude
    rw [exclude, Bool.true_and, Series.isExcluded_eq made hz h]
  · rename_i keep
    injection h with h
    rw [Bool.eq_false_iff.2 keep, Bool.false_and, h]

/-- A scan goes through candidates within reach as a search does. -/
theorem through_scan (made : s.Made) {l : List Moment} (hz : ∀ m ∈ l, m.zone = s.zone)
    (reach : ∀ m ∈ l, s.outOfReach origin m.date = false) {outcome : Outcome}
    (h : scan s q l = .ok outcome) (later : List Moment) :
    s.through q.exclude origin (l.filter (s.admits q) ++ later) =
      outcomeThrough s q origin later outcome := by
  induction l with
  | nil =>
    injection h with h
    subst h
    rfl
  | cons m l ih =>
    have hm := reach m List.mem_cons_self
    have ih := ih (fun m hm => hz m (List.mem_cons_of_mem _ hm))
      fun m hm => reach m (List.mem_cons_of_mem _ hm)
    -- A candidate is passed over, ends the search, is left out or is found, on both sides alike
    rw [scan_cons] at h
    split at h
    · rename_i admitted
      rw [List.filter_cons_of_pos admitted, List.cons_append, Series.through, hm, Bool.false_or]
      split at h
      · rename_i past
        injection h with h
        subst h
        rw [if_pos past]
        rfl
      · rename_i past
        rw [if_neg past]
        obtain ⟨out, hout, h⟩ := Except.bind_eq_ok.1 h
        have excluded : (q.exclude && s.excludes m) = out :=
          leavesOut_eq made (hz m List.mem_cons_self) hout
        rw [excluded]
        cases out with
        | true => exact ih h
        | false =>
          injection h with h
          subst h
          rfl
    · rename_i refused
      rw [List.filter_cons_of_neg refused]
      exact ih h

/-! ## All periods -/

/-- What a search hands out from where a walk stands on. -/
def ahead (s : Series) (q : Query) : Option Walk → List Moment
  | none => s.through q.exclude (floor s q).date (s.candidatesOf q)
  | some w => s.through q.exclude w.origin (remaining s q w)

/-- What a search hands out when it has come to a result. -/
def resultThrough (s : Series) (q : Query) : Option (Moment × Walk) → List Moment
  | none => []
  | some (m, w) => m :: ahead s q (some w)

/-- Settling an outcome goes through the later candidates if seeking through the next period
does. -/
theorem through_settle {horizon period : Date} {outcome : Outcome}
    {r : Option (Moment × Walk)} (h : settle s q horizon period outcome = .ok r)
    (next : ∀ start, s.freq.shift period s.fields.step.val = .ok start →
      seek s q horizon start = .ok r → s.through q.exclude origin
        (s.candidatesFrom q (s.freq.periodNumber start)) = resultThrough s q r) :
    outcomeThrough s q origin
      (s.candidatesFrom q (s.freq.periodNumber period + s.fields.step.val)) outcome =
        resultThrough s q r := by
  -- Only where nothing has been found does the search go on to the next period
  cases outcome with
  | found m rest =>
    injection h with h
    subst h
    rfl
  | ended =>
    injection h with h
    subst h
    rfl
  | none =>
    obtain ⟨start, hstart, h⟩ := Except.bind_eq_ok.1 h
    rw [outcomeThrough, ← Frequency.periodNumber_shift hstart]
    exact next start hstart h

/-- A search from a visited period goes through the candidates from there on. -/
theorem through_seek (made : s.Made) {horizon period : Date} {r : Option (Moment × Walk)}
    (hh : origin.shiftYears s.lookahead.val = .ok horizon)
    (hs : s.freq.periodStart period = period) (hv : s.Visits (s.freq.periodNumber period))
    (h : seek s q horizon period = .ok r) :
    s.through q.exclude origin (s.candidatesFrom q (s.freq.periodNumber period)) =
      resultThrough s q r := by
  induction period using period_induct s with
  | step period ih =>
    rw [seek_eq] at h
    split at h
    · rename_i stop
      injection h with h
      subst h
      -- A search that stops at a period reaches nothing that lies later
      refine Series.through_eq_nil fun m hm => ?_
      have le := (Series.mem_candidatesFrom.1 hm).2.2.1
      have le : s.freq.periodStart period ≤ s.freq.periodStart m.date :=
        Frequency.periodStart_mono le
      refine Series.outOfReach_mono le ?_
      rw [Series.outOfReach_eq hh, hs]
      exact stop
    · rename_i go
      obtain ⟨l, hl, h⟩ := Except.bind_eq_ok.1 h
      obtain ⟨outcome, hscan, h⟩ := Except.bind_eq_ok.1 h
      have mem := fun m hm => Series.mem_candidates hl hs (m := m) hm
      have zone : ∀ m ∈ l, m.zone = s.zone := fun m hm => by
        rw [(mem m hm).1]
        rfl
      -- The candidates share the period, and the search has not stopped at it
      have reach : ∀ m ∈ l, s.outOfReach origin m.date = false := fun m hm => by
        rw [Series.outOfReach_eq hh, (mem m hm).2.1]
        exact Bool.eq_false_iff.2 go
      rw [Series.candidatesFrom_eq hl hs hv, through_scan made zone reach hscan]
      refine through_settle h fun start hstart h => ?_
      refine ih start hstart (Frequency.periodStart_shift hs hstart) ?_ h
      rw [Frequency.periodNumber_shift hstart]
      exact hv.next

/-- The candidates that answer a query lie in the first period of its search or later. -/
theorem candidatesFrom_first (hz : q.InZone s.zone) {start : Date}
    (h : s.freq.shift s.anchorPeriod (firstPeriod s (floor s q).date) = .ok start) :
    s.candidatesFrom q (s.freq.periodNumber start) = s.candidatesOf q := by
  obtain ⟨-, hv, -, lt⟩ := visits_first (anchor_date_le_floor hz) h
  simp only [Series.candidatesFrom, Series.candidatesOf, List.filter_map, List.filter_filter]
  congr 1
  refine List.filter_congr fun d _ => ?_
  rw [Bool.eq_iff_iff]
  simp only [Function.comp_apply, Bool.and_eq_true, decide_eq_true_eq]
  refine and_congr_right fun admits => and_iff_left_of_imp fun hd => ?_
  -- A date that qualifies lies in a visited period, and not before the floor
  have le : s.freq.periodNumber (floor s q).date ≤ s.freq.periodNumber d :=
    Frequency.periodNumber_mono (floor_le_of_admits hz admits)
  have := s.step_pos
  rcases Int.lt_or_le (s.freq.periodNumber d) (s.freq.periodNumber start) with before | after
  · rcases hd.1.eq_or_next_le hv (Int.le_of_lt before) with eq | next <;> omega
  · exact after

/-- A search that starts anew goes through all candidates of its query. -/
theorem through_start (made : s.Made) (hz : q.InZone s.zone) {r : Option (Moment × Walk)}
    (h : start s q = .ok r) :
    s.through q.exclude (floor s q).date (s.candidatesOf q) = resultThrough s q r := by
  rw [start_eq] at h
  obtain ⟨horizon, hh, h⟩ := Except.bind_eq_ok.1 h
  obtain ⟨period, hperiod, h⟩ := Except.bind_eq_ok.1 h
  obtain ⟨hs, hv, -⟩ := visits_first (anchor_date_le_floor hz) hperiod
  rw [← candidatesFrom_first hz hperiod]
  exact through_seek made hh hs hv h

/-- A search that goes on goes through what is still to come. -/
theorem through_resume (made : s.Made) {w : Walk} (hf : Follows s m w)
    {r : Option (Moment × Walk)} (h : resume s q w = .ok r) :
    s.through q.exclude w.origin (remaining s q w) = resultThrough s q r := by
  have hs : s.freq.periodStart w.period = w.period := by
    rw [hf.period, Frequency.periodStart_periodStart]
  have number : s.freq.periodNumber w.period = s.freq.periodNumber m.date := by
    rw [hf.period, Frequency.periodNumber_periodStart]
  rw [resume_eq] at h
  obtain ⟨horizon, hh, h⟩ := Except.bind_eq_ok.1 h
  obtain ⟨outcome, hscan, h⟩ := Except.bind_eq_ok.1 h
  obtain ⟨before, hl⟩ := hf.candidates
  have mem := fun c hc => Series.mem_candidates hl hs (m := c)
    (List.mem_append_right _ (List.mem_cons_of_mem _ hc))
  have zone : ∀ c ∈ w.pending, c.zone = s.zone := fun c hc => by
    rw [(mem c hc).1]
    rfl
  -- The horizon of the occurrence lies beyond its own period
  have le : w.period ≤ horizon := hf.period_le_horizon (hf.origin ▸ hh)
  have reach : ∀ c ∈ w.pending, s.outOfReach w.origin c.date = false := fun c hc => by
    rw [Series.outOfReach_eq hh, (mem c hc).2.1, hf.inside, Bool.or_false]
    exact decide_eq_false (Nat.not_lt.2 le)
  rw [remaining, through_scan made zone reach hscan]
  refine through_settle h fun start hstart h => ?_
  refine through_seek made hh (Frequency.periodStart_shift hs hstart) ?_ h
  rw [Frequency.periodNumber_shift hstart, number]
  exact hf.visited.next

/-- A step of a walk hands out the first moment of what lies ahead, and leaves the others. -/
theorem ahead_step (made : s.Made) (hz : q.InZone s.zone) {w : Option Walk} (hw : Stands s q w)
    {r : Option (Moment × Walk)} (h : step s q w = .ok r) : ahead s q w = resultThrough s q r := by
  cases w with
  | none => exact through_start made hz h
  | some w =>
    obtain ⟨c, hf, -⟩ := hw
    exact through_resume made hf h

end Walk

namespace Series

variable {s : Series} {q : Query}

/-- A walk takes as much as was asked for of what lies ahead of it. -/
theorem take_eq_ahead (made : s.Made) (hz : q.InZone s.zone) {w : Option Walk}
    (hw : Walk.Stands s q w) {limit : Nat} {found : List Moment}
    (h : s.take q limit w = .ok found) : found = (Walk.ahead s q w).take limit := by
  induction limit generalizing w found with
  | zero =>
    injection h with h
    rw [← h, List.take_zero]
  | succ limit ih =>
    rcases take_succ_eq_ok h with ⟨hr, rfl⟩ | ⟨m, next, rest, hr, hrest, rfl⟩
    · rw [Walk.ahead_step made hz hw hr]
      rfl
    · obtain ⟨hf, hp⟩ := Walk.step_follows hz hw hr
      rw [Walk.ahead_step made hz hw hr, ih (hf.stands hp) hrest]
      rfl

/-- A query is answered by what its search goes through, as much as was asked for. -/
theorem take_eq_through (made : s.Made) (hz : q.InZone s.zone) {limit : Nat}
    {found : List Moment} (h : s.take q limit none = .ok found) :
    found = (s.through q.exclude (Walk.floor s q).date (s.candidatesOf q)).take limit :=
  take_eq_ahead (w := none) made hz trivial h

end Series

end Recurrence
