import Recurrence.Proofs.Positions

/-!
# Parallel series

Two series run in parallel if they select the same dates, count alike, and end and leave out the
same candidates, date by date. Their tokens may be written differently, their anchors may stand in
different passes, and their zones may be two with the same clocks. All their answers fall on the
same dates, and they fail alike.

* `Series.Parallel`: series that run in parallel.
* `Query.Alike`: queries that ask for the same, each in its own zone.
* `Walk.step_parallel`: one step of two walks.
* `Series.occurrencesAfter_alike`: two bounds that the zones read alike.
* `Series.occurrencesAfter_parallel`, `Series.nextAfter_parallel`: one bound in one zone.
-/

namespace Recurrence

/-- In one zone the order depends on the readings alone. -/
theorem Moment.isBefore_congr {a b a' b' : Moment} (zone : a.zone = b.zone)
    (zone' : a'.zone = b'.zone) (first : a.reading = a'.reading) (second : b.reading = b'.reading) :
    a.isBefore b = a'.isBefore b' := by
  rw [Bool.eq_iff_iff, isBefore_iff zone, isBefore_iff zone', first, second]

/-- Queries that ask for the same, each on the clocks of its own zone. -/
structure Query.Alike (zone zone' : Zone) (q q' : Query) : Prop where
  exclude : q'.exclude = q.exclude
  after : Option.Rel (fun m m' => m.zone = zone ∧ m'.zone = zone' ∧ m'.reading = m.reading)
    q.after q'.after

/-- A query in a zone asks for the same as itself. -/
theorem Query.InZone.alike {zone : Zone} {q : Query} (hz : q.InZone zone) :
    q.Alike zone zone q := by
  refine ⟨rfl, ?_⟩
  cases bound : q.after with
  | none => exact .none
  | some m => exact .some ⟨hz m bound, hz m bound, rfl⟩

namespace Series

/-- Series that select and count alike, and that end and leave out the same candidates. -/
structure Parallel (s s' : Series) : Prop where
  reading : s'.reading = s.reading
  lookahead : s'.lookahead = s.lookahead
  fields : s'.fields = { s.fields with
    ending := s'.fields.ending, exdates := s'.fields.exdates, keyOrder := s'.fields.keyOrder }
  endingDate : s'.endingDate = s.endingDate
  ends : ∀ d, s.reading.date ≤ d → s'.isPastEnd (s'.momentOn d) = s.isPastEnd (s.momentOn d)
  leavesOut : ∀ d, s.reading.date ≤ d →
    s'.isExcluded (s'.momentOn d) = s.isExcluded (s.momentOn d)

/-- Candidates of two series on one date, from the anchor on. -/
def Abreast (s s' : Series) (m m' : Moment) : Prop :=
  ∃ d, s.reading.date ≤ d ∧ m = s.momentOn d ∧ m' = s'.momentOn d

/-- Candidates of two series on the same dates. -/
def AllAbreast (s s' : Series) (l l' : List Moment) : Prop :=
  ∃ days : List Date, l = days.map s.momentOn ∧ l' = days.map s'.momentOn

variable {s s' : Series}

namespace Parallel

theorem freq (p : s.Parallel s') : s'.freq = s.freq := by
  unfold Series.freq
  rw [p.fields]

theorem step (p : s.Parallel s') : s'.fields.step = s.fields.step := by
  rw [p.fields]
  rfl

theorem count (p : s.Parallel s') : s'.fields.count = s.fields.count := by
  rw [p.fields]

/-- Parallel series have their candidates on the same dates. -/
theorem candidates (p : s.Parallel s') (start : Date) :
    Except.Rel (AllAbreast s s') (s.candidates start) (s'.candidates start) := by
  have days : (⟨s'.fields, s'.reading.date⟩ : Expansion).days start =
      (⟨s.fields, s.reading.date⟩ : Expansion).days start := by
    rw [p.reading, p.fields]
    rfl
  unfold Series.candidates
  rw [days]
  exact (Except.Rel.of_eq rfl).map fun found _ same => ⟨found, rfl, same ▸ rfl⟩

/-- A date is before both anchors or before neither. -/
theorem isBefore_anchor (p : s.Parallel s') (d : Date) :
    (s'.momentOn d).isBefore s'.anchor = (s.momentOn d).isBefore s.anchor := by
  refine Moment.isBefore_congr rfl rfl ?_ p.reading
  unfold momentOn
  rw [p.reading]

/-- A bound on the clocks of the zone is compared by readings. -/
theorem accepts (p : s.Parallel s') {q q' : Query} (hq : q.Alike s.zone s'.zone q') (d : Date) :
    q'.accepts (s'.momentOn d) = q.accepts (s.momentOn d) := by
  have after := hq.after
  unfold Query.accepts
  generalize q.after = v at after ⊢
  generalize q'.after = w at after ⊢
  cases after with
  | none => rfl
  | some bounds =>
    obtain ⟨zone, zone', reading⟩ := bounds
    refine Moment.isBefore_congr zone' zone reading ?_
    unfold momentOn
    rw [p.reading]

/-- Alike questions admit the same dates. -/
theorem admits (p : s.Parallel s') {q q' : Query} (hq : q.Alike s.zone s'.zone q') (d : Date) :
    s'.admits q' (s'.momentOn d) = s.admits q (s.momentOn d) := by
  rw [Series.admits, Series.admits, p.isBefore_anchor, p.accepts hq]

/-- Two searches begin on one date. -/
theorem floor_date (p : s.Parallel s') {q q' : Query} (hq : q.Alike s.zone s'.zone q') :
    (Walk.floor s' q').date = (Walk.floor s q).date := by
  have start : s'.anchor.date = s.anchor.date := by
    unfold Moment.date anchor
    rw [p.reading]
  have after := hq.after
  unfold Walk.floor
  generalize q.after = v at after ⊢
  generalize q'.after = w at after ⊢
  -- The bounds show the same reading, so they compare with the anchors alike
  cases after with
  | none => exact start
  | some bounds =>
    obtain ⟨zone, zone', reading⟩ := bounds
    have same : Moment.isBefore _ s'.anchor = Moment.isBefore _ s.anchor :=
      Moment.isBefore_congr zone' zone reading p.reading
    simp only [same]
    split
    · exact start
    · exact congrArg Reading.date reading

end Parallel

/-- A candidate that is not before the anchor lies on no earlier date. -/
theorem date_le_of_admits {q : Query} {d : Date} (h : s.admits q (s.momentOn d) = true) :
    s.reading.date ≤ d := by
  have zone : (s.momentOn d).zone = s.anchor.zone := rfl
  have anchored := (Walk.admits_iff.1 h).1
  have later : s.anchor.date ≤ (s.momentOn d).date :=
    Moment.date_le_of_ticks_le ((Moment.isBefore_eq_false_iff zone).1 anchored)
  exact later

end Series

/-! ## Walks -/

namespace Walk

variable {s s' : Series} {q q' : Query}

open Series (Parallel Abreast AllAbreast)

/-- Outcomes of two scans over the same dates. -/
inductive Outcome.Abreast (s s' : Series) : Outcome → Outcome → Prop where
  | found {m m' : Moment} {rest rest' : List Moment} (first : s.Abreast s' m m')
      (others : s.AllAbreast s' rest rest') : Abreast s s' (.found m rest) (.found m' rest')
  | ended : Abreast s s' .ended .ended
  | none : Abreast s s' .none .none

/-- Two walks that stand on the same date. -/
structure Beside (s s' : Series) (w w' : Walk) : Prop where
  origin : w'.origin = w.origin
  period : w'.period = w.period
  pending : s.AllAbreast s' w.pending w'.pending

/-- Two steps to the same date. -/
def StepBeside (s s' : Series) (r r' : Moment × Walk) : Prop :=
  s.Abreast s' r.1 r'.1 ∧ Beside s s' r.2 r'.2

/-- From the anchor on, parallel series leave out the same dates. -/
theorem leavesOut_parallel (p : s.Parallel s') (exclude : q'.exclude = q.exclude) {d : Date}
    (le : s.reading.date ≤ d) : leavesOut s' q' (s'.momentOn d) = leavesOut s q (s.momentOn d) := by
  unfold leavesOut
  rw [p.leavesOut d le, exclude]

/-- Scans of the same dates come to the same. -/
theorem scan_parallel (p : s.Parallel s') (hq : q.Alike s.zone s'.zone q') {l l' : List Moment}
    (h : s.AllAbreast s' l l') :
    Except.Rel (Outcome.Abreast s s') (scan s q l) (scan s' q' l') := by
  obtain ⟨days, rfl, rfl⟩ := h
  -- The series need only be alike from the anchor on: neither admits an earlier date
  induction days with
  | nil => exact .ok .none
  | cons d days ih =>
    rw [List.map_cons, List.map_cons, scan_cons, scan_cons, p.admits hq]
    split
    · rename_i admitted
      have le := Series.date_le_of_admits admitted
      rw [p.ends d le]
      split
      · exact .ok .ended
      · refine (Except.Rel.of_eq (leavesOut_parallel p hq.exclude le).symm).bind ?_
        rintro out _ rfl
        split
        · exact ih
        · exact .ok (.found ⟨d, le, rfl, rfl⟩ ⟨days, rfl, rfl⟩)
    · exact ih

/-- They are settled alike if the searches of later periods are alike. -/
theorem settle_parallel (p : s.Parallel s') {horizon period : Date} {outcome outcome' : Outcome}
    (h : outcome.Abreast s s' outcome')
    (next : ∀ start, s.freq.shift period s.fields.step.val = .ok start →
      Except.Rel (Option.Rel (StepBeside s s')) (seek s q horizon start)
        (seek s' q' horizon start)) :
    Except.Rel (Option.Rel (StepBeside s s')) (settle s q horizon period outcome)
      (settle s' q' horizon period outcome') := by
  cases h with
  | found first others =>
    obtain ⟨d, -, rfl, rfl⟩ := id first
    exact .ok (.some ⟨first, rfl, rfl, others⟩)
  | ended => exact .ok .none
  | none =>
    simp only [settle, p.freq, p.step]
    cases shifted : s.freq.shift period s.fields.step.val with
    | error fault => exact .error fault
    | ok start => exact next start shifted

/-- Parallel searches from one period on find the same dates. -/
theorem seek_parallel (p : s.Parallel s') (hq : q.Alike s.zone s'.zone q') (horizon period : Date) :
    Except.Rel (Option.Rel (StepBeside s s')) (seek s q horizon period)
      (seek s' q' horizon period) := by
  -- The periods of one walk are those of the other, so the search for one serves for both
  induction period using period_induct s with
  | step period ih =>
    have ending : s'.isPastEndingDate period = s.isPastEndingDate period := by
      unfold Series.isPastEndingDate
      rw [p.endingDate]
    rw [seek_eq, seek_eq, ending]
    split
    · exact .ok .none
    · refine (p.candidates period).bind fun l l' same => ?_
      exact (scan_parallel p hq same).bind fun _ _ same => settle_parallel p same ih

/-- They find the same dates from the start. -/
theorem start_parallel (p : s.Parallel s') (hq : q.Alike s.zone s'.zone q') :
    Except.Rel (Option.Rel (StepBeside s s')) (start s q) (start s' q') := by
  have period : s'.anchorPeriod = s.anchorPeriod := by
    rw [Series.anchorPeriod, Series.anchorPeriod, p.freq, p.reading]
  have first (d : Date) : firstPeriod s' d = firstPeriod s d := by
    rw [firstPeriod, firstPeriod, period, p.freq, p.step]
  rw [start_eq, start_eq, p.floor_date hq, p.lookahead, p.freq, period, first]
  refine (Except.Rel.of_eq rfl).bind ?_
  rintro horizon _ rfl
  refine (Except.Rel.of_eq rfl).bind ?_
  rintro start _ rfl
  exact seek_parallel p hq horizon start

/-- They do so when they are resumed. -/
theorem resume_parallel (p : s.Parallel s') (hq : q.Alike s.zone s'.zone q') {w w' : Walk}
    (h : Beside s s' w w') :
    Except.Rel (Option.Rel (StepBeside s s')) (resume s q w) (resume s' q' w') := by
  rw [resume_eq, resume_eq, h.origin, h.period, p.lookahead]
  refine (Except.Rel.of_eq rfl).bind ?_
  rintro horizon _ rfl
  refine (scan_parallel p hq h.pending).bind fun _ _ same => settle_parallel p same ?_
  exact fun start _ => seek_parallel p hq horizon start

/-- So they do with every step. -/
theorem step_parallel (p : s.Parallel s') (hq : q.Alike s.zone s'.zone q') {w w' : Option Walk}
    (h : Option.Rel (Beside s s') w w') :
    Except.Rel (Option.Rel (StepBeside s s')) (step s q w) (step s' q' w') := by
  cases h with
  | none => exact start_parallel p hq
  | some beside => exact resume_parallel p hq beside

end Walk

/-! ## Questions -/

namespace Series

variable {s s' : Series} {q q' : Query}

open Walk (Beside)

/-- Parallel series take the same dates. -/
theorem take_parallel (p : s.Parallel s') (hq : q.Alike s.zone s'.zone q') (limit : Nat)
    {w w' : Option Walk} (h : Option.Rel (Beside s s') w w') :
    Except.Rel (List.Forall₂ (Abreast s s')) (s.take q limit w) (s'.take q' limit w') := by
  induction limit generalizing w w' with
  | zero => exact .ok .nil
  | succ limit ih =>
    unfold take
    have stepped := Walk.step_parallel p hq h
    generalize Walk.step s q w = r at stepped ⊢
    generalize Walk.step s' q' w' = r' at stepped ⊢
    -- Both walks fail, end, or find one date and stand on it
    cases stepped with
    | error fault => exact .error fault
    | ok found =>
      cases found with
      | none => exact .ok .nil
      | some beside =>
        exact (ih (.some beside.2)).map fun _ _ others => .cons beside.1 others

/-- A moment answers the one question if the moment on the same date answers the other. -/
theorem answers_parallel (p : s.Parallel s') (hq : q.Alike s.zone s'.zone q') {m m' : Moment}
    (h : s.Abreast s' m m') : s'.answers q' m' = s.answers q m := by
  obtain ⟨d, le, rfl, rfl⟩ := h
  rw [answers, answers, p.accepts hq, p.leavesOut d le]

/-- Counted positions that answer are on the same dates. -/
theorem takeCounted_parallel (p : s.Parallel s') (hq : q.Alike s.zone s'.zone q')
    (count limit : Nat) {w w' : Option Walk} (h : Option.Rel (Beside s s') w w') :
    Except.Rel (List.Forall₂ (Abreast s s')) (s.takeCounted q count limit w)
      (s'.takeCounted q' count limit w') := by
  induction count generalizing limit w w' with
  | zero =>
    rw [takeCounted_zero, takeCounted_zero]
    exact .ok .nil
  | succ count ih =>
    cases limit with
    | zero => exact .ok .nil
    | succ limit =>
      rw [takeCounted_step, takeCounted_step]
      -- A counted walk asks for all candidates and tests each of them against the question later
      refine (Walk.step_parallel p ⟨rfl, .none⟩ h).bind fun r r' same => ?_
      cases same with
      | none => exact .ok .nil
      | some beside =>
        simp only [answers_parallel p hq beside.1]
        refine (Except.Rel.of_eq rfl).bind ?_
        rintro answer _ rfl
        split
        · exact (ih limit (.some beside.2)).map fun _ _ others => .cons beside.1 others
        · exact ih (limit + 1) (.some beside.2)

/-- Related results stay related as results of a request. -/
theorem orFail_rel {α β : Type} {r : α → β → Prop} {x : Except CalendarFault α}
    {y : Except CalendarFault β} (h : Except.Rel r x y) : Except.Rel r (orFail x) (orFail y) := by
  cases h with
  | ok related => exact .ok related
  | error fault => exact .error _

/-- Parallel series have their occurrences on the same dates. -/
theorem occurrences_parallel (p : s.Parallel s') {bound bound' : Option Moment}
    (bounds : Option.Rel (fun m m' => m.zone = s.zone ∧ m'.zone = s'.zone ∧
      m'.reading = m.reading) bound bound') (limit : Nat) :
    Except.Rel (List.Forall₂ (Abreast s s')) (s.occurrences bound limit)
      (s'.occurrences bound' limit) := by
  have hq : (⟨bound, true⟩ : Query).Alike s.zone s'.zone ⟨bound', true⟩ := ⟨rfl, bounds⟩
  unfold occurrences
  rw [p.count]
  split
  · exact orFail_rel (take_parallel p hq _ .none)
  · split
    · exact .ok .nil
    · split
      · exact .error _
      · exact orFail_rel (takeCounted_parallel p hq _ _ .none)

/-- Parallel series answer two questions alike whose bounds their zones read alike: on the same
dates, or with the same fault. -/
theorem occurrencesAfter_alike (p : s.Parallel s') {after after' : Option Stamp}
    (read : Except.Rel (Option.Rel fun m m' => m'.reading = m.reading)
      (after.mapM fun stamp => stamp.inZone s.zone)
      (after'.mapM fun stamp => stamp.inZone s'.zone)) (limit : Int) :
    Except.Rel (List.Forall₂ (Abreast s s')) (s.occurrencesAfter after limit)
      (s'.occurrencesAfter after' limit) := by
  unfold occurrencesAfter
  rw [orFail_bound, orFail_bound]
  refine (orFail_rel read.and_ok).bind ?_
  rintro bound bound' ⟨same, bounded, bounded'⟩
  have hz := Query.inZone_of_mapM bounded true
  have hz' := Query.inZone_of_mapM bounded' true
  -- One limit is too large for both series
  split
  · exact .error _
  · refine occurrences_parallel p ?_ _
    cases same with
    | none => exact .none
    | some reading => exact .some ⟨hz _ rfl, hz' _ rfl, reading⟩

/-- Parallel series in one zone answer a question alike. -/
theorem occurrencesAfter_parallel (p : s.Parallel s') (zone : s'.zone = s.zone)
    (after : Option Stamp) (limit : Int) :
    Except.Rel (List.Forall₂ (Abreast s s')) (s.occurrencesAfter after limit)
      (s'.occurrencesAfter after limit) := by
  refine occurrencesAfter_alike p ?_ limit
  rw [zone]
  refine (Except.Rel.of_eq rfl).mono ?_
  rintro bound _ rfl
  refine Option.Rel.refl ?_ bound
  exact fun m => rfl

/-- The next occurrence is the first of a list of one. -/
theorem nextAfter_of_occurrencesAfter {after after' : Option Stamp}
    (h : Except.Rel (List.Forall₂ (Abreast s s')) (s.occurrencesAfter after 1)
      (s'.occurrencesAfter after' 1)) :
    Except.Rel (Option.Rel (Abreast s s')) (s.nextAfter after) (s'.nextAfter after') := by
  refine h.map fun l l' same => ?_
  cases same with
  | nil => exact .none
  | cons first _ => exact .some first

end Series

end Recurrence
