import Recurrence.Proofs.Conversions
import Recurrence.Proofs.Parallel
import Recurrence.Proofs.RealTime

/-!
# Interchangeable schedules

Equality of schedules does not look at the pass over a repeated or skipped reading, at the zone in
which the end of a rule is told, nor at the names of zones that keep one offset. Where none of these
matters, equal schedules answer all questions alike.

* `Schedule.Aligned`: schedules that agree in what equality does not look at, where it matters.
* `Moment.isBefore_congr_of_isSame`: equal ends, told in one zone or in two.
* `Series.parallel_of_sameParts`: equal rules run in parallel.
* `Schedule.answers_of_isSame`: the answers of equal schedules.
-/

namespace Recurrence

/-! ## Moments -/

namespace Moment

variable {a b m n : Moment} {zone : Zone}

/-- Whether two moments are in the same pass, or in a reading whose passes do not differ. -/
def SamePass (a b : Moment) : Prop := a.second = b.second ∨ a.isUncertain = false

/-- Whether two moments are one and the same for whoever reads the clocks: in equal zones, with one
reading and one instant. -/
structure Coincides (a b : Moment) : Prop where
  zone : a.zone.isSame b.zone = true
  reading : b.reading = a.reading
  instant : b.instant = a.instant

/-- A moment with the same offset in both passes has not been repeated. -/
theorem not_isRepeated (certain : m.isUncertain = false) : ¬m.IsRepeated := by
  unfold IsRepeated
  rw [bne_eq_false_iff_eq.1 certain]
  exact Int.lt_irrefl _

/-- It has not been skipped either. -/
theorem not_isSkipped (certain : m.isUncertain = false) : ¬m.IsSkipped := by
  unfold IsSkipped
  rw [bne_eq_false_iff_eq.1 certain]
  exact Int.lt_irrefl _

/-- Equal moments have one instant if they are in the same pass. -/
theorem instant_eq_of_isSame (same : a.isSame b = true) (pass : a.SamePass b) :
    a.instant = b.instant := by
  rcases isSame_iff.1 same with ⟨zone, reading⟩ | ⟨-, instant, -, -⟩
  · rcases pass with second | certain
    · unfold instant offset
      rw [zone, reading, second]
    · exact instant_congr zone reading certain
  · exact instant

/-- Orderly clocks that do not change around two readings show them in the order of their
instants. -/
theorem ticks_lt_iff (orderly : m.zone.IsOrderly) (zone : a.zone = m.zone)
    (certain : a.isUncertain = false) (shown : ¬m.IsSkipped) :
    a.reading.ticks < m.reading.ticks ↔ a.instant < m.instant := by
  have repeated := not_isRepeated certain
  have skipped := not_isSkipped certain
  constructor
  · intro lt
    rcases instant_lt_of_ticks_lt orderly zone lt with lt | ⟨-, -, again, -⟩ | ⟨-, gap⟩ | ⟨-, gap⟩
    · exact lt
    · exact absurd again repeated
    · exact absurd gap skipped
    · exact absurd gap shown
  · intro lt
    -- Were the readings the other way round, one of the moments would be a repeated or a skipped
    -- one
    by_contra le
    rcases instant_le_of_ticks_le (zone ▸ orderly) zone.symm (Nat.not_lt.1 le) with
      le | ⟨-, -, -, again⟩ | ⟨-, gap⟩ | ⟨-, gap⟩
    · exact absurd lt (Int.not_lt.2 le)
    · exact absurd again repeated
    · exact absurd gap shown
    · exact absurd gap skipped

/-- What comes after one of two equal moments comes after the other, also where one of them is
compared by its reading and the other by its instant, if the clocks are orderly and do not skip what
comes. -/
theorem isBefore_congr_of_isSame (same : a.isSame b = true) (here : m.Coincides n)
    (pass : a.zone = m.zone ∨ a.SamePass b)
    (shown : (a.zone = m.zone ↔ b.zone = m.zone) ∨ m.zone.IsOrderly ∧ ¬m.IsSkipped) :
    a.isBefore m = b.isBefore n := by
  rcases Zone.isSame_iff.1 here.zone with own | ⟨offset, kept, kept'⟩
  case inr =>
    -- Where one offset is kept, instants are compared in any case
    have pass := pass.imp_left fun own : a.zone = m.zone =>
      (.inr (isUncertain_of_keptOffset (own ▸ kept)) : a.SamePass b)
    rw [isBefore_of_keptOffset kept, isBefore_of_keptOffset kept', here.instant,
      instant_eq_of_isSame same (pass.elim id id)]
  have zone : b.zone = n.zone ↔ b.zone = m.zone := by rw [own]
  unfold isBefore
  -- A moment told in the zone of `m` is compared by its reading, any other by its instant
  by_cases own : a.zone = m.zone <;> by_cases own' : b.zone = m.zone
  · have reading : a.reading = b.reading := by
      rcases isSame_iff.1 same with ⟨-, reading⟩ | ⟨apart, -⟩
      · exact reading
      · exact absurd (own.trans own'.symm) apart
    rw [if_pos own, if_pos (zone.2 own'), reading, here.reading]
  · rcases isSame_iff.1 same with ⟨together, -⟩ | ⟨-, instant, certain, -⟩
    · exact absurd (together.symm.trans own) own'
    · obtain ⟨orderly, shown⟩ := shown.resolve_left fun both => own' (both.1 own)
      rw [if_pos own, if_neg (mt zone.1 own'), decide_eq_decide,
        ticks_lt_iff orderly own certain shown, instant, here.instant]
  · rcases isSame_iff.1 same with ⟨together, -⟩ | ⟨-, instant, -, certain⟩
    · exact absurd (together.trans own') own
    · obtain ⟨orderly, shown⟩ := shown.resolve_left fun both => own (both.2 own')
      rw [if_neg own, if_pos (zone.2 own'), decide_eq_decide, here.reading,
        ticks_lt_iff orderly own' certain shown, instant]
  · rw [if_neg own, if_neg (mt zone.1 own'), instant_eq_of_isSame same (pass.resolve_left own),
      here.instant]

/-- At the instant of a reading that no offset change touches, clocks that keep readings show it. -/
theorem reading_of_ofInstant (keeps : a.zone.KeepsReadings) (certain : a.isUncertain = false)
    (h : ofInstant a.instant a.zone = .ok m) : m.reading = a.reading := by
  have shown := ticks_eq_shown keeps certain
  unfold ofInstant at h
  split at h
  · injection h
  · simp only at h
    split at h
    · injection h
    · rename_i reading hreading
      injection h with h
      subst h
      -- The instant shows the reading that it was computed from
      have ticks := Reading.ofTicks?_eq_some.1 hreading
      refine Reading.ticks_inj ?_
      simp only
      omega

/-- Equal moments are read as one on the clocks of equal zones. -/
theorem reading_inZone_congr {zone zone' : Zone} (keeps : zone.KeepsReadings)
    (zones : zone.isSame zone' = true) (same : a.isSame b = true)
    (pass : a.zone = zone ∨ a.SamePass b) (ha : a.inZone zone = .ok m)
    (hb : b.inZone zone' = .ok n) : m.reading = n.reading := by
  rcases Zone.isSame_iff.1 zones with rfl | ⟨offset, kept, kept'⟩
  case inr =>
    have pass := pass.imp_left fun own : a.zone = zone =>
      (.inr (isUncertain_of_keptOffset (own ▸ kept)) : a.SamePass b)
    have instants := instant_eq_of_isSame same (pass.elim id id)
    have first := ticks_inZone_of_keptOffset kept ha
    have second := ticks_inZone_of_keptOffset kept' hb
    exact Reading.ticks_inj (by omega)
  unfold inZone at ha hb
  -- A moment told in the zone is read as it stands, any other is found by its instant
  by_cases own : a.zone = zone <;> by_cases own' : b.zone = zone
  · rw [if_pos own] at ha
    rw [if_pos own'] at hb
    cases ha
    cases hb
    rcases isSame_iff.1 same with ⟨-, reading⟩ | ⟨apart, -⟩
    · exact reading
    · exact absurd (own.trans own'.symm) apart
  · rw [if_pos own] at ha
    rw [if_neg own'] at hb
    cases ha
    subst own
    rcases isSame_iff.1 same with ⟨together, -⟩ | ⟨-, instant, certain, -⟩
    · exact absurd together.symm own'
    · rw [← instant] at hb
      exact (reading_of_ofInstant keeps certain hb).symm
  · rw [if_neg own] at ha
    rw [if_pos own'] at hb
    cases hb
    subst own'
    rcases isSame_iff.1 same with ⟨together, -⟩ | ⟨-, instant, -, certain⟩
    · exact absurd together own
    · rw [instant] at ha
      exact reading_of_ofInstant keeps certain ha
  · rw [if_neg own, instant_eq_of_isSame same (pass.resolve_left own)] at ha
    rw [if_neg own'] at hb
    rw [Except.ok.inj (ha.symm.trans hb)]

end Moment

/-! ## Series -/

namespace Series

/-- Series that agree in what equality of rules does not look at, where it matters. -/
structure Aligned (s s' : Series) : Prop where
  /-- The anchors are in one pass, or no candidate is in a reading whose passes differ. -/
  pass : s'.second = s.second ∨ ∀ d, s.reading.date ≤ d → (s.momentOn d).isUncertain = false
  /-- The ends are in one pass unless they are compared by their readings. -/
  ending : ∀ t ∈ s.fields.ending, ∀ u ∈ s'.fields.ending,
    t.moment.zone = s.zone ∨ t.moment.SamePass u.moment
  /-- Both ends or neither are told in the zone, or its clocks are orderly and skip no candidate. -/
  shown : (∀ t ∈ s.fields.ending, ∀ u ∈ s'.fields.ending,
      (t.moment.zone = s.zone ↔ u.moment.zone = s.zone)) ∨
    s.zone.IsOrderly ∧ ∀ d, s.reading.date ≤ d → ¬(s.momentOn d).IsSkipped
  /-- What is left out is told in one pass unless it is a date of the zone. -/
  exdates : List.Forall₂ (fun t u => (t.dateOnly = true ∧ t.moment.zone = s.zone) ∨
    t.moment.SamePass u.moment) s.fields.exdates s'.fields.exdates

variable {s s' : Series}

/-- The moments on one date coincide if the series agree in reading and pass. -/
theorem coincides_momentOn (zones : s.zone.isSame s'.zone = true)
    (reading : s'.reading = s.reading) (aligned : s.Aligned s') {d : Date}
    (le : s.reading.date ≤ d) : (s.momentOn d).Coincides (s'.momentOn d) := by
  have reading : (s'.momentOn d).reading = (s.momentOn d).reading := by
    unfold momentOn
    rw [reading]
  refine ⟨zones, reading, ?_⟩
  -- In one zone the passes agree or do not matter; zones of one offset have no second pass
  rcases Zone.isSame_iff.1 zones with zone | ⟨offset, kept, kept'⟩
  · rcases aligned.pass with second | certain
    · unfold Moment.instant Moment.offset
      rw [reading]
      unfold momentOn
      rw [zone, second]
    · exact (Moment.instant_congr zone reading.symm (certain d le)).symm
  · have first := Moment.ticks_of_keptOffset (m := s.momentOn d) kept
    have second := Moment.ticks_of_keptOffset (m := s'.momentOn d) kept'
    rw [reading] at second
    omega

/-- Equal tokens are read as one date on the clocks of equal zones. -/
theorem date_congr (keeps : s.zone.KeepsReadings) (zones : s.zone.isSame s'.zone = true)
    {t u : DateToken} (same : t.isSame u = true)
    (pass : t.moment.zone = s.zone ∨ t.moment.SamePass u.moment) {d e : Date}
    (hd : Moment.date <$> t.moment.inZone s.zone = .ok d)
    (he : Moment.date <$> u.moment.inZone s'.zone = .ok e) : d = e := by
  obtain ⟨m, hm, rfl⟩ := Except.map_eq_ok.1 hd
  obtain ⟨n, hn, rfl⟩ := Except.map_eq_ok.1 he
  have reading := Moment.reading_inZone_congr keeps zones (DateToken.isSame_iff.1 same).1 pass hm hn
  unfold Moment.date
  rw [reading]

/-- The ending dates are equal. -/
theorem endingDate_congr (made : s.Made) (made' : s'.Made) (keeps : s.zone.KeepsReadings)
    (zones : s.zone.isSame s'.zone = true) (aligned : s.Aligned s')
    (same : Option.Rel (fun t u => t.isSame u = true) s.fields.ending s'.fields.ending) :
    s.endingDate = s'.endingDate := by
  have date := made.ending
  have date' := made'.ending
  have pass := aligned.ending
  generalize s.fields.ending = v at same date pass
  generalize s'.fields.ending = w at same date' pass
  cases same with
  | none => exact Except.ok.inj (date.symm.trans date')
  | some same =>
    rw [Option.mapM_some] at date date'
    obtain ⟨d, hd, eq⟩ := Except.map_eq_ok.1 date
    obtain ⟨e, he, eq'⟩ := Except.map_eq_ok.1 date'
    rw [← eq, ← eq', date_congr keeps zones same (pass _ rfl _ rfl) hd he]

/-- The excluded dates are equal. -/
theorem excludedDates_congr (made : s.Made) (made' : s'.Made) (keeps : s.zone.KeepsReadings)
    (zones : s.zone.isSame s'.zone = true) (aligned : s.Aligned s')
    (same : List.Forall₂ (fun t u => t.isSame u = true) s.fields.exdates s'.fields.exdates) :
    s.excludedDates = s'.excludedDates := by
  have kept := (same.and aligned.exdates).filter (p := (·.dateOnly)) (q := (·.dateOnly))
    fun t u related => (DateToken.isSame_iff.1 related.1).2.1.symm
  refine Except.eq_of_mapM kept made.dates made'.dates fun t u d e related hd he => ?_
  obtain ⟨⟨same, pass⟩, -⟩ := related
  exact date_congr keeps zones same (pass.imp And.right id) hd he

/-- The excluded instants are equal. -/
theorem excludedInstants_congr (made : s.Made) (made' : s'.Made) (aligned : s.Aligned s')
    (same : List.Forall₂ (fun t u => t.isSame u = true) s.fields.exdates s'.fields.exdates) :
    s.excludedInstants = s'.excludedInstants := by
  have kept := (same.and aligned.exdates).filter (p := fun t => !t.dateOnly)
    (q := fun u => !u.dateOnly) fun t u related => by rw [(DateToken.isSame_iff.1 related.1).2.1]
  refine Except.eq_of_mapM kept made.instants made'.instants fun t u i j related hi hj => ?_
  obtain ⟨⟨same, pass⟩, timed⟩ := related
  have pass := pass.resolve_left fun alone => by rw [alone.1] at timed; cases timed
  obtain ⟨m, hm, rfl⟩ := Except.map_eq_ok.1 hi
  obtain ⟨n, hn, rfl⟩ := Except.map_eq_ok.1 hj
  rw [Moment.instant_inUtc hm, Moment.instant_inUtc hn]
  exact Moment.instant_eq_of_isSame (DateToken.isSame_iff.1 same).1 pass

/-- Whether a moment is left out depends on its date and its instant alone. -/
theorem isExcluded_eq_instant (s : Series) (m : Moment) : s.isExcluded m =
    if s.excludedDates.contains m.date then .ok true
    else s.excludedInstants.contains <$> Moment.instant <$> m.inUtc := by
  unfold isExcluded
  cases m.inUtc <;> rfl

/-- Coinciding moments are left out alike by series that leave out the same dates and instants. -/
theorem isExcluded_congr {m n : Moment} (here : m.Coincides n)
    (dates : s.excludedDates = s'.excludedDates)
    (instants : s.excludedInstants = s'.excludedInstants) :
    s'.isExcluded n = s.isExcluded m := by
  have date : n.date = m.date := by
    unfold Moment.date
    rw [here.reading]
  have utc : Moment.instant <$> n.inUtc = Moment.instant <$> m.inUtc := by
    rw [Moment.instant_inUtc_eq, Moment.instant_inUtc_eq, here.instant]
  rw [isExcluded_eq_instant, isExcluded_eq_instant, date, utc, dates, instants]

/-- Equal rules run in parallel if they are aligned. -/
theorem parallel_of_sameParts (made : s.Made) (made' : s'.Made) (keeps : s.zone.KeepsReadings)
    (zones : s.zone.isSame s'.zone = true) (reading : s'.reading = s.reading)
    (lookahead : s'.lookahead = s.lookahead) (same : s.fields.sameParts s'.fields = true)
    (aligned : s.Aligned s') : s.Parallel s' where
  reading := reading
  lookahead := lookahead
  fields := Fields.eq_of_sameParts same
  endingDate :=
    (endingDate_congr made made' keeps zones aligned (Fields.ending_of_sameParts same)).symm
  ends d le := by
    have here := coincides_momentOn zones reading aligned le
    have pass := aligned.ending
    have shown := aligned.shown
    have same := Fields.ending_of_sameParts same
    unfold isPastEnd
    generalize s.fields.ending = v at same pass shown ⊢
    generalize s'.fields.ending = w at same pass shown ⊢
    cases same with
    | none => rfl
    | some same =>
      refine (Moment.isBefore_congr_of_isSame (DateToken.isSame_iff.1 same).1 here
        (pass _ rfl _ rfl) ?_).symm
      exact shown.imp (fun both => both _ rfl _ rfl) fun ⟨orderly, shown⟩ => ⟨orderly, shown d le⟩
  leavesOut d le :=
    have exdates := Fields.exdates_of_sameParts same
    isExcluded_congr (coincides_momentOn zones reading aligned le)
      (excludedDates_congr made made' keeps zones aligned exdates)
      (excludedInstants_congr made made' aligned exdates)

end Series

/-! ## Schedules -/

namespace Schedule

variable {a b : Schedule} {s s' : Series}

/-- What the series of two equal schedules have in common. -/
structure Related (a b : Schedule) (s s' : Series) : Prop where
  zone : s.zone = a.zone
  zone' : s'.zone = b.zone
  aligned : s.Aligned s'
  parallel : s.Parallel s'

/-- Answers of two schedules that coincide, each on the clocks of its own zone. -/
def Coincide (a b : Schedule) (m n : Moment) : Prop :=
  m.zone = a.zone ∧ n.zone = b.zone ∧ m.Coincides n

/-- Candidates of related series on one date coincide. -/
theorem Related.coincide (related : a.Related b s s') (zones : a.zone.isSame b.zone = true)
    {m n : Moment} (h : s.Abreast s' m n) : a.Coincide b m n := by
  obtain ⟨d, le, rfl, rfl⟩ := h
  have zones : s.zone.isSame s'.zone = true := related.zone ▸ related.zone' ▸ zones
  exact ⟨related.zone, related.zone',
    Series.coincides_momentOn zones related.parallel.reading related.aligned le⟩

/-- Related series answer alike after moments with one reading, each in its own zone. -/
theorem Related.occurrencesAfter (related : a.Related b s s') (zones : a.zone.isSame b.zone = true)
    {m m' : Moment} (hm : m.zone = a.zone) (hm' : m'.zone = b.zone)
    (reading : m'.reading = m.reading) (limit : Int) :
    Except.Rel (List.Forall₂ (a.Coincide b)) (s.occurrencesAfter (some m.stamp) limit)
      (s'.occurrencesAfter (some m'.stamp) limit) := by
  have own : m.stamp.inZone s.zone = .ok m := related.zone ▸ hm ▸ m.inZone_stamp
  have own' : m'.stamp.inZone s'.zone = .ok m' := related.zone' ▸ hm' ▸ m'.inZone_stamp
  refine (Series.occurrencesAfter_alike related.parallel ?_ limit).mono fun _ _ same =>
    same.imp fun _ _ => related.coincide zones
  rw [Option.mapM_some, Option.mapM_some, own, own']
  exact .ok (.some reading)

section

variable [ZoneDatabase] {reader reader' : SpokenReader} {source source' : Source}
  {given given' : Option When} {zone zone' : ZoneChoice} {lookahead : Option Int}

/-- A schedule has a series just where it has an anchor, which the series counts from. -/
theorem make_cases (h : @make _ reader source given zone lookahead = .ok a) :
    (a.anchor = none ∧ a.series = none) ∨ ∃ s : Series, a.anchor = some s.anchor ∧
      a.series = some s ∧ s.fields = a.fields ∧ s.zone = a.zone ∧
      (s.lookahead.val : Int) = lookaheadOr lookahead ∧ s.Made := by
  cases given with
  | none =>
    obtain ⟨_, -, h⟩ := Except.bind_eq_ok.1 h
    obtain ⟨_, -, h⟩ := Except.bind_eq_ok.1 h
    injection h with h
    subst h
    exact .inl ⟨rfl, rfl⟩
  | some given =>
    obtain ⟨anchor, s, -, -, hgiven, hanchor, hs, hmake⟩ := make_eq_ok h
    obtain ⟨fields, zone, years, start, made⟩ := Series.make_eq_ok hmake
    -- The anchor is in the zone already, so it is the start of the series
    have own : anchor.stamp.inZone a.zone = .ok anchor :=
      When.zone_resolve hgiven ▸ anchor.inZone_stamp
    rw [own] at start
    injection start with start
    exact .inr ⟨s, start ▸ hanchor, hs, fields, zone, years, made⟩

/-- The series of equal schedules run in parallel if they are aligned. -/
theorem related_of_isSame (ha : @make _ reader source given zone lookahead = .ok a)
    (hb : @make _ reader' source' given' zone' lookahead = .ok b) (same : a.isSame b = true)
    (keeps : a.zone.KeepsReadings) (aligned : ∀ s ∈ a.series, ∀ s' ∈ b.series, s.Aligned s') :
    Option.Rel (Related a b) a.series b.series := by
  obtain ⟨parts, anchor, zones⟩ := isSame_iff.1 same
  -- Either both schedules have an anchor or neither has
  rcases make_cases ha with ⟨none, none_s⟩ | ⟨s, anchor_a, hs, fields, own, years, made⟩ <;>
    rcases make_cases hb with ⟨none', none_s'⟩ | ⟨s', anchor_b, hs', fields', own', years', made'⟩
  · rw [none_s, none_s']
    exact .none
  · rw [none, anchor_b] at anchor
    cases anchor
  · rw [anchor_a, none'] at anchor
    cases anchor
  · rw [anchor_a, anchor_b] at anchor
    rw [hs, hs']
    have zones : s.zone.isSame s'.zone = true := own ▸ own' ▸ zones
    have reading : s.reading = s'.reading := by
      cases anchor with
      | some same =>
        rcases Zone.isSame_iff.1 zones with zone | ⟨offset, kept, kept'⟩
        · -- Anchors in one zone are equal by their readings, so only their passes may differ
          rcases Moment.isSame_iff.1 same with ⟨-, reading⟩ | ⟨apart, -⟩
          · exact reading
          · exact absurd zone apart
        · exact Moment.reading_of_isSame_of_keptOffset kept kept' same
    have lookahead : s'.lookahead = s.lookahead :=
      Subtype.ext (Int.ofNat.inj (years'.trans years.symm))
    have aligned := aligned s hs s' hs'
    exact .some ⟨own, own', aligned, Series.parallel_of_sameParts made made' (own ▸ keeps) zones
      reading.symm lookahead (fields ▸ fields' ▸ parts) aligned⟩

/-- Equal schedules that are aligned answer all questions alike: with occurrences that coincide one
by one, or with the same failure. A question for what comes after a moment has to mean one and the
same to the readers of spoken moments whom they ask, each under the name of its own zone. -/
theorem answers_of_isSame (ha : @make _ reader source given zone lookahead = .ok a)
    (hb : @make _ reader' source' given' zone' lookahead = .ok b) (same : a.isSame b = true)
    (keeps : a.zone.KeepsReadings) (aligned : ∀ s ∈ a.series, ∀ s' ∈ b.series, s.Aligned s') :
    Except.Rel (Option.Rel (a.Coincide b)) a.first b.first ∧
      ∀ (asked asked' : SpokenReader) (after : When),
        When.MeansOne asked asked' after a.zone b.zone →
          Except.Rel (Option.Rel (a.Coincide b)) (@next asked a after) (@next asked' b after) ∧
            ∀ limit : Int, Except.Rel (List.Forall₂ (a.Coincide b))
              (@nextOccurrences asked a after limit) (@nextOccurrences asked' b after limit) := by
  have zones := (isSame_iff.1 same).2.2
  have series : Except.Rel (Related a b) a.requireSeries b.requireSeries := by
    have series := related_of_isSame ha hb same keeps aligned
    unfold requireSeries
    generalize a.series = v at series ⊢
    generalize b.series = w at series ⊢
    cases series with
    | none => exact .error _
    | some related => exact .ok related
  refine ⟨?_, fun asked asked' after one => ?_⟩
  · refine series.bind fun s s' related => ?_
    -- The first occurrence is asked without a bound, so no reader is asked
    have all : Except.Rel (List.Forall₂ (s.Abreast s')) (s.occurrencesAfter none 1)
        (s'.occurrencesAfter none 1) :=
      Series.occurrencesAfter_alike related.parallel (.ok .none) 1
    exact (Series.nextAfter_of_occurrencesAfter all).mono fun _ _ found =>
      found.mono fun _ _ => related.coincide zones
  · -- Both readers make one moment of the bound, and from there on the series are parallel
    have several (limit : Int) : Except.Rel (List.Forall₂ (a.Coincide b))
        (@nextOccurrences asked a after limit) (@nextOccurrences asked' b after limit) := by
      refine series.bind fun s s' related => (When.resolve_alike zones one).and_ok.bind ?_
      rintro m m' ⟨reading, hm, hm'⟩
      exact related.occurrencesAfter zones (@When.zone_resolve asked _ _ _ hm)
        (@When.zone_resolve asked' _ _ _ hm') reading limit
    refine ⟨?_, several⟩
    rw [@next_eq asked, @next_eq asked']
    refine (several 1).map fun _ _ same => ?_
    cases same with
    | nil => exact .none
    | cons first _ => exact .some first

end

/-! ### Nights told in several ways -/

/-- Whether a schedule is made from its parts, its anchor and its zone. -/
def IsMade (s : Schedule) : Prop :=
  ∃ m ∈ s.anchor, make (.fields s.fields) (some (.stamp m.stamp)) (.given s.zone) none = .ok s

instance (s : Schedule) : Decidable s.IsMade := by
  unfold IsMade
  infer_instance

/-- Election night in Tokyo, where it is the afternoon. -/
def electionNightTokyo : Moment :=
  ⟨⟨sixthOfNovember, ⟨55800000000, by decide⟩⟩, .region .tokyo, false⟩

/-- The fifth of November as a token that spells the date alone, in one of two equal passes. -/
def fifthOfNovember (second : Bool) : DateToken :=
  ⟨⟨⟨⟨2012, 11, 5, by decide⟩, .midnight⟩, .region .newYork, second⟩, true, false⟩

/-- The nights of New York up to election night, without two of them. -/
def nightsToElection (ending : Moment) (second : Bool) (keyOrder : List Key) : Schedule :=
  startingAt (nightsUntil (some ⟨ending, false, false⟩)
      [fifthOfNovember second, ⟨novemberNight fourthOfNovember false, false, false⟩] keyOrder)
    (novemberNight thirdOfNovember false) (some sixthOfNovember)
    [(fifthOfNovember second).moment.date] [(novemberNight fourthOfNovember false).instant]

/-- Midnight in UTC at the beginning of November. -/
def startOfNovember : Moment := ⟨⟨⟨2012, 11, 1, by decide⟩, .midnight⟩, .zero, false⟩

/-- The nights with their end told in UTC. -/
def nightsInUtc : Schedule := nightsToElection electionNightUtc false []

/-- The nights with their end told in Tokyo, another pass and another order of keys. -/
def nightsInTokyo : Schedule := nightsToElection electionNightTokyo true [.exdate, .freq]

/-- Nights up to an end in one zone and at its instant in another one. -/
theorem nightsToElection_answers :
    nightsInUtc.IsMade ∧ nightsInTokyo.IsMade ∧ nightsInUtc.isSame nightsInTokyo = true ∧
      nightsInUtc.nextOccurrences (.stamp startOfNovember.stamp) 5 =
        .ok [novemberNight thirdOfNovember false, novemberNight sixthOfNovember false] ∧
      Except.Rel (List.Forall₂ (nightsInUtc.Coincide nightsInTokyo))
        (nightsInUtc.nextOccurrences (.stamp startOfNovember.stamp) 5)
        (nightsInTokyo.nextOccurrences (.stamp startOfNovember.stamp) 5) := by
  have made : nightsInUtc.IsMade := by decide +kernel
  have made' : nightsInTokyo.IsMade := by decide +kernel
  have same : nightsInUtc.isSame nightsInTokyo = true := by decide +kernel
  have orderly : Zone.IsOrderly (.region .newYork) :=
    Region.isOrderly_all .newYork (by simp [Region.all])
  have keeps : nightsInUtc.zone.KeepsReadings := orderly.keepsReadings
  obtain ⟨_, -, ha⟩ := id made
  obtain ⟨_, -, hb⟩ := id made'
  refine ⟨made, made', same, by decide +kernel,
    ((answers_of_isSame ha hb same keeps ?_).2 _ _ _ (When.meansOne_of_readAlike ?_)).2 5⟩
  case refine_2 => exact fun text given _ => rfl
  -- The two series agree in pass, end and exclusions
  intro s hs s' hs'
  cases hs
  cases hs'
  refine ⟨.inl rfl, ?_, .inl ?_, ?_⟩
  · rintro _ ⟨⟩ _ ⟨⟩
    exact .inr (.inl rfl)
  · rintro _ ⟨⟩ _ ⟨⟩
    decide +kernel
  · exact .cons (.inl ⟨rfl, rfl⟩) (.cons (.inr (.inl rfl)) .nil)

/-- Whether two schedules are equal and have occurrences at other instants after a moment. -/
structure Differ (a b : Schedule) (after : When) : Prop where
  made : a.IsMade
  made' : b.IsMade
  same : a.isSame b = true
  apart : List.map Moment.instant <$> a.nextOccurrences after 3 ≠
    List.map Moment.instant <$> b.nextOccurrences after 3

/-- Half past two is a time of day. -/
theorem halfPastTwo_lt : 9000000000 < ticksPerDay := by decide

/-- Half past two in New York on a day of March 2012. On the eleventh the clocks go forward. -/
def marchNight (date : Date) : Moment :=
  ⟨⟨date, ⟨9000000000, halfPastTwo_lt⟩⟩, .region .newYork, false⟩

def eleventhOfMarch : Date := ⟨2012, 3, 11, by decide⟩

/-- A quarter past three in New York on the eleventh of March, after the clocks have gone
forward. -/
def quarterPastThree : Moment :=
  ⟨⟨eleventhOfMarch, ⟨11700000000, by decide⟩⟩, .region .newYork, false⟩

/-- The same moment in UTC. -/
def quarterPastSeven : Moment := ⟨⟨eleventhOfMarch, ⟨26100000000, by decide⟩⟩, .zero, false⟩

/-- Six in the morning in UTC on a day. -/
def morning (date : Date) : Moment := ⟨⟨date, ⟨21600000000, by decide⟩⟩, .zero, false⟩

/-- The first date of the calendar is one. -/
theorem valid_dawn : (1 ≤ 1 ∧ 1 ≤ 9999) ∧ (1 ≤ 1 ∧ 1 ≤ 12) ∧
    (1 ≤ 1 ∧ 1 ≤ monthLength (isLeapYear 1) 1) := by decide

/-- Half past thirteen is a time of day. -/
theorem halfPastThirteen_lt : 48600000000 < ticksPerDay := by decide

/-- Half past one in the afternoon from the beginning of 2012 on, one hour east of UTC in a zone
that has been given a name or not. -/
def afternoonsOneHourEast (given : Option String) : Schedule :=
  startingAt (nightsUntil none [] [])
    ⟨⟨⟨2012, 1, 1, valid_first⟩, ⟨48600000000, halfPastThirteen_lt⟩⟩,
      .fixed 3600000000 given, false⟩
    none [] []

/-- The first midnight of the calendar one hour east of UTC, where the year has not begun. -/
def firstNight (given : Option String) : Moment :=
  ⟨⟨⟨1, 1, 1, valid_dawn⟩, .midnight⟩, .fixed 3600000000 given, false⟩

/-- The pass of the anchor shows in the answers, the pass of an exclusion and of an end that is told
in another zone, and whether the end is told in the zone while a night is skipped. The name of a
zone that keeps one offset shows in what a spoken text means, and which of two equal zones a moment
is told in at the edge of the calendar. -/
theorem equalNights_differ :
    Differ (startingAt (nightsUntil none [] []) (novemberNight fourthOfNovember false) none [] [])
        (startingAt (nightsUntil none [] []) (novemberNight fourthOfNovember true) none [] [])
        (.stamp (novemberNight thirdOfNovember false).stamp) ∧
      Differ
        (startingAt (nightsUntil none [⟨novemberNight fourthOfNovember false, false, false⟩] [])
          (novemberNight thirdOfNovember false) none []
          [(novemberNight fourthOfNovember false).instant])
        (startingAt (nightsUntil none [⟨novemberNight fourthOfNovember true, false, false⟩] [])
          (novemberNight thirdOfNovember false) none []
          [(novemberNight fourthOfNovember true).instant])
        (.stamp (novemberNight thirdOfNovember false).stamp) ∧
      Differ
        (startingAt
          (nightsUntil (some ⟨novemberNight fourthOfNovember false, false, false⟩) [] [])
          (morning thirdOfNovember) (some fourthOfNovember) [] [])
        (startingAt
          (nightsUntil (some ⟨novemberNight fourthOfNovember true, false, false⟩) [] [])
          (morning thirdOfNovember) (some fourthOfNovember) [] [])
        (.stamp (morning thirdOfNovember).stamp) ∧
      Differ
        (startingAt (nightsUntil (some ⟨quarterPastThree, false, false⟩) [] [])
          (marchNight ⟨2012, 3, 10, by decide⟩) (some eleventhOfMarch) [] [])
        (startingAt (nightsUntil (some ⟨quarterPastSeven, false, false⟩) [] [])
          (marchNight ⟨2012, 3, 10, by decide⟩) (some eleventhOfMarch) [] [])
        (.stamp (marchNight ⟨2012, 3, 10, by decide⟩).stamp) ∧
      Differ (afternoonsOneHourEast (some "Europe/Paris")) (afternoonsOneHourEast none)
        (.text "3 July 2012 14:00") ∧
      Differ (afternoonsOneHourEast (some "Europe/Paris")) (afternoonsOneHourEast none)
        (.stamp (firstNight (some "Europe/Paris")).stamp) := by
  refine ⟨?anchor, ?exclusion, ?ending, ?skipped, ?name, ?edge⟩
  all_goals exact ⟨by decide +kernel, by decide +kernel, by decide +kernel, by decide +kernel⟩

end Schedule

end Recurrence
