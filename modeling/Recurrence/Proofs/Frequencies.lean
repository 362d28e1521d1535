import Recurrence.Proofs.Answers

/-!
# Frequencies that make no difference

Weekdays without ordinals select the same dates under every frequency, and so do days of the month
under every frequency but the weekly one, which takes a weekday from the anchor. Rules that differ
in such a frequency alone prescribe the same occurrences. Their searches differ only in where they
give up: the lookahead is compared with the first day of a period, and the periods are longer or
shorter.

* `Fields.NamesDates`: the rules whose dates do not depend on their frequency.
* `Series.prescribed_withFreq`: they prescribe the same occurrences.
* `Series.reaches_of_getElem?`: where the occurrences within the lookahead stop.
* `Series.occurrencesAfter_withFreq`: the answers of both.
-/

namespace Recurrence

/-! ## Dates -/

/-- An entry without an ordinal selects every date of a span that falls on its weekday. -/
theorem DayEntry.selectsIn_of_ordinal {entry : DayEntry} (h : entry.ordinal = 0)
    {first last d : Date} :
    entry.SelectsIn first last d ↔ (first ≤ d ∧ d ≤ last) ∧ d.weekday = entry.weekday := by
  simp [SelectsIn, h]

namespace Fields

/-- The parts of a rule with another frequency. -/
def withFreq (fields : Fields) (freq : Frequency) : Fields := { fields with freq := freq }

/-- Whether the lists of a rule name its dates under a frequency, with nothing left to the anchor
or to the length of a period: weekdays without ordinals do, and so do days of the month, unless the
rule is weekly. -/
def NamesDates (fields : Fields) (freq : Frequency) : Prop :=
  (fields.byDay ≠ [] ∧ ∀ entry ∈ fields.byDay, entry.ordinal = 0) ∨
    (fields.byMonthDay ≠ [] ∧ fields.byDay = [] ∧ freq ≠ .weekly)

end Fields

namespace Expansion

variable {x : Expansion} {d : Date}

/-- Weekdays without ordinals are looked at alone, inside whatever span they stand. -/
theorem matchesEntry_of_ordinals (h : ∀ entry ∈ x.fields.byDay, entry.ordinal = 0) :
    x.MatchesEntry d ↔ ∃ entry ∈ x.fields.byDay, d.weekday = entry.weekday := by
  have year : d.yearStart ≤ d ∧ d ≤ d.yearEnd := Date.mem_year_iff.2 rfl
  have month : d.monthStart ≤ d ∧ d ≤ d.monthEnd := Date.mem_month_iff.2 rfl
  apply exists_congr
  intro entry
  apply and_congr_right
  intro listed
  rw [DayEntry.selectsIn_of_ordinal (h entry listed),
    DayEntry.selectsIn_of_ordinal (h entry listed)]
  -- A date lies inside its own month and inside its own year
  simp only [year, month, and_self, true_and, ite_self]

/-- Days of the month leave nothing to the anchor, unless the rule is weekly. -/
theorem matchesAnchor_of_monthDays (days : x.fields.byMonthDay ≠ [])
    (freq : x.fields.freq ≠ .weekly) : x.MatchesAnchor d := by
  refine ⟨?_, ?_, ?_⟩
  · intro weekly
    exact absurd weekly freq
  · intro _ none
    exact absurd none days
  · intro _ none
    exact absurd none days

/-- The dates of a rule whose lists name them, told without the frequency. -/
theorem selects_of_namesDates (names : x.fields.NamesDates x.fields.freq) :
    x.Selects d ↔ x.MatchesMonth d ∧ x.MatchesMonthDay d ∧
      (x.fields.byDay = [] ∨ ∃ entry ∈ x.fields.byDay, d.weekday = entry.weekday) := by
  apply and_congr_right
  intro _
  apply and_congr_right
  intro _
  cases names with
  | inl weekdays =>
    obtain ⟨listed, ordinals⟩ := weekdays
    simp only [listed, if_false, false_or, matchesEntry_of_ordinals ordinals]
  | inr monthDays =>
    obtain ⟨listed, none, freq⟩ := monthDays
    simp only [none, if_true, true_or, matchesAnchor_of_monthDays listed freq]

end Expansion

/-! ## Prescribed occurrences -/

namespace Series

variable {s : Series} {freq : Frequency} {bound : Option Moment} {origin : Date}

/-- The series with another frequency. -/
def withFreq (s : Series) (freq : Frequency) : Series :=
  { s with fields := s.fields.withFreq freq }

/-- With a step of one period, a series visits every period from the anchor's on. -/
theorem visits_of_step_one (step : s.fields.step = .one) {n : Int} :
    s.Visits n ↔ s.freq.periodNumber s.reading.date ≤ n := by
  unfold Visits
  rw [step]
  exact and_iff_left (Int.one_dvd _)

/-- What qualifies from the anchor on does not depend on the frequency, if the lists name the
dates. -/
theorem qualifies_withFreq (step : s.fields.step = .one)
    (names : s.fields.NamesDates s.fields.freq) (names' : s.fields.NamesDates freq) {d : Date}
    (le : s.reading.date ≤ d) : (s.withFreq freq).Qualifies d ↔ s.Qualifies d := by
  have visited : s.Visits (s.freq.periodNumber d) :=
    (visits_of_step_one step).2 (Frequency.periodNumber_mono le)
  have visited' : (s.withFreq freq).Visits ((s.withFreq freq).freq.periodNumber d) :=
    (visits_of_step_one (s := s.withFreq freq) step).2 (Frequency.periodNumber_mono le)
  have selects := Expansion.selects_of_namesDates (x := s.expansion) (d := d) names
  have selects' := Expansion.selects_of_namesDates (x := (s.withFreq freq).expansion) (d := d)
    names'
  unfold Qualifies
  rw [and_iff_right visited, and_iff_right visited', selects, selects']
  exact Iff.rfl

/-- Rules whose lists name their dates prescribe the same occurrences under each frequency. -/
theorem prescribed_withFreq (step : s.fields.step = .one)
    (names : s.fields.NamesDates s.fields.freq) (names' : s.fields.NamesDates freq)
    (hz : (⟨bound, true⟩ : Query).InZone s.zone) :
    (s.withFreq freq).prescribed bound = s.prescribed bound := by
  simp only [prescribed, List.filter_map, List.filter_filter]
  congr 1
  apply List.filter_congr
  intro d _
  rw [Bool.eq_iff_iff]
  simp only [Function.comp_apply, Bool.and_eq_true, decide_eq_true_eq]
  -- What is admitted lies on no earlier date than the anchor
  apply and_congr_right
  intro kept
  have admitted : s.admits ⟨bound, true⟩ (s.momentOn d) = true := kept.1
  have le : s.reading.date ≤ d :=
    Nat.le_trans (Walk.anchor_date_le_floor hz) (Walk.floor_le_of_admits hz admitted)
  exact qualifies_withFreq step names names' le

/-! ## Where a search gives up -/

/-- The date from which the lookahead counts after some occurrences: that of the last one, or the
date from which it counted before them. -/
def originBeyond (origin : Date) (found : List Moment) : Date :=
  (found.getLast?.map (·.date)).getD origin

/-- The origin beyond a list is measured from its last moment, so the first one does not matter. -/
theorem originBeyond_cons (origin : Date) (m : Moment) (found : List Moment) :
    originBeyond origin (m :: found) = originBeyond m.date found := by
  unfold originBeyond
  rw [List.getLast?_cons]
  cases found.getLast? <;> rfl

/-- The first moment of a list that is not within the lookahead is not reached from the last one
that is. -/
theorem reaches_of_getElem? {l : List Moment} {m : Moment}
    (h : l[(s.withinLookahead origin l).length]? = some m) :
    s.reaches (originBeyond origin (s.withinLookahead origin l)) m.date = false := by
  induction l generalizing origin with
  | nil => injection h
  | cons c l ih =>
    rw [withinLookahead] at h ⊢
    by_cases reached : s.reaches origin c.date = true
    · rw [if_pos reached] at h ⊢
      rw [originBeyond_cons]
      exact ih h
    · rw [if_neg reached] at h ⊢
      injection h with h
      subst h
      exact Bool.eq_false_iff.2 reached

/-- What the lookahead does not reach lies beyond it. -/
theorem exists_horizon_of_reaches {d : Date} (h : s.reaches origin d = false) :
    ∃ horizon, origin.shiftYears s.lookahead.val = .ok horizon ∧ horizon < d := by
  unfold reaches at h
  split at h
  · rename_i horizon hh
    refine ⟨horizon, hh, ?_⟩
    have lt : horizon < s.freq.periodStart d := Nat.not_le.1 (of_decide_eq_false h)
    exact Nat.lt_of_lt_of_le lt (s.freq.periodStart_le d)
  · injection h

/-! ## The answers under both frequencies -/

/-- Rules that differ in their frequency make series that do. -/
theorem eq_withFreq {fields : Fields} {freq freq' : Frequency} {anchor : Stamp} {zone : Zone}
    {lookahead : Int} {s s' : Series}
    (hs : make (fields.withFreq freq) anchor zone lookahead = .ok s)
    (hs' : make (fields.withFreq freq') anchor zone lookahead = .ok s') :
    s' = s.withFreq freq' := by
  have congr : make (fields.withFreq freq') anchor zone lookahead =
      (fun s => { s with fields := fields.withFreq freq' }) <$>
        make (fields.withFreq freq) anchor zone lookahead :=
    make_congr (by rfl) (by rfl) anchor zone lookahead
  rw [hs, hs'] at congr
  injection congr with congr
  rw [congr, withFreq, (make_eq_ok hs).1]
  rfl

/-- Without a count and an end, the answers under both frequencies begin what is prescribed. Those
under one of them stop only before what the lookahead does not reach. -/
theorem answersAfter_withFreq (made : s.Made) (made' : (s.withFreq freq).Made)
    (hcount : s.fields.count = none) (hend : s.fields.ending = none)
    (step : s.fields.step = .one) (names : s.fields.NamesDates s.fields.freq)
    (names' : s.fields.NamesDates freq) (hz : (⟨bound, true⟩ : Query).InZone s.zone) :
    s.answersAfter bound <+: s.prescribed bound ∧
      (s.withFreq freq).answersAfter bound <+: s.prescribed bound ∧
      ∀ m, (s.prescribed bound)[(s.answersAfter bound).length]? = some m →
        s.reaches (originBeyond (s.originAfter bound) (s.answersAfter bound)) m.date = false := by
  have inZone : s.EndsInZone := by
    intro token htoken
    rw [hend] at htoken
    injection htoken
  rw [answersAfter_eq_withinLookahead made hcount inZone,
    answersAfter_eq_withinLookahead made' hcount inZone, prescribed_withFreq step names names' hz]
  have begins := withinLookahead_prefix s (s.originAfter bound) (s.prescribed bound)
  have begins' :=
    withinLookahead_prefix (s.withFreq freq) (s.originAfter bound) (s.prescribed bound)
  refine ⟨begins, begins', ?_⟩
  intro m hm
  exact reaches_of_getElem? hm

/-- Rules whose lists name their dates have the same answers under each frequency, as far as both
go. The shorter answer ends early only before an occurrence that lies more than the lookahead after
the one before it, or after the bound and the anchor if there is none before it. -/
theorem occurrencesAfter_withFreq {fields : Fields} {freq freq' : Frequency} {anchor : Stamp}
    {zone : Zone} {lookahead : Int} {s s' : Series}
    (hs : make (fields.withFreq freq) anchor zone lookahead = .ok s)
    (hs' : make (fields.withFreq freq') anchor zone lookahead = .ok s')
    (hcount : fields.count = none) (hend : fields.ending = none) (hstep : fields.step = .one)
    (names : fields.NamesDates freq) (names' : fields.NamesDates freq')
    {after : Option Stamp} {limit : Int} {found found' : List Moment}
    (h : s.occurrencesAfter after limit = .ok found)
    (h' : s'.occurrencesAfter after limit = .ok found') (le : found.length ≤ found'.length) :
    found <+: found' ∧ ∀ m, found'[found.length]? = some m →
      ∃ bound horizon, after.mapM (fun stamp => stamp.inZone zone) = .ok bound ∧
        (originBeyond (s.originAfter bound) found).shiftYears lookahead = .ok horizon ∧
        horizon < m.date := by
  have other := eq_withFreq hs hs'
  subst other
  obtain ⟨hfields, rfl, rfl, -, made⟩ := make_eq_ok hs
  obtain ⟨-, -, -, -, made'⟩ := make_eq_ok hs'
  obtain ⟨bound, hbound, rfl⟩ := occurrencesAfter_eq_answers made h
  obtain ⟨bound', hbound', rfl⟩ := occurrencesAfter_eq_answers made' h'
  have eq : bound' = bound := Except.ok.inj (hbound'.symm.trans hbound)
  subst eq
  have hz : (⟨bound', true⟩ : Query).InZone s.zone := Query.inZone_of_mapM hbound true
  obtain ⟨begins, begins', stops⟩ : s.answersAfter bound' <+: s.prescribed bound' ∧
      (s.withFreq freq').answersAfter bound' <+: s.prescribed bound' ∧
      ∀ m, (s.prescribed bound')[(s.answersAfter bound').length]? = some m →
        s.reaches (originBeyond (s.originAfter bound') (s.answersAfter bound')) m.date = false := by
    apply answersAfter_withFreq made made' _ _ _ _ _ hz <;> rw [hfields] <;> assumption
  obtain ⟨shorter, missing⟩ := List.take_prefix_take begins begins' _ le
  refine ⟨shorter, ?_⟩
  intro m hm
  -- What the other series goes on with is prescribed, and this one does not reach it
  obtain ⟨whole, next⟩ := missing m hm
  obtain ⟨horizon, hhorizon, lt⟩ := exists_horizon_of_reaches (stops m next)
  rw [whole]
  exact ⟨bound', horizon, hbound, hhorizon, lt⟩

/-- The nineteenth of April and of October, without two of them. -/
def halfYears : Fields where
  freq := .yearly
  interval := none
  count := none
  ending := none
  byMonth := ⟨[⟨4, by decide⟩, ⟨10, by decide⟩], by decide⟩
  byMonthDay := [⟨19, by decide⟩]
  byDay := []
  exdates :=
    [⟨⟨⟨⟨2018, 10, 19, by decide⟩, .midnight⟩, .region .utc, false⟩, true, false⟩,
      ⟨⟨⟨⟨2019, 4, 19, by decide⟩, .midnight⟩, .region .utc, false⟩, true, false⟩]
  keyOrder := []
  dayFilters := .inr rfl

/-- The half-years from April 2018 on, under some frequency. -/
def halfYearSeries (freq : Frequency) : Series where
  fields := halfYears.withFreq freq
  zone := .region .utc
  reading := ⟨⟨2018, 4, 19, by decide⟩, .midnight⟩
  second := false
  lookahead := .one
  endingDate := none
  excludedDates := [⟨2018, 10, 19, by decide⟩, ⟨2019, 4, 19, by decide⟩]
  excludedInstants := []

/-- The stamp from which the half-years count. -/
def halfYearAnchor : Stamp := ⟨(halfYearSeries .yearly).reading, false, none⟩

/-- The first of the half-years that are left. -/
def firstHalfYear : Moment := (halfYearSeries .yearly).anchor

/-- The second of them. -/
def secondHalfYear : Moment := (halfYearSeries .yearly).momentOn ⟨2019, 10, 19, by decide⟩

/-- The first two occurrences are a year and a half apart. Month by month the search gives up after
a year, and year by year it does not. -/
theorem halfYears_withFreq :
    make (halfYears.withFreq .monthly) halfYearAnchor (.region .utc) 1 =
        .ok (halfYearSeries .monthly) ∧
      make (halfYears.withFreq .yearly) halfYearAnchor (.region .utc) 1 =
        .ok (halfYearSeries .yearly) ∧
      (halfYearSeries .monthly).occurrencesAfter none 2 = .ok [firstHalfYear] ∧
      (halfYearSeries .yearly).occurrencesAfter none 2 = .ok [firstHalfYear, secondHalfYear] ∧
      [firstHalfYear] <+: [firstHalfYear, secondHalfYear] ∧
      ∃ horizon, (originBeyond halfYearAnchor.reading.date [firstHalfYear]).shiftYears 1 =
        .ok horizon ∧ horizon < secondHalfYear.date := by
  have made : make (halfYears.withFreq .monthly) halfYearAnchor (.region .utc) 1 =
      .ok (halfYearSeries .monthly) := rfl
  have made' : make (halfYears.withFreq .yearly) halfYearAnchor (.region .utc) 1 =
      .ok (halfYearSeries .yearly) := rfl
  have found : (halfYearSeries .monthly).occurrencesAfter none 2 = .ok [firstHalfYear] := by
    decide +kernel
  have found' : (halfYearSeries .yearly).occurrencesAfter none 2 =
      .ok [firstHalfYear, secondHalfYear] := by
    decide +kernel
  -- Both frequencies read the named days alike
  have names : halfYears.NamesDates .monthly := .inr ⟨by decide, rfl, by decide⟩
  have names' : halfYears.NamesDates .yearly := .inr ⟨by decide, rfl, by decide⟩
  obtain ⟨shorter, missing⟩ := occurrencesAfter_withFreq made made' rfl rfl rfl names names' found
    found' (by decide)
  obtain ⟨bound, horizon, hbound, hhorizon, lt⟩ := missing secondHalfYear rfl
  injection hbound with hbound
  subst hbound
  exact ⟨made, made', found, found', shorter, horizon, hhorizon, lt⟩

end Series

end Recurrence
