import Recurrence.Proofs.CalendarEnd
import Recurrence.Proofs.Frequencies

/-!
# Searches that look further ahead

The lookahead of a series decides where its searches give up, and nothing else. A longer one goes
through the same candidates, passes over the same of them and hands out the same moments, until the
shorter one gives up. All that it hands out from there on lies beyond the horizon at which the
shorter one gave up.

* `Series.AddsBeyond`: one list goes on from another only with what lies beyond a horizon.
* `Series.through_withLookahead`: what a search goes through under both lookaheads.
* `Series.occurrencesAfter_longerLookahead`: the answers under both.
-/

namespace Recurrence

namespace Date

variable {a b d : Date} {years years' : Nat}

/-- An earlier date can be shifted as well, and comes out no later. -/
theorem exists_shiftYears_of_le (le : a ≤ b) (h : b.shiftYears years = .ok d) :
    ∃ e, a.shiftYears years = .ok e ∧ e ≤ d := by
  have inside : b.year + years ≤ 9999 := shiftYears_isOk.1 ⟨d, h⟩
  have year := year_mono le
  obtain ⟨e, he⟩ := shiftYears_isOk.2 (show a.year + years ≤ 9999 by omega)
  exact ⟨e, he, shiftYears_mono le he h⟩

/-- A date can be shifted by fewer years as well, and comes out no later. -/
theorem exists_shiftYears_of_years_le (le : years ≤ years') (h : a.shiftYears years' = .ok d) :
    ∃ e, a.shiftYears years = .ok e ∧ e ≤ d := by
  by_cases same : years = years'
  · subst same
    exact ⟨d, h, Nat.le_refl _⟩
  · have inside : a.year + years' ≤ 9999 := shiftYears_isOk.1 ⟨d, h⟩
    obtain ⟨e, he⟩ := shiftYears_isOk.2 (show a.year + years ≤ 9999 by omega)
    have later : Frequency.periodNumber .yearly e < Frequency.periodNumber .yearly d := by
      simp only [Frequency.periodNumber, year_of_shiftYears he, year_of_shiftYears h]
      omega
    exact ⟨e, he, Nat.le_of_lt (Frequency.lt_of_periodNumber_lt later)⟩

end Date

namespace Series

variable {s : Series} {years : Positive} {origin : Date}

/-- The series with another lookahead. -/
def withLookahead (s : Series) (years : Positive) : Series := { s with lookahead := years }

/-- The series of a rule under two lookaheads differ in the lookahead alone. -/
theorem eq_withLookahead {fields : Fields} {anchor : Stamp} {zone : Zone}
    {lookahead lookahead' : Int} {s s' : Series} (hs : make fields anchor zone lookahead = .ok s)
    (hs' : make fields anchor zone lookahead' = .ok s') : s' = s.withLookahead s'.lookahead := by
  obtain ⟨hfields, hzone, -, hanchor, made⟩ := make_eq_ok hs
  obtain ⟨hfields', hzone', -, hanchor', made'⟩ := make_eq_ok hs'
  obtain ⟨fields', zone', reading, second, years, ending, dates, instants⟩ := s'
  simp only at hfields' hzone'
  subst hfields' hzone'
  have anchors := Except.ok.inj (hanchor'.symm.trans hanchor)
  injection anchors with hreading _ hsecond
  -- What is kept of the tokens is what they say in the zone
  have hending := made.ending
  have hdates := made.dates
  have hinstants := made.instants
  rw [hfields, hzone] at hending
  rw [hfields, hzone] at hdates
  rw [hfields] at hinstants
  have ending := Except.ok.inj (made'.ending.symm.trans hending)
  have dates := Except.ok.inj (made'.dates.symm.trans hdates)
  have instants := Except.ok.inj (made'.instants.symm.trans hinstants)
  simp only at ending dates instants
  subst hreading hsecond ending dates instants
  rw [withLookahead, ← hfields, ← hzone]

/-! ## What a longer lookahead reaches -/

/-- A longer lookahead reaches what a shorter one does. -/
theorem reaches_withLookahead (le : s.lookahead.val ≤ years.val) {d : Date}
    (h : s.reaches origin d = true) : (s.withLookahead years).reaches origin d = true := by
  unfold reaches
  cases far : origin.shiftYears (s.withLookahead years).lookahead.val with
  | error _ => rfl
  | ok horizon' =>
    obtain ⟨horizon, near, horizons⟩ := Date.exists_shiftYears_of_years_le le far
    unfold reaches at h
    rw [near] at h
    exact decide_eq_true (Nat.le_trans (of_decide_eq_true h) horizons)

/-- What a longer lookahead comes to and a shorter one does not, the shorter one does not reach. -/
theorem reaches_of_outOfReach {d : Date} (h : s.outOfReach origin d = true)
    (h' : (s.withLookahead years).outOfReach origin d = false) : s.reaches origin d = false := by
  rw [outOfReach, Bool.or_eq_true, Bool.not_eq_true'] at h
  rw [outOfReach, Bool.or_eq_false_iff] at h'
  cases h with
  | inl unreached => exact unreached
  | inr ended => exact absurd ended (Bool.eq_false_iff.1 h'.2)

/-- What a shorter lookahead comes to, a longer one does too. -/
theorem outOfReach_withLookahead (le : s.lookahead.val ≤ years.val) {d : Date}
    (h : s.outOfReach origin d = false) :
    (s.withLookahead years).outOfReach origin d = false := by
  rw [outOfReach, Bool.or_eq_false_iff, Bool.not_eq_false'] at h ⊢
  exact ⟨reaches_withLookahead le h.1, h.2⟩

/-! ## Going on beyond a horizon -/

/-- Whether a date lies beyond the lookahead from another. -/
def Beyond (s : Series) (origin d : Date) : Prop :=
  ∃ horizon, origin.shiftYears s.lookahead.val = .ok horizon ∧ horizon < d

/-- Whether a list begins another, which goes on from there only with moments beyond the lookahead
from the last one of the first. -/
def AddsBeyond (s : Series) (origin : Date) (found found' : List Moment) : Prop :=
  ∃ rest, found' = found ++ rest ∧ ∀ m ∈ rest, s.Beyond (originBeyond origin found) m.date

/-- What lies beyond the lookahead from a date lies beyond it from earlier dates. -/
theorem Beyond.of_le {origin' d : Date} (le : origin ≤ origin') (h : s.Beyond origin' d) :
    s.Beyond origin d := by
  obtain ⟨horizon', hhorizon', lt⟩ := h
  obtain ⟨horizon, hhorizon, horizons⟩ := Date.exists_shiftYears_of_le le hhorizon'
  exact ⟨horizon, hhorizon, Nat.lt_of_le_of_lt horizons lt⟩

/-- A list adds nothing to itself. -/
theorem AddsBeyond.refl (s : Series) (origin : Date) (found : List Moment) :
    s.AddsBeyond origin found found :=
  ⟨[], (List.append_nil found).symm, fun _ mem => absurd mem List.not_mem_nil⟩

/-- What is added behind a list is added if both have one more moment in front. -/
theorem AddsBeyond.cons {m : Moment} {found found' : List Moment}
    (h : s.AddsBeyond m.date found found') : s.AddsBeyond origin (m :: found) (m :: found') := by
  obtain ⟨rest, rfl, beyond⟩ := h
  refine ⟨rest, rfl, ?_⟩
  rw [originBeyond_cons]
  exact beyond

/-- Cutting both lists keeps what the longer one adds beyond the same horizon, since the shorter one
is whole where anything is added. -/
theorem AddsBeyond.take {found found' : List Moment} (h : s.AddsBeyond origin found found')
    (n : Nat) : s.AddsBeyond origin (found.take n) (found'.take n) := by
  obtain ⟨rest, rfl, beyond⟩ := h
  refine ⟨rest.take (n - found.length), List.take_append, ?_⟩
  intro m mem
  have room : found.length ≤ n := by
    apply Nat.le_of_lt
    apply Nat.lt_of_sub_pos
    apply Nat.pos_of_ne_zero
    intro none
    rw [none] at mem
    exact absurd mem List.not_mem_nil
  rw [List.take_of_length_le room]
  exact beyond m (List.mem_of_mem_take mem)

/-- A later origin never makes the origin beyond a list an earlier one. -/
theorem originBeyond_mono {origin' : Date} (le : origin ≤ origin') (found : List Moment) :
    originBeyond origin found ≤ originBeyond origin' found := by
  unfold originBeyond
  cases found.getLast? with
  | none => exact le
  | some _ => exact Nat.le_refl _

/-- An earlier first origin leaves the horizon where it was, or moves it back. -/
theorem AddsBeyond.of_le {origin' : Date} (le : origin ≤ origin') {found found' : List Moment}
    (h : s.AddsBeyond origin' found found') : s.AddsBeyond origin found found' := by
  obtain ⟨rest, rfl, beyond⟩ := h
  refine ⟨rest, rfl, ?_⟩
  intro m mem
  exact (beyond m mem).of_le (originBeyond_mono le found)

/-- The horizon of some of the moments of an ascending list is not past the horizon of all. -/
theorem originBeyond_le_of_sublist {kept found : List Moment} (sub : kept.Sublist found)
    (ascending : found.Pairwise fun a b => a.date ≤ b.date) (first : ∀ m ∈ found, origin ≤ m.date) :
    originBeyond origin kept ≤ originBeyond origin found := by
  induction found generalizing kept origin with
  | nil =>
    rw [List.sublist_nil.1 sub]
    exact Nat.le_refl _
  | cons m found ih =>
    obtain ⟨before, ascending⟩ := List.pairwise_cons.1 ascending
    rw [originBeyond_cons]
    cases sub with
    | cons _ sub =>
      -- The moment is dropped: the first origin takes its place
      exact Nat.le_trans (originBeyond_mono (first m List.mem_cons_self) kept)
        (ih sub ascending before)
    | cons_cons _ sub =>
      rw [originBeyond_cons]
      exact ih sub ascending before

/-- Leaving moments out of both lists keeps what the longer one adds beyond the horizon. -/
theorem AddsBeyond.filter {found found' : List Moment} (h : s.AddsBeyond origin found found')
    (ascending : found.Pairwise fun a b => a.date ≤ b.date) (first : ∀ m ∈ found, origin ≤ m.date)
    (p : Moment → Bool) : s.AddsBeyond origin (found.filter p) (found'.filter p) := by
  obtain ⟨rest, rfl, beyond⟩ := h
  refine ⟨rest.filter p, List.filter_append .., ?_⟩
  intro m mem
  apply (beyond m (List.mem_of_mem_filter mem)).of_le
  exact originBeyond_le_of_sublist List.filter_sublist ascending first

/-! ## The answers under both lookaheads -/

/-- Under a longer lookahead a search goes through candidates as before, and then only to what lies
beyond the horizon of the shorter one. -/
theorem through_withLookahead (le : s.lookahead.val ≤ years.val) (exclude : Bool)
    {l : List Moment} (ascending : l.Pairwise fun a b => a.date ≤ b.date) :
    s.AddsBeyond origin (s.through exclude origin l)
      ((s.withLookahead years).through exclude origin l) := by
  induction l generalizing origin with
  | nil => exact .refl s origin []
  | cons m l ih =>
    obtain ⟨later, ascending⟩ := List.pairwise_cons.1 ascending
    by_cases past : s.isPastEnd m = true
    · have stop : ∀ years, (s.withLookahead years).through exclude origin (m :: l) = [] := by
        intro years
        rw [through, show (s.withLookahead years).isPastEnd m = true from past, Bool.or_true,
          if_pos rfl]
      rw [stop years, show s.through exclude origin (m :: l) = [] from stop s.lookahead]
      exact .refl s origin []
    · cases far : (s.withLookahead years).outOfReach origin m.date with
      | true =>
        -- Where the longer search stops, the shorter one has stopped
        have near : s.outOfReach origin m.date = true := by
          apply Bool.of_not_eq_false
          intro reached
          rw [outOfReach_withLookahead le reached] at far
          injection far
        rw [through, near, Bool.true_or, if_pos rfl, through, far, Bool.true_or, if_pos rfl]
        exact .refl s origin []
      | false =>
        cases near : s.outOfReach origin m.date with
        | true =>
          -- Here only the shorter search stops, and all later candidates lie as far off
          have unreached := reaches_of_outOfReach near far
          rw [through, near, Bool.true_or, if_pos rfl]
          refine ⟨(s.withLookahead years).through exclude origin (m :: l), rfl, ?_⟩
          intro c mem
          have mem := (through_sublist _ _ _ _).subset mem
          have le : m.date ≤ c.date := by
            cases List.mem_cons.1 mem with
            | inl same =>
              rw [same]
              exact Nat.le_refl _
            | inr mem => exact later c mem
          apply exists_horizon_of_reaches
          apply reaches_mono _ unreached
          exact Frequency.periodStart_mono (Frequency.periodNumber_mono le)
        | false =>
          have skips : (exclude && (s.withLookahead years).excludes m) =
              (exclude && s.excludes m) := rfl
          have runs : (s.withLookahead years).isPastEnd m = s.isPastEnd m := rfl
          rw [through, near, Bool.false_or, if_neg past, through, far, Bool.false_or, runs,
            if_neg past, skips]
          split
          · exact ih ascending
          · exact (ih ascending).cons

/-- The dates of candidates ascend. -/
theorem ascending_candidatesOf (s : Series) (q : Query) :
    (s.candidatesOf q).Pairwise fun a b => a.date ≤ b.date := by
  apply (List.Pairwise.and_mem.1 (pairwise_candidatesOf s q)).imp
  intro a b h
  obtain ⟨ha, hb, before⟩ := h
  have zone : a.zone = b.zone := by
    rw [(mem_candidatesOf.1 ha).1, (mem_candidatesOf.1 hb).1]
    rfl
  exact Moment.date_le_of_ticks_le (Nat.le_of_lt ((Moment.isBefore_iff zone).1 before))

/-- All that a series has to answer under a longer lookahead begins with what it has to answer under
a shorter one, and goes on beyond its horizon. -/
theorem answersAfter_withLookahead (le : s.lookahead.val ≤ years.val) {bound : Option Moment}
    (hz : (⟨bound, true⟩ : Query).InZone s.zone) : s.AddsBeyond s.reading.date
      (s.answersAfter bound) ((s.withLookahead years).answersAfter bound) := by
  have ascending := ascending_candidatesOf s
  unfold answersAfter
  cases hcount : s.fields.count with
  | none =>
    rw [show (s.withLookahead years).fields.count = none from hcount]
    have start : s.reading.date ≤ s.originAfter bound := by
      rw [originAfter_eq hz]
      exact Walk.anchor_date_le_floor hz
    exact (through_withLookahead le true (ascending _)).of_le start
  | some count =>
    rw [show (s.withLookahead years).fields.count = some count from hcount]
    have positions : s.AddsBeyond s.reading.date
        (s.through false s.reading.date (s.candidatesOf everyPosition))
        ((s.withLookahead years).through false s.reading.date (s.candidatesOf everyPosition)) :=
      through_withLookahead le false (ascending _)
    -- The positions of the count ascend from the anchor on
    have sub : ((s.through false s.reading.date (s.candidatesOf everyPosition)).take
        count.val).Sublist (s.candidatesOf everyPosition) :=
      (List.take_sublist _ _).trans (through_sublist _ _ _ _)
    refine (positions.take count.val).filter ((ascending _).sublist sub) ?_ _
    intro m mem
    have admitted := (mem_candidatesOf.1 (sub.subset mem)).2.2
    rw [(mem_candidatesOf.1 (sub.subset mem)).1] at admitted
    exact Nat.le_trans (Walk.anchor_date_le_floor (Query.inZone_none _ _))
      (Walk.floor_le_of_admits (Query.inZone_none _ _) admitted)

/-- The answer under a longer lookahead begins with the answer under a shorter one. All that it adds
lies beyond the shorter lookahead from the last occurrence of that answer, or from the anchor if the
answer has none. -/
theorem occurrencesAfter_longerLookahead {fields : Fields} {anchor : Stamp} {zone : Zone}
    {lookahead lookahead' : Int} {s s' : Series} (hs : make fields anchor zone lookahead = .ok s)
    (hs' : make fields anchor zone lookahead' = .ok s') (le : lookahead ≤ lookahead')
    {after : Option Stamp} {limit : Int} {found found' : List Moment}
    (h : s.occurrencesAfter after limit = .ok found)
    (h' : s'.occurrencesAfter after limit = .ok found') :
    found <+: found' ∧ ∀ m ∈ found'.drop found.length, ∃ horizon,
      (originBeyond s.reading.date found).shiftYears lookahead = .ok horizon ∧
        horizon < m.date := by
  have other := eq_withLookahead hs hs'
  obtain ⟨-, -, rfl, -, made⟩ := make_eq_ok hs
  obtain ⟨-, -, rfl, -, made'⟩ := make_eq_ok hs'
  have le : s.lookahead.val ≤ s'.lookahead.val := Int.ofNat_le.1 le
  obtain ⟨bound, hbound, rfl⟩ := occurrencesAfter_eq_answers made h
  obtain ⟨bound', hbound', rfl⟩ := occurrencesAfter_eq_answers made' h'
  rw [other] at hbound' ⊢
  have same : bound' = bound := Except.ok.inj (hbound'.symm.trans hbound)
  subst same
  have hz : (⟨bound', true⟩ : Query).InZone s.zone := Query.inZone_of_mapM hbound true
  -- The longer lookahead gives the same list and more behind it
  obtain ⟨rest, split, beyond⟩ := (answersAfter_withLookahead le hz).take limit.toNat
  rw [split]
  refine ⟨List.prefix_append _ _, ?_⟩
  rw [List.drop_left]
  exact beyond

/-- The first three positions of a rule for every twenty-ninth of February. -/
def leapDays : Fields where
  freq := .yearly
  interval := none
  count := some ⟨3, Nat.succ_pos 2⟩
  ending := none
  byMonth := .empty
  byMonthDay := []
  byDay := []
  exdates := []
  keyOrder := []
  dayFilters := .inr rfl

/-- The leap days from 1892 on. -/
def leapDaySeries (lookahead : Positive) : Series where
  fields := leapDays
  zone := .region .utc
  reading := ⟨⟨1892, 2, 29, by decide⟩, .midnight⟩
  second := false
  lookahead := lookahead
  endingDate := none
  excludedDates := []
  excludedInstants := []

/-- The stamp from which the leap days count. -/
def leapDayAnchor : Stamp := ⟨(leapDaySeries .one).reading, false, none⟩

/-- The first two leap days. -/
def earlyLeapDays : List Moment :=
  [(leapDaySeries .one).anchor, (leapDaySeries .one).momentOn ⟨1896, 2, 29, by decide⟩]

/-- The third one, eight years after the second. -/
def lateLeapDay : Moment := (leapDaySeries .one).momentOn ⟨1904, 2, 29, by decide⟩

/-- Four years ahead the search gives up in 1900, which is no leap year, and eight years ahead it
does not. -/
theorem leapDays_longerLookahead :
    make leapDays leapDayAnchor (.region .utc) 4 = .ok (leapDaySeries ⟨4, by decide⟩) ∧
      make leapDays leapDayAnchor (.region .utc) 8 = .ok (leapDaySeries ⟨8, by decide⟩) ∧
      (leapDaySeries ⟨4, by decide⟩).occurrencesAfter none 5 = .ok earlyLeapDays ∧
      (leapDaySeries ⟨8, by decide⟩).occurrencesAfter none 5 =
        .ok (earlyLeapDays ++ [lateLeapDay]) ∧
      earlyLeapDays <+: earlyLeapDays ++ [lateLeapDay] ∧
      ∃ horizon, (originBeyond leapDayAnchor.reading.date earlyLeapDays).shiftYears 4 =
        .ok horizon ∧ horizon < lateLeapDay.date := by
  have made : make leapDays leapDayAnchor (.region .utc) 4 =
      .ok (leapDaySeries ⟨4, by decide⟩) := rfl
  have made' : make leapDays leapDayAnchor (.region .utc) 8 =
      .ok (leapDaySeries ⟨8, by decide⟩) := rfl
  have found : (leapDaySeries ⟨4, by decide⟩).occurrencesAfter none 5 = .ok earlyLeapDays := by
    decide +kernel
  have found' : (leapDaySeries ⟨8, by decide⟩).occurrencesAfter none 5 =
      .ok (earlyLeapDays ++ [lateLeapDay]) := by
    decide +kernel
  obtain ⟨begins, beyond⟩ := occurrencesAfter_longerLookahead made made' (by decide) found found'
  exact ⟨made, made', found, found', begins, beyond lateLeapDay List.mem_cons_self⟩

end Series

end Recurrence
