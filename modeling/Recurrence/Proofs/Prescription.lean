import Recurrence.Proofs.Search

/-!
# Prescribed occurrences

The occurrences that a rule prescribes, told by the calendar alone: the anchor's time of day on
every date that qualifies, between the bound and the end, without those that are left out. They go
on as long as the period of the next one begins within the lookahead.

* `Series.prescribed`: the moments that a rule prescribes after a bound.
* `Series.withinLookahead`: a list of moments up to the first gap that the lookahead does not reach
  across.
* `Series.occurrencesAfter_eq_prescribed`: a search returns just these.
-/

namespace Recurrence.Series

variable {s : Series} {m : Moment} {origin : Date}

/-! ## The prescription -/

/-- The moments that a rule prescribes after a bound, in order. -/
def prescribed (s : Series) (bound : Option Moment) : List Moment :=
  ((Date.calendar.filter s.Qualifies).map s.momentOn).filter fun m =>
    s.admits ⟨bound, true⟩ m && (!s.isPastEnd m && !s.excludes m)

/-- The moments of a list up to the first whose period begins past the lookahead, which counts from
a date and then from every moment anew. -/
def withinLookahead (s : Series) : (origin : Date) → List Moment → List Moment
  | _, [] => []
  | origin, m :: rest =>
    if s.reaches origin m.date then m :: withinLookahead s m.date rest else []

/-- The date from which the lookahead counts first: that of the bound, or of the anchor if that is
later. -/
def originAfter (s : Series) : (bound : Option Moment) → Date
  | none => s.reading.date
  | some bound => if s.reading.date < bound.date then bound.date else s.reading.date

/-- What is prescribed are the candidates that are neither past the end nor left out. -/
theorem prescribed_eq (bound : Option Moment) : s.prescribed bound =
    (s.candidatesOf ⟨bound, true⟩).filter fun m => !s.isPastEnd m && !s.excludes m := by
  rw [prescribed, candidatesOf, List.filter_filter]
  simp only [Bool.and_comm]

/-- Nothing is left of what is out of reach. -/
theorem withinLookahead_eq_nil {l : List Moment}
    (h : ∀ m ∈ l, s.reaches origin m.date = false) : s.withinLookahead origin l = [] := by
  cases l with
  | nil => rfl
  | cons m rest =>
    rw [withinLookahead, h m List.mem_cons_self, if_neg Bool.false_ne_true]

/-- Where the lookahead does not reach a moment, it reaches none of the later ones. -/
theorem withinLookahead_eq_nil_of_pairwise {l kept : List Moment}
    (hz : ∀ c ∈ m :: l, c.zone = s.zone) (hl : (m :: l).Pairwise fun a b => a.isBefore b = true)
    (h : s.reaches origin m.date = false) (sub : kept.Sublist (m :: l)) :
    s.withinLookahead origin kept = [] := by
  refine withinLookahead_eq_nil fun c hc => ?_
  have mem := sub.subset hc
  rcases List.mem_cons.1 mem with rfl | later
  · exact h
  · have zone : m.zone = c.zone := (hz m List.mem_cons_self).trans (hz c mem).symm
    have lt := (Moment.isBefore_iff zone).1 ((List.pairwise_cons.1 hl).1 c later)
    have le := Moment.date_le_of_ticks_le (Nat.le_of_lt lt)
    exact reaches_mono (Frequency.periodStart_mono (Frequency.periodNumber_mono le)) h

/-- What is within the lookahead comes first. -/
theorem withinLookahead_prefix (s : Series) (origin : Date) (l : List Moment) :
    s.withinLookahead origin l <+: l := by
  induction l generalizing origin with
  | nil => exact List.prefix_refl []
  | cons m l ih =>
    rw [withinLookahead]
    split
    · exact (List.prefix_cons_inj m).2 (ih m.date)
    · exact List.nil_prefix

/-- The lookahead is measured from where a search starts. -/
theorem originAfter_eq {q : Query} (hz : q.InZone s.zone) :
    s.originAfter q.after = (Walk.floor s q).date := by
  unfold originAfter Walk.floor
  cases hb : q.after with
  | none => rfl
  | some bound =>
    have zone : bound.zone = s.anchor.zone := hz bound hb
    simp only
    -- The bound counts if it is not before the anchor, by its date or by its reading
    cases before : bound.isBefore s.anchor with
    | true =>
      have lt := (Moment.isBefore_iff zone).1 before
      have le : bound.date ≤ s.anchor.date := Moment.date_le_of_ticks_le (Nat.le_of_lt lt)
      exact (if_neg (Nat.not_lt.2 le)).trans rfl
    | false =>
      have le := (Moment.isBefore_eq_false_iff zone).1 before
      have le : s.reading.date ≤ bound.date := Moment.date_le_of_ticks_le (a := s.anchor) le
      rw [if_neg Bool.false_ne_true]
      split
      · rfl
      · rename_i nlt
        exact Date.dayNumber_inj (Nat.le_antisymm le (Nat.not_lt.1 nlt))

/-! ## Ends in the zone of the series -/

/-- Whether the end of a series stands on the clocks of its zone. -/
def EndsInZone (s : Series) : Prop :=
  ∀ token ∈ s.fields.ending, token.moment.zone = s.zone

/-- What comes after a moment past the end is past the end as well. -/
theorem isPastEnd_mono (hend : s.EndsInZone) {a b : Moment} (ha : a.zone = s.zone)
    (hb : b.zone = s.zone) (lt : a.isBefore b = true) (h : s.isPastEnd a = true) :
    s.isPastEnd b = true := by
  unfold isPastEnd at *
  split at h
  · injection h
  · rename_i token htoken
    have zone := hend token htoken
    have h1 := (Moment.isBefore_iff (zone.trans ha.symm)).1 h
    have h2 := (Moment.isBefore_iff (ha.trans hb.symm)).1 lt
    exact (Moment.isBefore_iff (zone.trans hb.symm)).2 (Nat.lt_trans h1 h2)

/-- A period that begins after the date of the end holds nothing but moments past the end. -/
theorem isPastEnd_of_isPastEndingDate (made : s.Made) (hend : s.EndsInZone) (hm : m.zone = s.zone)
    (h : s.isPastEndingDate (s.freq.periodStart m.date) = true) : s.isPastEnd m = true := by
  have ending := made.ending
  unfold isPastEndingDate at h
  unfold isPastEnd
  cases htoken : s.fields.ending with
  | none =>
    rw [htoken] at ending
    injection ending with ending
    rw [← ending] at h
    injection h
  | some token =>
    have zone := hend token htoken
    rw [htoken, Option.mapM_some, ← zone, Moment.inZone_self] at ending
    injection ending with ending
    rw [← ending] at h
    -- The date of the end lies before the period of the moment
    have lt : token.moment.date < m.date :=
      Nat.lt_of_lt_of_le (of_decide_eq_true h) (s.freq.periodStart_le m.date)
    refine (Moment.isBefore_iff (zone.trans hm.symm)).2 (Nat.lt_of_not_le fun le => ?_)
    exact Nat.not_le.2 lt (Moment.date_le_of_ticks_le le)

/-- A search within the zone of its end goes through what is neither past the end nor left out, as
far as the lookahead reaches. -/
theorem through_eq_withinLookahead (made : s.Made) (hend : s.EndsInZone) {l : List Moment}
    (hz : ∀ m ∈ l, m.zone = s.zone) (hl : l.Pairwise fun a b => a.isBefore b = true) :
    s.through true origin l = s.withinLookahead origin
      (l.filter fun m => !s.isPastEnd m && !s.excludes m) := by
  induction l generalizing origin with
  | nil => rfl
  | cons m l ih =>
    have hm := hz m List.mem_cons_self
    have zone : ∀ c ∈ l, c.zone = s.zone := fun c hc => hz c (List.mem_cons_of_mem _ hc)
    have before := (List.pairwise_cons.1 hl).1
    have ih := fun origin => @ih origin zone hl.of_cons
    rw [through]
    cases past : s.isPastEnd m with
    | true =>
      -- All that comes later is past the end
      have none_left : (m :: l).filter (fun m => !s.isPastEnd m && !s.excludes m) = [] := by
        refine List.filter_eq_nil_iff.2 fun c hc => ?_
        have : s.isPastEnd c = true := by
          rcases List.mem_cons.1 hc with rfl | hc
          · exact past
          · exact isPastEnd_mono hend hm (zone c hc) (before c hc) past
        rw [this]
        exact Bool.false_ne_true
      rw [none_left, Bool.or_true, if_pos rfl]
      rfl
    | false =>
      have inside : s.isPastEndingDate (s.freq.periodStart m.date) = false :=
        Bool.eq_false_iff.2 fun h =>
          Bool.eq_false_iff.1 past (isPastEnd_of_isPastEndingDate made hend hm h)
      rw [outOfReach, inside, Bool.or_false, Bool.or_false, List.filter_cons, past]
      cases reach : s.reaches origin m.date with
      | true =>
        cases out : s.excludes m with
        | true => exact ih origin
        | false =>
          simp only [Bool.not_true, Bool.false_eq_true, if_false, Bool.and_false, Bool.not_false,
            Bool.and_true, if_true, withinLookahead, reach, ih m.date]
      | false =>
        -- The lookahead reaches nothing that comes later
        refine (if_pos rfl).trans (withinLookahead_eq_nil_of_pairwise hz hl reach ?_).symm
        split
        · exact List.filter_sublist.cons_cons m
        · exact List.filter_sublist.cons m

/-! ## The search returns the prescription -/

/-- A search of a series without a count, whose end stands on the clocks of its zone if it has one,
returns as many of the prescribed occurrences as it was asked for. -/
theorem occurrencesAfter_eq_prescribed {fields : Fields} {anchor : Stamp} {zone : Zone}
    {lookahead : Int} (hs : make fields anchor zone lookahead = .ok s)
    (hcount : fields.count = none) (hend : ∀ token ∈ fields.ending, token.moment.zone = zone)
    {after : Option Stamp} {limit : Int} {found : List Moment}
    (h : s.occurrencesAfter after limit = .ok found) :
    ∃ bound, after.mapM (fun stamp => stamp.inZone zone) = .ok bound ∧
      found = (s.withinLookahead (s.originAfter bound) (s.prescribed bound)).take limit.toNat := by
  obtain ⟨rfl, rfl, -, -, made⟩ := make_eq_ok hs
  obtain ⟨bound, hbound, -, h⟩ := occurrencesAfter_eq_ok.1 h
  refine ⟨bound, hbound, ?_⟩
  rw [occurrences, hcount] at h
  have hz : (⟨bound, true⟩ : Query).InZone s.zone := Query.inZone_of_mapM hbound true
  have zone : ∀ m ∈ s.candidatesOf ⟨bound, true⟩, m.zone = s.zone := fun m hm => by
    rw [(mem_candidatesOf.1 hm).1]
    rfl
  rw [take_eq_through made hz (orFail_eq_ok.1 h), ← originAfter_eq hz,
    through_eq_withinLookahead made hend zone (pairwise_candidatesOf _ _), prescribed_eq]

/-- The last Friday of every month until 2012-06-29, without the one of March. -/
def lastFridays : Fields where
  freq := .monthly
  interval := none
  count := none
  ending := some ⟨⟨⟨⟨2012, 6, 29, by decide⟩, .midnight⟩, .region .paris, false⟩, true, false⟩
  byMonth := .empty
  byMonthDay := []
  byDay := [⟨-1, .friday⟩]
  exdates := [⟨⟨⟨⟨2012, 3, 30, by decide⟩, .midnight⟩, .region .paris, false⟩, true, false⟩]
  keyOrder := []
  dayFilters := .inl rfl

/-- The last Fridays from February 2012 on. -/
def lastFridaysSeries : Series where
  fields := lastFridays
  zone := .region .paris
  reading := ⟨⟨2012, 2, 10, by decide⟩, .midnight⟩
  second := false
  lookahead := .one
  endingDate := some ⟨2012, 6, 29, by decide⟩
  excludedDates := [⟨2012, 3, 30, by decide⟩]
  excludedInstants := []

/-- Last Fridays, one of them excluded, up to an ending date. -/
theorem lastFridays_eq_prescribed :
    make lastFridays ⟨⟨⟨2012, 2, 10, by decide⟩, .midnight⟩, false, none⟩ (.region .paris) 1 =
        .ok lastFridaysSeries ∧
      ∃ bound, (none : Option Stamp).mapM (fun stamp => stamp.inZone (.region .paris)) =
          .ok bound ∧
        [⟨2012, 2, 24, by decide⟩, ⟨2012, 4, 27, by decide⟩, ⟨2012, 5, 25, by decide⟩].map
            lastFridaysSeries.momentOn =
          (lastFridaysSeries.withinLookahead (lastFridaysSeries.originAfter bound)
            (lastFridaysSeries.prescribed bound)).take (3 : Int).toNat :=
  have made : make lastFridays ⟨⟨⟨2012, 2, 10, by decide⟩, .midnight⟩, false, none⟩
      (.region .paris) 1 = .ok lastFridaysSeries := rfl
  ⟨made, occurrencesAfter_eq_prescribed made rfl (by decide) (by decide +kernel)⟩

end Recurrence.Series
