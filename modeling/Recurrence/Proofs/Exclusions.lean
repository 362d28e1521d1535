import Recurrence.Proofs.Answers

/-!
# Exclusions

Exclusions take occurrences away and bring none in. A counted series counts those that are left out,
so it loses these and no others. A series without a count looks ahead from the occurrences that it
has returned: where so many are left out that the lookahead from the last one before does not reach
the next one after, the search ends there.

* `Series.inclusive`: the series without its exclusions.
* `Series.take_through`: what is left of a search without exclusions, and a search with them.
* `Series.occurrencesAfter_excluding`: the answers of both series.
-/

namespace Recurrence

/-- The parts of a rule without the exclusions. -/
def Fields.inclusive (fields : Fields) : Fields := { fields with exdates := [] }

namespace Series

variable {s : Series} {m : Moment} {origin : Date} {l : List Moment}

/-! ## The series without its exclusions -/

/-- The series without its exclusions. -/
def inclusive (s : Series) : Series :=
  { s with fields := s.fields.inclusive, excludedDates := [], excludedInstants := [] }

/-- Making the series without exclusions drops them from the series. -/
theorem eq_inclusive {s₀ : Series} {fields : Fields} {anchor : Stamp} {zone : Zone}
    {lookahead : Int} (h : make fields anchor zone lookahead = .ok s)
    (h₀ : make fields.inclusive anchor zone lookahead = .ok s₀) : s₀ = s.inclusive := by
  have eq := eq_of_make h h₀
  obtain ⟨rfl, rfl, -, -, made⟩ := make_eq_ok h
  obtain ⟨hfields, hzone, -, -, made₀⟩ := make_eq_ok h₀
  obtain ⟨dates, instants⟩ := made₀.eq_nil (by rw [hfields]; rfl)
  have ends := made₀.ending
  rw [hfields, hzone] at ends
  rw [eq, inclusive, ← Except.ok.inj (made.ending.symm.trans ends), dates, instants]

/-- Without exclusions a search hands out what a search hands out that does not heed them. -/
theorem through_inclusive (s : Series) (exclude : Bool) (origin : Date) (l : List Moment) :
    s.inclusive.through exclude origin l = s.through false origin l := by
  induction l generalizing origin with
  | nil => rfl
  | cons m l ih =>
    rw [through, through, ih, ih, show s.inclusive.excludes m = false from rfl, Bool.and_false,
      Bool.false_and]
    rfl

/-- All that the series without exclusions has to answer. -/
theorem answersAfter_inclusive (s : Series) (bound : Option Moment) :
    s.inclusive.answersAfter bound = match s.fields.count with
      | none => s.through false (s.originAfter bound) (s.candidatesOf ⟨bound, true⟩)
      | some count =>
        ((s.through false s.reading.date (s.candidatesOf everyPosition)).take count.val).filter
          (⟨bound, true⟩ : Query).accepts := by
  rw [answersAfter, show s.inclusive.fields.count = s.fields.count from rfl]
  cases s.fields.count with
  | none => exact through_inclusive s true _ _
  | some count =>
    refine congrArg₂ List.filter (funext fun m => ?_) (congrArg _ (through_inclusive s false _ _))
    exact Bool.and_true _

/-! ## What exclusions take away -/

/-- Of the first results of a search that does not heed exclusions, a search that does hands out
those that are not left out, as far as the lookahead reaches from one to the next. Where the two
count their lookahead from does not matter to this. -/
theorem take_through {origin₀ : Date} (hz : ∀ c ∈ l, c.zone = s.zone)
    (hl : l.Pairwise fun a b => a.isBefore b = true) (n : Nat) {kept : List Moment}
    (hkept : kept = ((s.through false origin₀ l).take n).filter fun m => !s.excludes m) :
    (s.through true origin l).take kept.length = s.withinLookahead origin kept := by
  subst hkept
  induction l generalizing origin origin₀ n with
  | nil =>
    rw [through, through, List.take_nil, List.take_nil]
    rfl
  | cons m l ih =>
    cases n with
    | zero => exact List.take_zero
    | succ n =>
      rw [through]
      split
      · exact List.take_zero
      · rename_i inside
        rw [Bool.or_eq_true, not_or, Bool.not_eq_true, Bool.not_eq_true] at inside
        obtain ⟨inside, past⟩ := inside
        have ending := (Bool.or_eq_false_iff.1 inside).2
        have ih := fun origin origin₀ => @ih origin origin₀
          (fun c hc => hz c (List.mem_cons_of_mem _ hc)) hl.of_cons n
        rw [Bool.false_and, if_neg Bool.false_ne_true, List.take_succ_cons]
        -- What is out of reach of the last answer ends both lists
        cases reach : s.reaches origin m.date with
        | false =>
          rw [through, outOfReach, reach, Bool.not_false, Bool.true_or, Bool.true_or, if_pos rfl,
            List.take_nil]
          refine (withinLookahead_eq_nil_of_pairwise hz hl reach ?_).symm
          exact List.filter_sublist.trans
            (((List.take_sublist n _).trans (through_sublist s false m.date l)).cons_cons m)
        | true =>
          rw [through, outOfReach, reach, ending, past, List.filter_cons]
          -- An excluded moment is passed over, and the origin stays where it was
          cases out : s.excludes m with
          | true => exact ih origin m.date
          | false =>
            simp only [Bool.not_true, Bool.or_false, Bool.false_eq_true, if_false, Bool.and_false,
              Bool.not_false, if_true, List.length_cons, List.take_succ_cons, withinLookahead,
              reach, ih m.date m.date]

/-- Of the first answers of the series without exclusions, a counted series hands out those that
are not left out, wherever the first are cut off. -/
theorem take_filter {bound : Option Moment} (positions : List Moment) (n : Nat) {kept : List Moment}
    (hkept : kept = ((positions.filter (⟨bound, true⟩ : Query).accepts).take n).filter
      fun m => !s.excludes m) :
    (positions.filter fun m => (⟨bound, true⟩ : Query).accepts m && !s.excludes m).take
      kept.length = kept := by
  subst hkept
  have cut := (List.take_prefix n (positions.filter (⟨bound, true⟩ : Query).accepts)).filter
    fun m => !s.excludes m
  rw [List.filter_filter] at cut
  rw [funext fun m => Bool.and_comm (Query.accepts _ m) (!s.excludes m)]
  exact (List.prefix_iff_eq_take.1 cut).symm

/-! ## The answers of both series -/

/-- Asked for as many occurrences as are left of some without the excluded ones, a counted series
returns just these. A series without a count returns them as far as the lookahead reaches from one
to the next. Neither returns anything else. -/
theorem occurrencesAfter_excluding {s₀ : Series} {fields : Fields} {anchor : Stamp} {zone : Zone}
    {lookahead : Int} (hs : make fields anchor zone lookahead = .ok s)
    (hs₀ : make fields.inclusive anchor zone lookahead = .ok s₀) {after : Option Stamp}
    {limit : Int} {all kept found : List Moment} (hall : s₀.occurrencesAfter after limit = .ok all)
    (hkept : kept = all.filter fun m => !s.excludes m)
    (h : s.occurrencesAfter after kept.length = .ok found) :
    found <+: kept ∧ (fields.count ≠ none → found = kept) ∧
      (fields.count = none → ∃ bound, after.mapM (fun stamp => stamp.inZone zone) = .ok bound ∧
        found = s.withinLookahead (s.originAfter bound) kept) := by
  have eq₀ := eq_inclusive hs hs₀
  subst eq₀
  obtain ⟨rfl, rfl, -, -, made⟩ := make_eq_ok hs
  obtain ⟨-, -, -, -, made₀⟩ := make_eq_ok hs₀
  -- Both questions come down to lists of candidates, put with one bound
  obtain ⟨bound, hbound, rfl⟩ := occurrencesAfter_eq_answers made h
  obtain ⟨bound₀, hbound₀, rfl⟩ := occurrencesAfter_eq_answers made₀ hall
  have same : bound₀ = bound := Except.ok.inj (hbound₀.symm.trans hbound)
  subst same
  rw [answersAfter_inclusive] at hkept
  rw [answersAfter, Int.toNat_natCast]
  -- With a count nothing is cut off, for positions are searched with their exclusions
  cases hcount : s.fields.count with
  | some count =>
    rw [hcount] at hkept
    have all_kept := take_filter _ _ hkept
    refine ⟨by simp only [all_kept, List.prefix_rfl], fun _ => all_kept, ?_⟩
    exact fun none => absurd none (Option.some_ne_none count)
  | none =>
    rw [hcount] at hkept
    have zone : ∀ m ∈ s.candidatesOf ⟨bound₀, true⟩, m.zone = s.zone := fun m hm => by
      rw [(mem_candidatesOf.1 hm).1]
      rfl
    -- Without one, the horizon is measured from the last answer that was not excluded
    have reached :
        (s.through true (s.originAfter bound₀) (s.candidatesOf ⟨bound₀, true⟩)).take kept.length =
          s.withinLookahead (s.originAfter bound₀) kept :=
      take_through zone (pairwise_candidatesOf _ _) _ hkept
    refine ⟨?_, fun counted => absurd rfl counted, fun _ => ⟨bound₀, hbound, reached⟩⟩
    simp only [reached, withinLookahead_prefix]

/-- The seventh of March of every year, except for one of them. -/
def anniversaries : Fields where
  freq := .yearly
  interval := none
  count := none
  ending := none
  byMonth := .empty
  byMonthDay := []
  byDay := []
  exdates := [⟨⟨⟨⟨2013, 3, 7, by decide⟩, .midnight⟩, .region .utc, false⟩, true, false⟩]
  keyOrder := []
  dayFilters := Fields.noDayFilters

/-- The anniversaries from 2012 on, each looked for up to a year ahead. -/
def anniversarySeries : Series where
  fields := anniversaries
  zone := .region .utc
  reading := ⟨⟨2012, 3, 7, by decide⟩, .midnight⟩
  second := false
  lookahead := .one
  endingDate := none
  excludedDates := [⟨2013, 3, 7, by decide⟩]
  excludedInstants := []

/-- The stamp from which the anniversaries count. -/
def anniversaryAnchor : Stamp := ⟨anniversarySeries.reading, false, none⟩

/-- The first three anniversaries. -/
def threeAnniversaries : List Moment :=
  [⟨2012, 3, 7, by decide⟩, ⟨2013, 3, 7, by decide⟩, ⟨2014, 3, 7, by decide⟩].map
    anniversarySeries.momentOn

/-- Without the second of three anniversaries, the third is out of reach. -/
theorem anniversaries_excluding :
    make anniversaries anniversaryAnchor (.region .utc) 1 = .ok anniversarySeries ∧
      make anniversaries.inclusive anniversaryAnchor (.region .utc) 1 =
        .ok anniversarySeries.inclusive ∧
      anniversarySeries.inclusive.occurrencesAfter none 3 = .ok threeAnniversaries ∧
      anniversarySeries.occurrencesAfter none 2 = .ok (threeAnniversaries.take 1) ∧
      threeAnniversaries.take 1 = anniversarySeries.withinLookahead anniversarySeries.reading.date
        (threeAnniversaries.filter fun m => !anniversarySeries.excludes m) := by
  have made : make anniversaries anniversaryAnchor (.region .utc) 1 = .ok anniversarySeries := rfl
  have made₀ : make anniversaries.inclusive anniversaryAnchor (.region .utc) 1 =
      .ok anniversarySeries.inclusive := rfl
  have all : anniversarySeries.inclusive.occurrencesAfter none 3 = .ok threeAnniversaries := by
    decide +kernel
  have found : anniversarySeries.occurrencesAfter none
      (threeAnniversaries.filter fun m => !anniversarySeries.excludes m).length =
        .ok (threeAnniversaries.take 1) := by
    decide +kernel
  -- What was found is what can be reached from the first anniversary
  obtain ⟨bound, hbound, reached⟩ := (occurrencesAfter_excluding made made₀ all rfl found).2.2 rfl
  injection hbound with hbound
  subst hbound
  exact ⟨made, made₀, all, found, reached⟩

/-- The lookahead from the first anniversary does not reach the third, and the second is left
out. -/
theorem anniversaries_cut :
    make anniversaries anniversaryAnchor (.region .utc) 1 = .ok anniversarySeries ∧
      make anniversaries.inclusive anniversaryAnchor (.region .utc) 1 =
        .ok anniversarySeries.inclusive ∧
      anniversarySeries.inclusive.occurrencesAfter none 3 = .ok threeAnniversaries ∧
      anniversarySeries.occurrencesAfter none
          (threeAnniversaries.filter fun m => !anniversarySeries.excludes m).length ≠
        .ok (threeAnniversaries.filter fun m => !anniversarySeries.excludes m) :=
  ⟨rfl, rfl, by decide +kernel, by decide +kernel⟩

end Series

end Recurrence
