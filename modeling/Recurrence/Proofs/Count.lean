import Recurrence.Proofs.Positions

/-!
# Counted series

The count of a rule counts the occurrences from the first one on, those that are left out included.
So a counted series has its occurrences among the first ones of the series that has neither a count
nor exclusions, whatever it is asked.

* `Series.unexcluded`: the series without count and exclusions.
* `Series.takeCounted_eq`: what a counted walk takes of the positions.
* `Series.occurrencesAfter_counted`: all answers of a counted series.
-/

namespace Recurrence

/-! ## The series without count and exclusions -/

/-- The parts of a rule without the count and the exclusions. -/
def Fields.unexcluded (fields : Fields) : Fields := { fields with count := none, exdates := [] }

namespace Series

variable {s : Series} {q : Query} {m : Moment}

/-- The series without count and exclusions. -/
def unexcluded (s : Series) : Series :=
  { s with fields := s.fields.unexcluded, excludedDates := [], excludedInstants := [] }

/-- The query for all occurrences, without those that are left out. -/
def allOccurrences : Query := ⟨none, true⟩

/-- Making the series without count and exclusions drops them from the series. -/
theorem eq_unexcluded {s₀ : Series} {fields : Fields} {anchor : Stamp} {zone : Zone}
    {lookahead : Int} (h : make fields anchor zone lookahead = .ok s)
    (h₀ : make fields.unexcluded anchor zone lookahead = .ok s₀) : s₀ = s.unexcluded := by
  have eq := eq_of_make h h₀
  obtain ⟨rfl, rfl, -, -, made⟩ := make_eq_ok h
  obtain ⟨hfields, hzone, -, -, made₀⟩ := make_eq_ok h₀
  obtain ⟨dates, instants⟩ := made₀.eq_nil (by rw [hfields]; rfl)
  have ends := made₀.ending
  rw [hfields, hzone] at ends
  rw [eq, unexcluded, ← Except.ok.inj (made.ending.symm.trans ends), dates, instants]

end Series

/-! ## One walk for both

A search for all occurrences of the series without exclusions looks up the instant of each of them
and then leaves none out. Apart from that it is a search for all positions. -/

namespace Walk

variable {s : Series} {q : Query} {m : Moment}

/-- The occurrence of an outcome. -/
def Outcome.moment? : Outcome → Option Moment
  | found m _ => some m
  | _ => Option.none

/-- Whether the instant of a moment lies inside the calendar if there is one. -/
def HasInstant (m : Option Moment) : Prop := ∀ c ∈ m, ∃ utc, c.inUtc = .ok utc

/-- Without exclusions nothing is left out, but the instant is looked up. -/
theorem leavesOut_unexcluded (s : Series) (m : Moment) :
    leavesOut s.unexcluded Series.allOccurrences m = (fun _ => false) <$> m.inUtc := rfl

/-- What is found without exclusions is found as a position of the rule, and it has an instant. -/
theorem scan_unexcluded {l : List Moment} {outcome : Outcome}
    (h : scan s.unexcluded Series.allOccurrences l = .ok outcome) :
    scan s Series.everyPosition l = .ok outcome ∧ HasInstant outcome.moment? := by
  have none_has : HasInstant none := fun c hc => nomatch hc
  induction l with
  | nil =>
    injection h with h
    subst h
    exact ⟨rfl, none_has⟩
  | cons m l ih =>
    rw [scan_cons] at h ⊢
    rw [leavesOut_unexcluded] at h
    split at h
    · rename_i admitted
      rw [if_pos (show s.admits Series.everyPosition m = true from admitted)]
      split at h
      · rename_i past
        injection h with h
        subst h
        rw [if_pos (show s.isPastEnd m = true from past)]
        exact ⟨rfl, none_has⟩
      · rename_i past
        obtain ⟨out, hout, h⟩ := Except.bind_eq_ok.1 h
        -- Without exclusions the instant is all that a test for them looks up
        obtain ⟨utc, hutc, rfl⟩ := Except.map_eq_ok.1 hout
        injection h with h
        subst h
        rw [if_neg (show ¬s.isPastEnd m = true from past)]
        refine ⟨rfl, fun c hc => ?_⟩
        injection hc with hc
        exact ⟨utc, hc ▸ hutc⟩
    · rename_i refused
      rw [if_neg (show ¬s.admits Series.everyPosition m = true from refused)]
      exact ih h

/-- So it is after a period has been settled. -/
theorem settle_unexcluded {horizon period : Date} {outcome : Outcome}
    {r : Option (Moment × Walk)} (has : HasInstant outcome.moment?)
    (next : ∀ start, s.freq.shift period s.fields.step.val = .ok start →
      seek s.unexcluded Series.allOccurrences horizon start = .ok r →
        seek s Series.everyPosition horizon start = .ok r ∧ HasInstant (r.map Prod.fst))
    (h : settle s.unexcluded Series.allOccurrences horizon period outcome = .ok r) :
    settle s Series.everyPosition horizon period outcome = .ok r ∧
      HasInstant (r.map Prod.fst) := by
  cases outcome with
  | found m rest =>
    injection h with h
    subst h
    exact ⟨rfl, has⟩
  | ended =>
    injection h with h
    subst h
    exact ⟨rfl, has⟩
  | none =>
    obtain ⟨start, hstart, h⟩ := Except.bind_eq_ok.1 h
    obtain ⟨h, has⟩ := next start hstart h
    exact ⟨Except.bind_eq_ok.2 ⟨start, hstart, h⟩, has⟩

/-- So it is from a period on. -/
theorem seek_unexcluded {horizon period : Date} {r : Option (Moment × Walk)}
    (h : seek s.unexcluded Series.allOccurrences horizon period = .ok r) :
    seek s Series.everyPosition horizon period = .ok r ∧ HasInstant (r.map Prod.fst) := by
  induction period using period_induct s with
  | step period ih =>
    rw [seek_eq] at h ⊢
    split at h
    · rename_i stop
      injection h with h
      subst h
      exact ⟨if_pos stop, fun c hc => nomatch hc⟩
    · rename_i go
      obtain ⟨l, hl, h⟩ := Except.bind_eq_ok.1 h
      obtain ⟨outcome, hscan, h⟩ := Except.bind_eq_ok.1 h
      -- The same candidates are scanned, and a later period is found by the induction
      obtain ⟨hscan, has⟩ := scan_unexcluded hscan
      obtain ⟨h, has⟩ := settle_unexcluded has ih h
      refine ⟨(if_neg go).trans ?_, has⟩
      exact Except.bind_eq_ok.2 ⟨l, hl, Except.bind_eq_ok.2 ⟨outcome, hscan, h⟩⟩

/-- So it is with a step of the walk. -/
theorem step_unexcluded {w : Option Walk} {r : Option (Moment × Walk)}
    (h : step s.unexcluded Series.allOccurrences w = .ok r) :
    step s Series.everyPosition w = .ok r ∧ HasInstant (r.map Prod.fst) := by
  cases w with
  | none =>
    rw [step, start_eq] at h
    obtain ⟨horizon, hh, h⟩ := Except.bind_eq_ok.1 h
    obtain ⟨period, hperiod, h⟩ := Except.bind_eq_ok.1 h
    obtain ⟨h, has⟩ := seek_unexcluded h
    refine ⟨?_, has⟩
    rw [step, start_eq]
    exact Except.bind_eq_ok.2 ⟨horizon, hh, Except.bind_eq_ok.2 ⟨period, hperiod, h⟩⟩
  -- A walk goes on with the candidates left from the last period
  | some w =>
    rw [step, resume_eq] at h
    obtain ⟨horizon, hh, h⟩ := Except.bind_eq_ok.1 h
    obtain ⟨outcome, hscan, h⟩ := Except.bind_eq_ok.1 h
    obtain ⟨hscan, has⟩ := scan_unexcluded hscan
    obtain ⟨h, has⟩ := settle_unexcluded has (fun _ _ => seek_unexcluded) h
    refine ⟨?_, has⟩
    rw [step, resume_eq]
    exact Except.bind_eq_ok.2 ⟨horizon, hh, Except.bind_eq_ok.2 ⟨outcome, hscan, h⟩⟩

end Walk

/-! ## What a counted series returns -/

namespace Series

variable {s : Series} {q : Query}

/-- Where its instant is known, a position answers a query if it is accepted and not left out. -/
theorem answers_of_inUtc (made : s.Made) {m utc : Moment} (hm : m.zone = s.zone)
    (hutc : m.inUtc = .ok utc) : s.answers q m = .ok (q.accepts m && !s.excludes m) := by
  rw [answers, isExcluded_of_inUtc made hm hutc]
  cases q.accepts m <;> rfl

/-- A counted walk takes those of the positions that are accepted and not left out, as many as were
asked for. -/
theorem takeCounted_eq (made : s.Made) {w : Option Walk} (hw : Walk.Stands s everyPosition w)
    {count : Nat} {positions : List Moment}
    (h : s.unexcluded.take allOccurrences count w = .ok positions) (limit : Nat) :
    s.takeCounted q count limit w =
      .ok ((positions.filter fun m => q.accepts m && !s.excludes m).take limit) := by
  induction count generalizing w positions limit with
  | zero =>
    injection h with h
    subst h
    cases limit <;> rfl
  | succ count ih =>
    cases limit with
    | zero => rfl
    | succ limit =>
      rcases take_succ_eq_ok h with ⟨hr, rfl⟩ | ⟨m, next, rest, hr, hrest, rfl⟩
      · rw [takeCounted, (Walk.step_unexcluded hr).1]
        rfl
      · obtain ⟨hstep, has⟩ := Walk.step_unexcluded hr
        obtain ⟨hf, hp⟩ := Walk.step_follows (Query.inZone_none _ _) hw hstep
        obtain ⟨utc, hutc⟩ := has m rfl
        have ih := fun limit => ih (hf.stands hp) hrest limit
        -- Without exclusions the instant has been looked up as well, so the answer is known
        rw [takeCounted_step, hstep]
        simp only [bind, Except.bind, answers_of_inUtc made hf.zone hutc, List.filter_cons]
        cases q.accepts m && !s.excludes m with
        | false => exact ih (limit + 1)
        | true =>
          simp only [if_true, ih limit]
          rfl

/-- No more is taken than the limit says. -/
theorem length_take_le {w : Option Walk} {limit : Nat} {found : List Moment}
    (h : s.take q limit w = .ok found) : found.length ≤ limit := by
  induction limit generalizing w found with
  | zero =>
    injection h with h
    rw [← h]
    exact Nat.le_refl 0
  | succ limit ih =>
    rcases take_succ_eq_ok h with ⟨-, rfl⟩ | ⟨m, next, rest, -, hrest, rfl⟩
    · exact Nat.zero_le _
    · exact Nat.succ_le_succ (ih hrest)

/-- A counted series answers every question from the first positions of the series that has neither
a count nor exclusions: with those later than the bound and not left out, as many as were asked for.
Only a bound without a reading in the zone and a limit that no list can have are refused. -/
theorem occurrencesAfter_counted {s₀ : Series} {fields : Fields} {anchor : Stamp} {zone : Zone}
    {lookahead : Int} {n : Positive} {positions : List Moment}
    (hs : make fields anchor zone lookahead = .ok s) (hcount : fields.count = some n)
    (hs₀ : make fields.unexcluded anchor zone lookahead = .ok s₀)
    (hpositions : s₀.occurrencesAfter none n.val = .ok positions) :
    positions.length ≤ n.val ∧
      (∀ after limit, s.occurrencesAfter after limit =
        orFail (after.mapM fun stamp => stamp.inZone zone) >>= fun bound =>
          if maxLimit < limit then .error .limitTooLarge
          else .ok ((positions.filter fun m =>
            (⟨bound, true⟩ : Query).accepts m && !s.excludes m).take limit.toNat)) ∧
      ∀ after limit found, s.occurrencesAfter after limit = .ok found → found ⊆ positions := by
  have eq₀ := eq_unexcluded hs hs₀
  subst eq₀
  obtain ⟨rfl, rfl, -, -, made⟩ := make_eq_ok hs
  obtain ⟨bound, hbound, small, hpositions⟩ := occurrencesAfter_eq_ok.1 hpositions
  injection hbound with hbound
  subst hbound
  have hpositions : s.unexcluded.take allOccurrences n.val none = .ok positions :=
    orFail_eq_ok.1 hpositions
  -- Refused questions included, one equation gives all answers
  have answer : ∀ after limit, s.occurrencesAfter after limit =
      orFail (after.mapM fun stamp => stamp.inZone s.zone) >>= fun bound =>
        if maxLimit < limit then .error .limitTooLarge
        else .ok ((positions.filter fun m =>
          (⟨bound, true⟩ : Query).accepts m && !s.excludes m).take limit.toNat) := by
    intro after limit
    rw [occurrencesAfter, orFail_bound]
    refine bind_congr fun bound => ?_
    split
    · rfl
    · rw [occurrences, hcount]
      simp only
      split
      · rename_i zero
        rw [zero, List.take_zero]
      · rw [if_neg (by omega), takeCounted_eq (w := none) made trivial hpositions]
        rfl
  refine ⟨length_take_le hpositions, answer, fun after limit found h => ?_⟩
  rw [answer] at h
  obtain ⟨bound, -, h⟩ := Except.bind_eq_ok.1 h
  split at h
  · injection h
  · injection h with h
    rw [← h]
    exact fun m hm => (List.mem_filter.1 (List.mem_of_mem_take hm)).1

/-- Three days, without the second of them. -/
def threeDays : Fields where
  freq := .daily
  interval := none
  count := some ⟨3, by decide⟩
  ending := none
  byMonth := .empty
  byMonthDay := []
  byDay := []
  exdates := [⟨⟨⟨⟨2012, 1, 2, by decide⟩, .midnight⟩, .region .utc, false⟩, true, false⟩]
  keyOrder := []
  dayFilters := Fields.noDayFilters

/-- The three days from the beginning of 2012 on. -/
def threeDaysSeries : Series where
  fields := threeDays
  zone := .region .utc
  reading := ⟨⟨2012, 1, 1, by decide⟩, .midnight⟩
  second := false
  lookahead := .one
  endingDate := none
  excludedDates := [⟨2012, 1, 2, by decide⟩]
  excludedInstants := []

/-- The anchor of the three days. -/
def threeDaysAnchor : Stamp := ⟨⟨⟨2012, 1, 1, by decide⟩, .midnight⟩, false, none⟩

/-- The three days, the second one included. -/
def threeDaysPositions : List Moment :=
  [⟨2012, 1, 1, by decide⟩, ⟨2012, 1, 2, by decide⟩, ⟨2012, 1, 3, by decide⟩].map
    threeDaysSeries.momentOn

/-- Of three days the second is excluded, and two answers are left. -/
theorem threeDays_counted :
    make threeDays threeDaysAnchor (.region .utc) 1 = .ok threeDaysSeries ∧
      make threeDays.unexcluded threeDaysAnchor (.region .utc) 1 =
        .ok threeDaysSeries.unexcluded ∧
      threeDaysSeries.unexcluded.occurrencesAfter none 3 = .ok threeDaysPositions ∧
      threeDaysSeries.occurrencesAfter none 5 = .ok
        ([⟨2012, 1, 1, by decide⟩, ⟨2012, 1, 3, by decide⟩].map threeDaysSeries.momentOn) :=
  have made : make threeDays threeDaysAnchor (.region .utc) 1 = .ok threeDaysSeries := rfl
  have made₀ : make threeDays.unexcluded threeDaysAnchor (.region .utc) 1 =
      .ok threeDaysSeries.unexcluded := rfl
  have positions : threeDaysSeries.unexcluded.occurrencesAfter none 3 =
      .ok threeDaysPositions := by decide +kernel
  ⟨made, made₀, positions,
    ((occurrencesAfter_counted (n := ⟨3, by decide⟩) made rfl made₀ positions).2.1 none 5).trans
      (by decide +kernel)⟩

/-- A limit that no list can have is refused, although the positions have been found. -/
theorem threeDays_refuses_limit :
    make threeDays threeDaysAnchor (.region .utc) 1 = .ok threeDaysSeries ∧
      make threeDays.unexcluded threeDaysAnchor (.region .utc) 1 =
        .ok threeDaysSeries.unexcluded ∧
      threeDaysSeries.unexcluded.occurrencesAfter none 3 = .ok threeDaysPositions ∧
      threeDaysSeries.occurrencesAfter none 9223372036854775808 ≠
        .ok ((threeDaysPositions.filter fun m => !threeDaysSeries.excludes m).take
          (9223372036854775808 : Int).toNat) :=
  ⟨rfl, rfl, by decide +kernel, by decide +kernel⟩

end Series

end Recurrence
