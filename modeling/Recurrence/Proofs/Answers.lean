import Recurrence.Proofs.Positions
import Recurrence.Proofs.Prescription

/-!
# Answers of a series

What a series answers to a question, with or without a count, told from its candidates alone. The
limit of the question cuts the answer and has no other part in it.

* `Series.answersAfter`: all that a series has to answer after a bound.
* `Series.occurrencesAfter_eq_answers`: a search returns these, as many as were asked for.
-/

namespace Recurrence.Series

variable {s : Series} {q : Query} {m : Moment} {w : Option Walk}

/-- All that a series has to answer after a bound. With a count, the answers are among the first
positions from the anchor on. -/
def answersAfter (s : Series) (bound : Option Moment) : List Moment :=
  match s.fields.count with
  | none => s.through true (s.originAfter bound) (s.candidatesOf ⟨bound, true⟩)
  | some count =>
    ((s.through false s.reading.date (s.candidatesOf everyPosition)).take count.val).filter
      fun m => (⟨bound, true⟩ : Query).accepts m && !s.excludes m

/-- Without a count, and with an end on the clocks of the zone if there is one, the answers are the
prescribed occurrences that are within the lookahead. -/
theorem answersAfter_eq_withinLookahead (made : s.Made) (hcount : s.fields.count = none)
    (hend : s.EndsInZone) (bound : Option Moment) : s.answersAfter bound =
      s.withinLookahead (s.originAfter bound) (s.prescribed bound) := by
  have zone : ∀ m ∈ s.candidatesOf ⟨bound, true⟩, m.zone = s.zone := by
    intro m hm
    rw [(mem_candidatesOf.1 hm).1]
    rfl
  rw [answersAfter, hcount, prescribed_eq]
  exact through_eq_withinLookahead made hend zone (pairwise_candidatesOf _ _)

/-- A position that answers a query is accepted and not left out. -/
theorem answers_eq (made : s.Made) (hm : m.zone = s.zone) {answer : Bool}
    (h : s.answers q m = .ok answer) : (q.accepts m && !s.excludes m) = answer := by
  unfold answers at h
  split at h
  · rename_i accepted
    obtain ⟨out, hout, rfl⟩ := Except.map_eq_ok.1 h
    rw [accepted, Bool.true_and, isExcluded_eq made hm hout]
  · rename_i refused
    injection h with h
    rw [Bool.eq_false_iff.2 refused, Bool.false_and, h]

/-- A counted walk takes those of the positions ahead of it that are accepted and not left out, as
many as were asked for. -/
theorem takeCounted_eq_ahead (made : s.Made) (hw : Walk.Stands s everyPosition w)
    {count limit : Nat} {found : List Moment} (h : s.takeCounted q count limit w = .ok found) :
    found = (((Walk.ahead s everyPosition w).take count).filter
      fun m => q.accepts m && !s.excludes m).take limit := by
  induction count generalizing w limit found with
  | zero =>
    rw [takeCounted_zero] at h
    injection h with h
    rw [← h, List.take_zero, List.filter_nil, List.take_nil]
  | succ count ih =>
    cases limit with
    | zero =>
      injection h with h
      rw [← h, List.take_zero]
    | succ limit =>
      rw [takeCounted_step] at h
      obtain ⟨r, hr, h⟩ := Except.bind_eq_ok.1 h
      -- The position taken by this step is the first of those ahead
      have ahead : Walk.ahead s everyPosition w = Walk.resultThrough s everyPosition r :=
        Walk.ahead_step made (Query.inZone_none _ _) hw hr
      cases r with
      | none =>
        injection h with h
        rw [← h, ahead]
        rfl
      | some step =>
        obtain ⟨m, next⟩ := step
        obtain ⟨hf, hp⟩ := Walk.step_follows (Query.inZone_none _ _) hw hr
        obtain ⟨answer, hanswer, h⟩ := Except.bind_eq_ok.1 h
        rw [ahead, Walk.resultThrough, List.take_succ_cons, List.filter_cons,
          answers_eq made hf.zone hanswer]
        -- A position that is an answer uses up the limit, any other one the count alone
        cases answer with
        | true =>
          obtain ⟨rest, hrest, rfl⟩ := Except.map_eq_ok.1 h
          rw [if_pos rfl, List.take_succ_cons, ← ih (hf.stands hp) hrest]
        | false => exact ih (hf.stands hp) h

/-- A search returns what the series has to answer after the bound, as much as was asked for. -/
theorem occurrencesAfter_eq_answers (made : s.Made) {after : Option Stamp} {limit : Int}
    {found : List Moment} (h : s.occurrencesAfter after limit = .ok found) :
    ∃ bound, after.mapM (fun stamp => stamp.inZone s.zone) = .ok bound ∧
      found = (s.answersAfter bound).take limit.toNat := by
  obtain ⟨bound, hbound, -, h⟩ := occurrencesAfter_eq_ok.1 h
  refine ⟨bound, hbound, ?_⟩
  unfold answersAfter
  unfold occurrences at h
  -- With a count the positions from the anchor on are counted, the bound only selects
  cases hcount : s.fields.count with
  | none =>
    rw [hcount] at h
    have hz : (⟨bound, true⟩ : Query).InZone s.zone := Query.inZone_of_mapM hbound true
    simp only
    rw [take_eq_through made hz (orFail_eq_ok.1 h), ← originAfter_eq hz]
  | some count =>
    rw [hcount] at h
    simp only at h ⊢
    split at h
    · rename_i zero
      injection h with h
      rw [← h, zero, List.take_zero]
    · split at h
      · injection h
      · exact takeCounted_eq_ahead (w := none) made trivial (orFail_eq_ok.1 h)

end Recurrence.Series
