import Recurrence.Proofs.Narrowing
import Recurrence.Proofs.Prescription

/-!
# Later bounds

A search after a later bound does not walk there. It starts in the period of the bound, and counts
its lookahead from there. It still hands out what a walk from an earlier bound comes to beyond the
later one.

* `Series.filter_occurrences_prefix`: the answer after a later bound begins with the rest of the
  answer after an earlier one.
* `Series.nextOf_later`: the next occurrence after a bound between two occurrences.
* `Series.occurrencesAfter_later`: both, for questions at any two stamps.
-/

namespace Recurrence.Series

variable {s : Series} {bound : Option Moment} {later m : Moment} {n k : Nat}
  {all found : List Moment}

/-- Of two answers to one question, the one that was asked for less begins the other. -/
theorem take_occurrences_prefix (hz : (⟨bound, true⟩ : Query).InZone s.zone)
    (h : s.occurrences bound n = .ok all) (h' : s.occurrences bound k = .ok found) :
    all.take k <+: found := by
  cases Nat.le_total n k with
  | inl le =>
    obtain ⟨more, rfl⟩ := Nat.exists_eq_add_of_le le
    have cut := Except.ok.inj (h.symm.trans (occurrences_le hz h'))
    rw [cut]
    exact (List.take_prefix _ _).trans (List.take_prefix _ _)
  | inr le =>
    obtain ⟨more, rfl⟩ := Nat.exists_eq_add_of_le le
    have cut : all.take k = found := Except.ok.inj ((occurrences_le hz h).symm.trans h')
    subst cut
    exact List.prefix_refl _

/-- What follows an occurrence is later than every bound before that occurrence. -/
theorem filter_later_eq (zone : later.zone = s.zone) (hm : m.zone = s.zone)
    (h : s.occurrences (some m) n = .ok all) (lt : later.isBefore m = true) :
    (m :: all).filter later.isBefore = m :: all := by
  apply List.filter_eq_self.2
  intro c hc
  cases hc with
  | head => exact lt
  | tail _ hc =>
    have hz : (⟨some m, true⟩ : Query).InZone s.zone := inZone_some hm
    have after : m.isBefore c = true := accepts_of_mem_occurrences hz h hc
    have hc := zone_of_mem_occurrences hz h hc
    exact Moment.isBefore_trans (zone.trans hm.symm) (hm.trans hc.symm) lt after

/-- What an answer has beyond a later bound comes first in the answer after that bound. -/
theorem filter_occurrences_prefix (hz : (⟨bound, true⟩ : Query).InZone s.zone)
    (zone : later.zone = s.zone) (narrows : (⟨some later, true⟩ : Query).Narrows ⟨bound, true⟩)
    (h : s.occurrences bound n = .ok all) (h' : s.occurrences (some later) k = .ok found) :
    (all.filter later.isBefore).take k <+: found := by
  have hz' : (⟨some later, true⟩ : Query).InZone s.zone := inZone_some zone
  induction n generalizing bound all with
  | zero =>
    rw [occurrences_zero] at h
    injection h with h
    rw [← h, List.filter_nil, List.take_nil]
    exact List.nil_prefix
  | succ n ih =>
    obtain ⟨-, rfl⟩ | ⟨m, rest, hm, hzm, hrest, rfl⟩ := occurrences_succ_eq_ok hz h
    · rw [List.filter_nil, List.take_nil]
      exact List.nil_prefix
    · cases order : later.isBefore m with
      | false =>
        -- The walk has not come to the later bound yet
        rw [List.filter_cons_of_neg (Bool.eq_false_iff.1 order)]
        exact ih hzm (Query.narrows_some order true) hrest
      | true =>
        rw [filter_later_eq zone (hzm m rfl) hrest order]
        cases k with
        | zero => exact List.nil_prefix
        | succ k =>
          -- Both answers go on with this occurrence, and then with the same question
          have first := nextOf_of_occurrences hz' h'
          have next : s.nextOf (some later) = .ok (some m) :=
            nextOf_narrow hz hz' narrows hm order (horizon_of_nextOf first)
          rw [occurrences_succ hz', next] at h'
          obtain ⟨rest', hrest', rfl⟩ := Except.map_eq_ok.1 h'
          rw [List.take_succ_cons, List.prefix_cons_inj]
          exact take_occurrences_prefix hzm hrest hrest'

/-- A bound between two occurrences does not change the next one. The lookahead from the bound may
leave the calendar, and then there is no answer. -/
theorem nextOf_later (hz : (⟨bound, true⟩ : Query).InZone s.zone) (zone : later.zone = s.zone)
    (narrows : (⟨some later, true⟩ : Query).Narrows ⟨bound, true⟩)
    (h : s.nextOf bound = .ok (some m)) (before : later.isBefore m = true) :
    s.nextOf (some later) = .ok (some m) ∨ s.fields.count = none ∧
      ∃ fault, (s.originAfter (some later)).shiftYears s.lookahead.val = .error fault ∧
        s.nextOf (some later) = .error (.calendar fault) := by
  have hz' : (⟨some later, true⟩ : Query).InZone s.zone := inZone_some zone
  rw [originAfter_eq hz']
  cases hcount : s.fields.count with
  | some count =>
    left
    apply nextOf_narrow hz hz' narrows h before
    intro none
    rw [hcount] at none
    injection none
  | none =>
    -- The lookahead is measured from the later bound, and that can leave the calendar
    cases horizon : (Walk.floor s ⟨some later, true⟩).date.shiftYears s.lookahead.val with
    | ok date =>
      left
      exact nextOf_narrow hz hz' narrows h before fun _ => ⟨date, horizon⟩
    | error fault =>
      refine .inr ⟨rfl, fault, rfl, ?_⟩
      simp only [nextOf, hcount]
      rw [firstOf, Walk.start_eq, horizon]
      rfl

/-- A question for the next occurrence, once its bound is read. -/
theorem nextAfter_eq_nextOf {after : Option Stamp}
    (h : after.mapM (fun stamp => stamp.inZone s.zone) = .ok bound) :
    s.nextAfter after = s.nextOf bound := by
  rw [nextAfter, occurrencesAfter, orFail_bound, h,
    ← head?_occurrences (Query.inZone_of_mapM h true)]
  rfl

/-- A question after a later stamp is answered with what the answer after an earlier one has beyond
it, before anything else. So a stamp between two occurrences has the same next occurrence as the
first of them, unless the lookahead from it leaves the calendar. -/
theorem occurrencesAfter_later {fields : Fields} {anchor : Stamp} {zone : Zone} {lookahead : Int}
    (hs : make fields anchor zone lookahead = .ok s) {a : Option Stamp} {b : Stamp}
    (ha : a.mapM (fun stamp => stamp.inZone zone) = .ok bound) (hb : b.inZone zone = .ok later)
    (order : ∀ first ∈ bound, later.isBefore first = false) :
    (∀ (n k : Int) (all found : List Moment), s.occurrencesAfter a n = .ok all →
      s.occurrencesAfter (some b) k = .ok found →
        (all.filter later.isBefore).take k.toNat <+: found) ∧
      ∀ m, s.nextAfter a = .ok (some m) → later.isBefore m = true →
        s.nextAfter (some b) = .ok (some m) ∨ fields.count = none ∧
          ∃ fault, (s.originAfter (some later)).shiftYears lookahead = .error fault ∧
            s.nextAfter (some b) = .error (.calendar fault) := by
  obtain ⟨rfl, rfl, rfl, -, -⟩ := make_eq_ok hs
  have hb : (some b).mapM (fun stamp => stamp.inZone s.zone) = .ok (some later) := by
    rw [Option.mapM_some, hb]
    rfl
  have hz : (⟨bound, true⟩ : Query).InZone s.zone := Query.inZone_of_mapM ha true
  have zone : later.zone = s.zone := Query.inZone_of_mapM hb true later rfl
  -- The later bound narrows the question, which is all that both parts need
  have narrows : (⟨some later, true⟩ : Query).Narrows ⟨bound, true⟩ :=
    ⟨rfl, fun first hfirst => ⟨later, rfl, order first hfirst⟩⟩
  constructor
  · intro n k all found hall hfound
    obtain ⟨bound', hbound', -, hall⟩ := occurrencesAfter_eq_ok.1 hall
    obtain ⟨later', hlater', -, hfound⟩ := occurrencesAfter_eq_ok.1 hfound
    rw [ha] at hbound'
    rw [hb] at hlater'
    injection hbound' with hbound'
    injection hlater' with hlater'
    subst hbound' hlater'
    exact filter_occurrences_prefix hz zone narrows hall hfound
  · intro m hm before
    rw [nextAfter_eq_nextOf ha] at hm
    rw [nextAfter_eq_nextOf hb]
    exact nextOf_later hz zone narrows hm before

/-- Every other week. -/
def everyOtherWeek : Fields where
  freq := .weekly
  interval := some ⟨2, Nat.two_pos⟩
  count := none
  ending := none
  byMonth := .empty
  byMonthDay := []
  byDay := []
  exdates := []
  keyOrder := []
  dayFilters := Fields.noDayFilters

/-- Every other Tuesday from the third of January 2023 on. -/
def otherTuesdays : Series where
  fields := everyOtherWeek
  zone := .region .utc
  reading := ⟨⟨2023, 1, 3, by decide⟩, .midnight⟩
  second := false
  lookahead := .one
  endingDate := none
  excludedDates := []
  excludedInstants := []

/-- A day of January 2023, at midnight. -/
def inJanuary (day : Nat) (h : 1 ≤ day ∧ day ≤ 31) : Moment :=
  otherTuesdays.momentOn ⟨2023, 1, day, by decide, by decide, h⟩

/-- The eleventh lies in a week that is skipped. -/
theorem otherTuesdays_later :
    make everyOtherWeek (inJanuary 3 (by decide)).stamp (.region .utc) 1 = .ok otherTuesdays ∧
      [inJanuary 17 (by decide)] <+: [inJanuary 17 (by decide), inJanuary 31 (by decide)] ∧
      otherTuesdays.nextAfter (some (inJanuary 4 (by decide)).stamp) =
        .ok (some (inJanuary 17 (by decide))) ∧
      otherTuesdays.nextAfter (some (inJanuary 11 (by decide)).stamp) =
        .ok (some (inJanuary 17 (by decide))) := by
  have made : make everyOtherWeek (inJanuary 3 (by decide)).stamp (.region .utc) 1 =
      .ok otherTuesdays := rfl
  have walked : otherTuesdays.occurrencesAfter none 2 =
      .ok [inJanuary 3 (by decide), inJanuary 17 (by decide)] := by
    decide +kernel
  have jumped : otherTuesdays.occurrencesAfter (some (inJanuary 11 (by decide)).stamp) 2 =
      .ok [inJanuary 17 (by decide), inJanuary 31 (by decide)] := by
    decide +kernel
  have next : otherTuesdays.nextAfter (some (inJanuary 4 (by decide)).stamp) =
      .ok (some (inJanuary 17 (by decide))) := by
    decide +kernel
  have fromStart := (occurrencesAfter_later (b := (inJanuary 11 (by decide)).stamp) made rfl rfl
    (by decide)).1 _ _ _ _ walked jumped
  have between := (occurrencesAfter_later (b := (inJanuary 11 (by decide)).stamp) made rfl rfl
    (by decide)).2 _ next (by decide)
  refine ⟨made, fromStart, next, ?_⟩
  -- The lookahead from January stays in the calendar
  obtain same | ⟨-, fault, leaves, -⟩ := between
  · exact same
  · injection leaves

end Recurrence.Series
