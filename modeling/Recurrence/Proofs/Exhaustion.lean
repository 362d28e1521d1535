import Recurrence.Proofs.CalendarEnd
import Recurrence.Proofs.Count

/-!
# Running out of calendar

A walk is a row of searches, one beyond each moment that it hands out. It returns if all of them
have room to come to a stop. It ends in a calendar fault if one of them cannot stop.

* `Series.course`: the moments that a search, and those beyond its results, hand out.
* `Walk.GoesOn`: which search the next step of a walk is.
* `Series.searches`, `Series.answer`: the searches that a question takes, and what they hand out.
* `Series.occurrencesAfter_exhausts`: when that is the answer, and when there is a fault instead.
-/

namespace Recurrence

namespace Series

variable {s : Series} {q p : Query} {m : Moment} {origin : Date} {exclude : Bool}
variable {l rest : List Moment}

/-! ## The course of a search -/

/-- The moments that a search, and those beyond its results, hand out one after the other. -/
def course (s : Series) (q : Query) : List Moment :=
  s.through q.exclude (Walk.floor s q).date (s.candidatesOf q)

/-- What a search goes through after its first result are the candidates beyond that. -/
theorem through_eq_cons (hl : l.Pairwise fun a b => a.isBefore b = true)
    (h : s.through exclude origin l = m :: rest) :
    m ∈ l ∧ rest = s.through exclude m.date (l.filter fun c => m.isBefore c) := by
  induction l with
  | nil => injection h
  | cons c l ih =>
    obtain ⟨later, hl⟩ := List.pairwise_cons.1 hl
    rw [through] at h
    split at h
    · injection h
    · split at h
      · obtain ⟨mem, hrest⟩ := ih hl h
        -- A moment that is passed over lies before the one that is found
        have before : ¬m.isBefore c = true := by
          rw [Moment.isBefore_asymm (later m mem)]
          exact Bool.false_ne_true
        rw [List.filter_cons_of_neg before]
        exact ⟨List.mem_cons_of_mem _ mem, hrest⟩
      · injection h with hm hrest
        subst hm
        have self : ¬c.isBefore c = true := by
          rw [Moment.isBefore_irrefl]
          exact Bool.false_ne_true
        rw [List.filter_cons_of_neg self, List.filter_eq_self.2 later]
        exact ⟨List.mem_cons_self, hrest.symm⟩

/-- The candidates of a query beyond one of them. -/
theorem candidatesOf_beyond (hz : q.InZone s.zone) (hm : m ∈ s.candidatesOf q) :
    s.candidatesOf (q.beyond m) = (s.candidatesOf q).filter fun c => m.isBefore c := by
  obtain ⟨on, -, admits⟩ := mem_candidatesOf.1 hm
  have accepted := (Walk.admits_iff.1 admits).2
  rw [candidatesOf, candidatesOf, List.filter_filter]
  -- What comes later than an accepted moment is accepted, so only the order to it matters
  refine List.filter_congr fun c hc => ?_
  obtain ⟨d, -, rfl⟩ := List.mem_map.1 hc
  cases later : m.isBefore (s.momentOn d) with
  | false =>
    simp only [Series.admits, Query.accepts, Query.beyond, later, Bool.and_false, Bool.false_and]
  | true =>
    have lt : m.date < d := by
      rw [on] at later
      exact isBefore_momentOn.1 later
    simp only [Series.admits, Walk.accepts_of_lt hz on accepted lt, Bool.true_and]
    simp only [Query.accepts, Query.beyond, later]

/-- After its first moment, the course of a search is that of the search beyond it. -/
theorem course_eq_cons (hz : q.InZone s.zone) (h : s.course q = m :: rest) :
    rest = s.course (q.beyond m) := by
  obtain ⟨mem, hrest⟩ := through_eq_cons (pairwise_candidatesOf s q) h
  have anchored := (Walk.admits_iff.1 (mem_candidatesOf.1 mem).2.2).1
  rw [course, Walk.floor_eq_bound rfl anchored, candidatesOf_beyond hz mem]
  exact hrest

end Series

/-! ## Walks as rows of searches -/

namespace Walk

variable {s : Series} {q p : Query} {m : Moment} {w : Option Walk}

/-- Whether a walk for one query goes on as a new search for another. -/
structure GoesOn (s : Series) (q : Query) (w : Option Walk) (p : Query) : Prop where
  stands : Stands s q w
  step_eq : step s q w = start s p
  exclude_eq : p.exclude = q.exclude
  inZone : p.InZone s.zone

/-- A walk that has not begun is a new search. -/
theorem goesOn_none (hz : q.InZone s.zone) : GoesOn s q none q := ⟨trivial, rfl, rfl, hz⟩

namespace GoesOn

/-- A walk ends where the course of its search does. -/
theorem course_of_none (made : s.Made) (h : GoesOn s q w p) (hr : step s q w = .ok none) :
    s.course p = [] :=
  through_start made h.inZone (h.step_eq.symm.trans hr)

/-- A walk hands out the first moment of the course of its search. -/
theorem course_of_some (made : s.Made) (h : GoesOn s q w p) {next : Walk}
    (hr : step s q w = .ok (some (m, next))) : s.course p = m :: s.course (p.beyond m) := by
  have hcourse : s.course p = resultThrough s p (some (m, next)) :=
    through_start made h.inZone (h.step_eq.symm.trans hr)
  rw [hcourse]
  exact congrArg (m :: ·) (Series.course_eq_cons h.inZone hcourse)

/-- After an occurrence, a walk goes on as a search beyond it. -/
theorem next (hz : q.InZone s.zone) (h : GoesOn s q w p) {next : Walk}
    (hr : step s q w = .ok (some (m, next))) : GoesOn s q (some next) (p.beyond m) := by
  obtain ⟨hf, hp⟩ := step_follows hz h.stands hr
  -- Beyond a moment, queries differ in nothing but what they leave out
  have same : p.beyond m = q.beyond m := by rw [Query.beyond, Query.beyond, h.exclude_eq]
  refine ⟨hf.stands hp, ?_, h.exclude_eq, Query.inZone_beyond p hf.zone⟩
  rw [same]
  exact resume_eq_start hf hz (admits_iff.1 hp.admits).2

/-- A walk takes a step if its search runs. It is then known of what it hands out whether it answers
a question. -/
theorem exists_step (made : s.Made) (below : s.zone.BelowDay) (early : 2 ≤ s.reading.date.year)
    (h : GoesOn s q w p) (runs : s.Runs p) :
    ∃ r, step s q w = .ok r ∧ ∀ found ∈ r, ∃ utc, found.1.inUtc = .ok utc := by
  rw [h.step_eq]
  obtain ⟨r, hr, late⟩ := exists_start made below early h.inZone runs
  refine ⟨r, hr, fun found hfound => ?_⟩
  obtain ⟨m, w⟩ := found
  rw [hfound] at hr
  obtain ⟨hf, -⟩ := start_follows h.inZone hr
  exact Series.exists_inUtc below early (late _ hfound) hf.zone hf.anchored

/-- A walk whose search fails takes no step. -/
theorem not_fails (made : s.Made) (h : GoesOn s q w p) {r : Option (Moment × Walk)}
    (hr : step s q w = .ok r) : ¬s.Fails p :=
  not_fails_of_start made h.inZone (h.step_eq.symm.trans hr)

end GoesOn

end Walk

/-! ## Rows of searches -/

namespace Series

variable {s : Series} {q p : Query} {m : Moment} {w : Option Walk} {wanted : Moment → Bool}
variable {count limit : Nat}

/-- The searches along a course, from one query on, until `limit` wanted moments are found. -/
def searchesAlong (wanted : Moment → Bool) : (limit : Nat) → Query → (course : List Moment) →
    List Query
  | 0, _, _ => []
  | _ + 1, q, [] => [q]
  | limit + 1, q, m :: rest =>
    q :: searchesAlong wanted (if wanted m then limit else limit + 1) (q.beyond m) rest

/-- Without a limit there is no search. -/
theorem searchesAlong_zero (wanted : Moment → Bool) (q : Query) (course : List Moment) :
    searchesAlong wanted 0 q course = [] := by
  cases course <;> rfl

/-- The first search along a course is for the query itself. -/
theorem searchesAlong_succ (wanted : Moment → Bool) (limit : Nat) (q : Query)
    (course : List Moment) :
    ∃ later, searchesAlong wanted (limit + 1) q course = q :: later := by
  cases course with
  | nil => exact ⟨[], rfl⟩
  | cons m rest => exact ⟨_, rfl⟩

/-- A walk takes what its course holds if all its searches run. -/
theorem take_of_runs (made : s.Made) (below : s.zone.BelowDay) (early : 2 ≤ s.reading.date.year)
    (hz : q.InZone s.zone) (h : Walk.GoesOn s q w p)
    (runs : ∀ p' ∈ searchesAlong (fun _ => true) limit p (s.course p), s.Runs p') :
    s.take q limit w = .ok ((s.course p).take limit) := by
  induction limit generalizing w p with
  | zero => rw [take, List.take_zero]
  | succ limit ih =>
    -- The first search is among those that run, so this step returns
    obtain ⟨later, hlater⟩ := searchesAlong_succ (fun _ => true) limit p (s.course p)
    obtain ⟨r, hr, -⟩ := h.exists_step made below early (runs p (hlater ▸ List.mem_cons_self))
    rw [take, hr]
    cases r with
    | none => rw [h.course_of_none made hr, List.take_nil]
    | some found =>
      have course := h.course_of_some made hr
      rw [course] at runs ⊢
      have rest := ih (h.next hz hr) fun p' hp' => runs p' (List.mem_cons_of_mem _ hp')
      simp only [rest, List.take_succ_cons]
      rfl

/-- A walk fails if one of its searches does. -/
theorem take_of_fails (made : s.Made) (hz : q.InZone s.zone) (h : Walk.GoesOn s q w p)
    (fails : ∃ p' ∈ searchesAlong (fun _ => true) limit p (s.course p), s.Fails p') :
    ∃ fault, s.take q limit w = .error fault := by
  induction limit generalizing w p with
  | zero =>
    obtain ⟨p', hp', -⟩ := fails
    rw [searchesAlong_zero] at hp'
    exact absurd hp' List.not_mem_nil
  | succ limit ih =>
    rw [take]
    cases hr : Walk.step s q w with
    | error fault => exact ⟨fault, rfl⟩
    | ok r =>
      -- This search has returned, so a later one fails
      have here := h.not_fails made hr
      obtain ⟨p', hp', fails⟩ := fails
      cases r with
      | none =>
        rw [h.course_of_none made hr] at hp'
        exact absurd (List.mem_singleton.1 hp' ▸ fails) here
      | some found =>
        rw [h.course_of_some made hr] at hp'
        rcases List.mem_cons.1 hp' with rfl | hp'
        · exact absurd fails here
        · obtain ⟨fault, hfault⟩ := ih (h.next hz hr) ⟨p', hp', fails⟩
          refine ⟨fault, ?_⟩
          simp only [hfault]
          rfl

/-- Whether a moment answers a question: it is later than the bound and not left out. -/
def isWanted (s : Series) (bound : Option Moment) (m : Moment) : Bool :=
  (⟨bound, true⟩ : Query).accepts m && !s.excludes m

/-- A moment is wanted if it has been found to be an answer. -/
theorem isWanted_of_answers (made : s.Made) (hm : m.zone = s.zone) {bound : Option Moment}
    {answer : Bool} (h : s.answers ⟨bound, true⟩ m = .ok answer) :
    s.isWanted bound m = answer := by
  unfold answers at h
  unfold isWanted
  split at h
  · rename_i accepted
    obtain ⟨out, hout, rfl⟩ := Except.map_eq_ok.1 h
    rw [accepted, isExcluded_eq made hm hout]
    rfl
  · rename_i refused
    injection h with h
    rw [Bool.eq_false_iff.2 refused, ← h]
    rfl

/-- A counted walk takes what is wanted among the first moments of its course if all its searches
run. -/
theorem takeCounted_of_runs (made : s.Made) (below : s.zone.BelowDay)
    (early : 2 ≤ s.reading.date.year) {bound : Option Moment}
    (h : Walk.GoesOn s everyPosition w p)
    (runs : ∀ p' ∈ (searchesAlong (s.isWanted bound) limit p (s.course p)).take count, s.Runs p') :
    s.takeCounted ⟨bound, true⟩ count limit w =
      .ok ((((s.course p).take count).filter (s.isWanted bound)).take limit) := by
  induction count generalizing w p limit with
  | zero => rw [takeCounted_zero, List.take_zero, List.filter_nil, List.take_nil]
  | succ count ih =>
    cases limit with
    | zero => rw [takeCounted_limit_zero, List.take_zero]
    | succ limit =>
      obtain ⟨later, hlater⟩ := searchesAlong_succ (s.isWanted bound) limit p (s.course p)
      have run : s.Runs p := runs p (by simp [hlater])
      obtain ⟨r, hr, instants⟩ := h.exists_step made below early run
      rw [takeCounted_step, hr]
      cases r with
      | none =>
        rw [h.course_of_none made hr, List.take_nil]
        rfl
      | some found =>
        have course := h.course_of_some made hr
        -- The instant can be looked up, so it is known whether the position is wanted
        have on := (Walk.step_follows (Query.inZone_none _ _) h.stands hr).1.zone
        obtain ⟨utc, hutc⟩ := instants found rfl
        have known : s.answers ⟨bound, true⟩ found.1 = .ok (s.isWanted bound found.1) :=
          answers_of_inUtc made on hutc
        rw [course] at runs ⊢
        have next := h.next (Query.inZone_none _ _) hr
        -- The limit of what follows depends on the answer, and the searches with it
        have runs : ∀ p' ∈ (searchesAlong (s.isWanted bound)
            (if s.isWanted bound found.1 then limit else limit + 1) (p.beyond found.1)
            (s.course (p.beyond found.1))).take count, s.Runs p' :=
          fun p' hp' => runs p' (List.mem_cons_of_mem _ hp')
        simp only [bind, Except.bind, known, List.take_succ_cons, List.filter_cons]
        cases wanted : s.isWanted bound found.1 with
        | false =>
          rw [wanted, if_neg Bool.false_ne_true] at runs
          exact ih next runs
        | true =>
          rw [wanted, if_pos rfl] at runs
          simp only [if_true, ih next runs, List.take_succ_cons]
          rfl

/-- A counted walk fails if one of its searches does. -/
theorem takeCounted_of_fails (made : s.Made) {bound : Option Moment}
    (h : Walk.GoesOn s everyPosition w p)
    (fails : ∃ p' ∈ (searchesAlong (s.isWanted bound) limit p (s.course p)).take count,
      s.Fails p') : ∃ fault, s.takeCounted ⟨bound, true⟩ count limit w = .error fault := by
  induction count generalizing w p limit with
  | zero =>
    obtain ⟨p', hp', -⟩ := fails
    exact absurd hp' List.not_mem_nil
  | succ count ih =>
    obtain ⟨p', hp', fails⟩ := fails
    cases limit with
    | zero =>
      rw [searchesAlong_zero, List.take_nil] at hp'
      exact absurd hp' List.not_mem_nil
    | succ limit =>
      rw [takeCounted_step]
      cases hr : Walk.step s everyPosition w with
      | error fault => exact ⟨fault, rfl⟩
      | ok r =>
        -- This search has returned, so a later one fails
        have here := h.not_fails made hr
        cases r with
        | none =>
          rw [h.course_of_none made hr] at hp'
          exact absurd (List.mem_singleton.1 (List.mem_of_mem_take hp') ▸ fails) here
        | some found =>
          have on := (Walk.step_follows (Query.inZone_none _ _) h.stands hr).1.zone
          rw [h.course_of_some made hr] at hp'
          rcases List.mem_cons.1 hp' with rfl | hp'
          · exact absurd fails here
          · have next := h.next (Query.inZone_none _ _) hr
            simp only [bind, Except.bind]
            cases known : s.answers ⟨bound, true⟩ found.1 with
            | error fault => exact ⟨fault, rfl⟩
            | ok answer =>
              rw [isWanted_of_answers made on known] at hp'
              -- An answer uses up the limit, any other position the count alone
              cases answer with
              | false => exact ih next ⟨p', hp', fails⟩
              | true =>
                rw [if_pos rfl] at hp'
                obtain ⟨fault, hfault⟩ := ih next ⟨p', hp', fails⟩
                refine ⟨fault, ?_⟩
                simp only [if_true, hfault]
                rfl

/-! ## Questions to a series -/

/-- The searches that a question takes: those along its course, or with a count those for the first
positions. -/
def searches (s : Series) (bound : Option Moment) (limit : Nat) : List Query :=
  match s.fields.count with
  | none => searchesAlong (fun _ => true) limit ⟨bound, true⟩ (s.course ⟨bound, true⟩)
  | some count =>
    (searchesAlong (s.isWanted bound) limit everyPosition (s.course everyPosition)).take count.val

/-- The answer to a question: the first moments of its course, or with a count what is wanted among
the first positions. -/
def answer (s : Series) (bound : Option Moment) (limit : Nat) : List Moment :=
  match s.fields.count with
  | none => (s.course ⟨bound, true⟩).take limit
  | some count =>
    (((s.course everyPosition).take count.val).filter (s.isWanted bound)).take limit

/-- Without a count, the first search that a question takes is its own. -/
theorem mem_searches (h : s.fields.count = none) (bound : Option Moment) (limit : Nat) :
    ⟨bound, true⟩ ∈ s.searches bound (limit + 1) := by
  obtain ⟨later, hlater⟩ := searchesAlong_succ (fun _ => true) limit ⟨bound, true⟩
    (s.course ⟨bound, true⟩)
  rw [searches, h]
  simp only [hlater]
  exact List.mem_cons_self

/-- If all searches run, the occurrences are the answer of the rule. -/
theorem occurrences_of_runs (made : s.Made) (below : s.zone.BelowDay)
    (early : 2 ≤ s.reading.date.year) (hcount : ∀ n ∈ s.fields.count, n.val ≤ maxLimit)
    {bound : Option Moment} (hz : (⟨bound, true⟩ : Query).InZone s.zone)
    (runs : ∀ q ∈ s.searches bound limit, s.Runs q) :
    s.occurrences bound limit = .ok (s.answer bound limit) := by
  unfold searches at runs
  unfold occurrences answer
  cases h : s.fields.count with
  | none =>
    rw [h] at runs
    exact orFail_eq_ok.2 (take_of_runs made below early hz (Walk.goesOn_none hz) runs)
  -- With a count all positions are searched, whatever the bound is
  | some count =>
    rw [h] at runs
    have small := hcount count h
    have all := Walk.goesOn_none (Query.inZone_none false s.zone)
    simp only [if_neg (Nat.not_lt.2 small)]
    split
    · rename_i zero
      rw [zero, List.take_zero]
    · exact orFail_eq_ok.2 (takeCounted_of_runs made below early all runs)

/-- If one of the searches fails, so does the whole question, by an error of the calendar. -/
theorem occurrences_of_fails (made : s.Made) (hcount : ∀ n ∈ s.fields.count, n.val ≤ maxLimit)
    {bound : Option Moment} (hz : (⟨bound, true⟩ : Query).InZone s.zone)
    (fails : ∃ q ∈ s.searches bound limit, s.Fails q) :
    ∃ fault, s.occurrences bound limit = .error (.calendar fault) := by
  unfold searches at fails
  unfold occurrences
  cases h : s.fields.count with
  | none =>
    rw [h] at fails
    obtain ⟨fault, hfault⟩ := take_of_fails made hz (Walk.goesOn_none hz) fails
    exact ⟨fault, congrArg orFail hfault⟩
  | some count =>
    rw [h] at fails
    have small := hcount count h
    have all := Walk.goesOn_none (Query.inZone_none false s.zone)
    obtain ⟨fault, hfault⟩ := takeCounted_of_fails made all fails
    refine ⟨fault, ?_⟩
    simp only [if_neg (Nat.not_lt.2 small)]
    split
    · rename_i zero
      -- No search is made without a limit, so none has failed
      rw [zero, takeCounted_limit_zero] at hfault
      injection hfault
    · exact congrArg orFail hfault

/-- A question is answered if all searches that it takes have room to come to a stop, and ends in a
calendar fault if one of them cannot stop. With a lookahead that ends before the last year of the
calendar the one or the other holds, and a search does have room if a step beyond its lookahead
stays inside the calendar. So what is left open are searches that come to a stop nowhere but in the
last year. -/
theorem occurrencesAfter_exhausts {fields : Fields} {anchor : Stamp} {zone : Zone}
    {lookahead : Int} (hs : make fields anchor zone lookahead = .ok s) (below : zone.BelowDay)
    (early : 2 ≤ s.reading.date.year) (hcount : ∀ n ∈ fields.count, n.val ≤ maxLimit)
    {after : Option Stamp} {bound : Option Moment}
    (hbound : after.mapM (fun stamp => stamp.inZone zone) = .ok bound) :
    (∀ limit : Int, limit ≤ maxLimit →
      ((∀ q ∈ s.searches bound limit.toNat, s.Runs q) →
        s.occurrencesAfter after limit = .ok (s.answer bound limit.toNat)) ∧
      ((∃ q ∈ s.searches bound limit.toNat, s.Fails q) →
        ∃ fault, s.occurrencesAfter after limit = .error (.calendar fault))) ∧
    ((∀ q ∈ s.searches bound 1, s.Runs q) →
      s.nextAfter after = .ok (s.answer bound 1).head?) ∧
    ((∃ q ∈ s.searches bound 1, s.Fails q) →
      ∃ fault, s.nextAfter after = .error (.calendar fault)) ∧
    ∀ q : Query, q.InZone zone →
      (s.lastYear q ≤ 9998 → (s.Runs q ↔ ¬s.Fails q)) ∧
      ∀ years : Nat, s.fields.step.val ≤ years * s.freq.perYear → s.lastYear q + years ≤ 9999 →
        s.Runs q := by
  obtain ⟨rfl, rfl, -, -, made⟩ := make_eq_ok hs
  have hz : (⟨bound, true⟩ : Query).InZone s.zone := Query.inZone_of_mapM hbound true
  -- Within the limits a question is one for occurrences beyond the bound
  have question : ∀ limit : Int, limit ≤ maxLimit →
      s.occurrencesAfter after limit = s.occurrences bound limit.toNat := by
    intro limit small
    rw [occurrencesAfter, orFail_bound, hbound]
    exact if_neg (Int.not_lt.2 small)
  have one : s.nextAfter after = List.head? <$> s.occurrences bound 1 :=
    congrArg (List.head? <$> ·) (question 1 (by decide))
  refine ⟨fun limit small => ⟨fun runs => ?_, fun fails => ?_⟩, fun runs => ?_, fun fails => ?_, ?_⟩
  · rw [question limit small]
    exact occurrences_of_runs made below early hcount hz runs
  · rw [question limit small]
    exact occurrences_of_fails made hcount hz fails
  · rw [one, occurrences_of_runs made below early hcount hz runs]
    rfl
  · obtain ⟨fault, hfault⟩ := occurrences_of_fails made hcount hz fails
    refine ⟨fault, ?_⟩
    rw [one, hfault]
    rfl
  · intro q hq
    exact ⟨runs_iff_not_fails, fun years step inside => runs_of_step_le hq step inside⟩

/-- Once every nine thousand years. -/
def everyNineThousandYears : Fields where
  freq := .yearly
  interval := some ⟨9000, by decide⟩
  count := none
  ending := none
  byMonth := .empty
  byMonthDay := []
  byDay := []
  exdates := []
  keyOrder := []
  dayFilters := Fields.noDayFilters

/-- Once every nine thousand years, from the beginning of 2012 on. -/
def everyNineThousandYearsSeries : Series where
  fields := everyNineThousandYears
  zone := .region .utc
  reading := threeDaysAnchor.reading
  second := false
  lookahead := .one
  endingDate := none
  excludedDates := []
  excludedInstants := []

/-- The first of January 2013 is a date. -/
theorem valid_yearLater : (1 ≤ 2013 ∧ 2013 ≤ 9999) ∧ (1 ≤ 1 ∧ 1 ≤ 12) ∧
    (1 ≤ 1 ∧ 1 ≤ monthLength (isLeapYear 2013) 1) := by decide

/-- A year after its beginning. -/
def yearLater : Moment := everyNineThousandYearsSeries.momentOn ⟨2013, 1, 1, valid_yearLater⟩

/-- No later period is visited, so nothing brings a search to a stop. -/
theorem everyNineThousandYears_fails :
    everyNineThousandYearsSeries.Fails ⟨some yearLater, true⟩ := by
  refine .inr fun d later stops => ?_
  have floor : (Walk.floor everyNineThousandYearsSeries ⟨some yearLater, true⟩).date.year =
      2013 := by decide +kernel
  obtain ⟨⟨-, multiple⟩, -⟩ := stops
  have later : 2013 ≤ d.year := Int.ofNat_le.1 (floor ▸ later)
  have multiple : (9000 : Int) ∣ d.year - 2012 := multiple
  have last := d.valid.1.2
  omega

/-- Past its only occurrence, a rule of 9000 years fails for want of a next year. -/
theorem everyNineThousandYears_exhausts :
    make everyNineThousandYears ⟨⟨⟨2012, 1, 1, by decide⟩, .midnight⟩, false, none⟩ (.region .utc)
        1 = .ok everyNineThousandYearsSeries ∧
      ∃ fault, everyNineThousandYearsSeries.nextAfter (some yearLater.stamp) =
        .error (.calendar fault) :=
  have made : make everyNineThousandYears ⟨⟨⟨2012, 1, 1, by decide⟩, .midnight⟩, false, none⟩
      (.region .utc) 1 = .ok everyNineThousandYearsSeries := rfl
  have bound : (some yearLater.stamp).mapM (fun stamp => stamp.inZone (.region .utc)) =
      Except.ok (some yearLater) := by decide +kernel
  ⟨made, (occurrencesAfter_exhausts made (show Region.utc.history.BelowDay by decide)
    (by decide) (by decide) bound).2.2.1
    ⟨_, mem_searches rfl (some yearLater) 0, everyNineThousandYears_fails⟩⟩

end Series

end Recurrence
