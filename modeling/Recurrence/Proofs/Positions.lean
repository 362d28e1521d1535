import Recurrence.Proofs.Restart

/-!
# Counted walks

A counted walk visits one position after the other and takes those that answer its query. Like a
walk without a count it has no state beyond its last occurrence: what it takes is its first answer,
and what a counted walk beyond that takes, although that one starts from the first position again.

* `Series.answers`: whether a position answers a query.
* `Series.firstCounted`: the first position that does.
* `Series.takeCounted_succ`: what a counted walk takes.
-/

namespace Recurrence.Series

variable {s : Series} {q q' : Query} {c m : Moment} {w : Option Walk} {count limit : Nat}

/-! ## Answers among positions -/

/-- Whether a position answers a query: it is accepted and not left out. -/
def answers (s : Series) (q : Query) (m : Moment) : Except CalendarFault Bool :=
  if q.accepts m then not <$> s.isExcluded m else .ok false

/-- The first of the next `count` positions that answers a query. -/
def firstCounted (s : Series) (q : Query) : (count : Nat) → Option Walk →
    Except CalendarFault (Option Moment)
  | 0, _ => .ok none
  | count + 1, w => do
    match ← Walk.step s everyPosition w with
    | none => return none
    | some (m, next) =>
      if ← s.answers q m then return some m else firstCounted s q count (some next)

/-- A moment that the question refuses is no answer. -/
theorem answers_of_refused (h : q.accepts m = false) : s.answers q m = .ok false := by
  rw [answers, h, if_neg Bool.false_ne_true]

/-- An answer is accepted by the question. -/
theorem accepts_of_answers (h : s.answers q m = .ok true) : q.accepts m = true := by
  cases accepted : q.accepts m with
  | true => rfl
  | false =>
    rw [answers_of_refused accepted] at h
    injection h with h

/-- Neither an occurrence nor what comes before it answers the query for what comes beyond. -/
theorem answers_beyond (h : c.isBefore m = true ∨ c = m) :
    s.answers (q.beyond m) c = .ok false := by
  refine answers_of_refused ?_
  rcases h with lt | rfl
  · exact Moment.isBefore_asymm lt
  · exact Moment.isBefore_irrefl c

/-- Without a count nothing is taken. -/
theorem takeCounted_zero (s : Series) (q : Query) (limit : Nat) (w : Option Walk) :
    s.takeCounted q 0 limit w = .ok [] := by
  cases limit <;> rfl

/-- Nothing is taken without a limit either. -/
theorem takeCounted_limit_zero (s : Series) (q : Query) (count : Nat) (w : Option Walk) :
    s.takeCounted q count 0 w = .ok [] := by
  cases count <;> rfl

/-- A counted walk takes a position that answers, and passes over one that does not. -/
theorem takeCounted_step (s : Series) (q : Query) (count limit : Nat) (w : Option Walk) :
    s.takeCounted q (count + 1) (limit + 1) w = Walk.step s everyPosition w >>= fun
      | none => .ok []
      | some (m, next) => s.answers q m >>= fun answer =>
        if answer then (m :: ·) <$> s.takeCounted q count limit (some next)
        else s.takeCounted q count (limit + 1) (some next) := by
  rw [takeCounted]
  cases Walk.step s everyPosition w with
  | error fault => rfl
  | ok r =>
    cases r with
    | none => rfl
    | some found =>
      simp only [answers, bind, Except.bind]
      split
      · cases s.isExcluded found.1 with
        | error fault => rfl
        | ok out => cases out <;> rfl
      · rfl

/-- The first answer is the next position, or comes after it. -/
theorem firstCounted_step (s : Series) (q : Query) (count : Nat) (w : Option Walk) :
    s.firstCounted q (count + 1) w = Walk.step s everyPosition w >>= fun
      | none => .ok none
      | some (m, next) => s.answers q m >>= fun answer =>
        if answer then .ok (some m) else s.firstCounted q count (some next) := rfl

/-! ## The first answer -/

/-- The first answer is an occurrence before the end of the series that answers the query. -/
theorem firstCounted_follows (hw : Walk.Stands s everyPosition w)
    (h : s.firstCounted q count w = .ok (some m)) :
    (∃ next, Walk.Follows s m next) ∧ s.admits q m = true ∧ s.isPastEnd m = false := by
  induction count generalizing w with
  | zero =>
    injection h with h
    injection h
  | succ count ih =>
    rw [firstCounted_step] at h
    obtain ⟨r, hr, h⟩ := Except.bind_eq_ok.1 h
    cases r with
    | none =>
      injection h with h
      injection h
    | some found =>
      obtain ⟨c, next⟩ := found
      obtain ⟨hf, hp⟩ := Walk.step_follows (Query.inZone_none _ _) hw hr
      obtain ⟨answer, hanswer, h⟩ := Except.bind_eq_ok.1 h
      -- A position that is no answer is passed over
      cases answer with
      | true =>
        injection h with h
        injection h with h
        subst h
        exact ⟨⟨next, hf⟩, Walk.admits_iff.2 ⟨hf.anchored, accepts_of_answers hanswer⟩,
          hp.notPastEnd⟩
      | false => exact ih (hf.stands hp) h

/-- The first answer comes after the position where a walk stands. -/
theorem firstCounted_after {w : Walk} (hf : Walk.Follows s c w)
    (h : s.firstCounted q count (some w) = .ok (some m)) : c.isBefore m = true := by
  induction count generalizing c w with
  | zero =>
    injection h with h
    injection h
  | succ count ih =>
    obtain ⟨⟨_, hm⟩, -⟩ := firstCounted_follows (w := some w) ⟨c, hf, rfl⟩ h
    rw [firstCounted_step] at h
    obtain ⟨r, hr, h⟩ := Except.bind_eq_ok.1 h
    cases r with
    | none =>
      injection h with h
      injection h
    | some found =>
      obtain ⟨d, next⟩ := found
      obtain ⟨hf', lt, -⟩ := Walk.resume_follows hf (Query.inZone_none _ _) rfl hr
      obtain ⟨answer, -, h⟩ := Except.bind_eq_ok.1 h
      -- The next position is later, and if it is no answer, the answer is later still
      cases answer with
      | true =>
        injection h with h
        injection h with h
        exact h ▸ lt
      | false =>
        exact Moment.isBefore_trans (hf.zone.trans hf'.zone.symm) (hf'.zone.trans hm.zone.symm) lt
          (ih hf' h)

/-- A query that accepts less has the same first answer if it accepts that one. -/
theorem firstCounted_narrow (hw : Walk.Stands s everyPosition w)
    (narrow : ∀ m, m.zone = s.zone → q'.accepts m = true → q.accepts m = true)
    (h : s.firstCounted q count w = .ok (some m)) (ha : q'.accepts m = true) :
    s.firstCounted q' count w = .ok (some m) := by
  induction count generalizing w with
  | zero =>
    injection h with h
    injection h
  | succ count ih =>
    rw [firstCounted_step] at h ⊢
    obtain ⟨r, hr, h⟩ := Except.bind_eq_ok.1 h
    cases r with
    | none =>
      injection h with h
      injection h
    | some found =>
      obtain ⟨c, next⟩ := found
      obtain ⟨hf, hp⟩ := Walk.step_follows (Query.inZone_none _ _) hw hr
      obtain ⟨answer, hanswer, h⟩ := Except.bind_eq_ok.1 h
      -- The queries part only over positions that the narrower one refuses
      have same (hc : q'.accepts c = true) : s.answers q' c = .ok answer := by
        rw [← hanswer, answers, answers, hc, narrow c hf.zone hc]
      refine Except.bind_eq_ok.2 ⟨_, hr, ?_⟩
      cases answer with
      | true =>
        injection h with h
        injection h with h
        subst h
        exact Except.bind_eq_ok.2 ⟨true, same ha, rfl⟩
      | false =>
        refine Except.bind_eq_ok.2 ⟨false, ?_, ih (hf.stands hp) h⟩
        cases hc : q'.accepts c with
        | true => exact same hc
        | false => exact answers_of_refused hc

/-! ## All answers -/

/-- A counted walk depends on a query only through its tests on later moments. -/
theorem takeCounted_congr {w : Walk} (hf : Walk.Follows s c w)
    (h : ∀ d, c.date < d → q.accepts (s.momentOn d) = q'.accepts (s.momentOn d)) :
    s.takeCounted q count limit (some w) = s.takeCounted q' count limit (some w) := by
  induction count generalizing c w limit with
  | zero => rw [takeCounted_zero, takeCounted_zero]
  | succ count ih =>
    cases limit with
    | zero => rfl
    | succ limit =>
      rw [takeCounted_step, takeCounted_step]
      cases hr : Walk.step s everyPosition (some w) with
      | error fault => rfl
      | ok r =>
        cases r with
        | none => rfl
        | some found =>
          obtain ⟨d, next⟩ := found
          obtain ⟨hf', lt, -⟩ := Walk.resume_follows hf (Query.inZone_none _ _) rfl hr
          have lt := hf.date_lt hf' lt
          -- The next position is on a later date, where the questions agree
          have same : s.answers q d = s.answers q' d := by
            rw [answers, answers, hf'.on, h _ lt]
          have ih (limit : Nat) : s.takeCounted q count limit (some next) =
              s.takeCounted q' count limit (some next) :=
            ih hf' fun e le => h e (Nat.lt_trans lt le)
          simp only [bind, Except.bind, same, ih]

/-- What a counted walk takes is its first answer, and what one beyond that takes. -/
theorem takeCounted_succ (hz : q.InZone s.zone) (hw : Walk.Stands s everyPosition w) :
    s.takeCounted q count (limit + 1) w = s.firstCounted q count w >>= fun
      | none => .ok []
      | some m => (m :: ·) <$> s.takeCounted (q.beyond m) count limit w := by
  induction count generalizing w with
  | zero => rfl
  | succ count ih =>
    rw [takeCounted_step, firstCounted_step]
    cases hr : Walk.step s everyPosition w with
    | error fault => rfl
    | ok r =>
      cases r with
      | none => rfl
      | some found =>
        obtain ⟨c, next⟩ := found
        obtain ⟨hf, hp⟩ := Walk.step_follows (Query.inZone_none _ _) hw hr
        -- The position is passed over again by a walk beyond a later answer, or beyond itself
        have again {m : Moment} (h : c.isBefore m = true ∨ c = m) :
            s.takeCounted (q.beyond m) (count + 1) limit w =
              s.takeCounted (q.beyond m) count limit (some next) := by
          cases limit with
          | zero => rw [takeCounted_limit_zero, takeCounted_limit_zero]
          | succ limit =>
            rw [takeCounted_step, hr]
            simp only [bind, Except.bind, answers_beyond h, Bool.false_eq_true, if_false]
        cases hanswer : s.answers q c with
        | error fault => simp only [bind, Except.bind, hanswer]
        | ok answer =>
          cases answer with
          | true =>
            simp only [bind, Except.bind, hanswer, if_true]
            rw [again (.inr rfl)]
            refine congrArg _ (takeCounted_congr hf fun d lt => ?_)
            exact hf.accepts_beyond hz (accepts_of_answers hanswer) lt
          | false =>
            have ih := ih (hf.stands hp)
            simp only [bind, Except.bind, hanswer, Bool.false_eq_true, if_false] at ih ⊢
            rw [ih]
            cases hfirst : s.firstCounted q count (some next) with
            | error fault => rfl
            | ok first =>
              cases first with
              | none => rfl
              | some m => simp only [again (.inl (firstCounted_after hf hfirst))]

end Recurrence.Series
