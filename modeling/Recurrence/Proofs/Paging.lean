import Recurrence.Moment.Spoken
import Recurrence.Proofs.Positions
import Recurrence.Schedule

/-!
# Paging through occurrences

Asking for some occurrences, and then for more beyond the last of them, is asking for all of them at
once. No position is kept between the questions but the last occurrence itself.

* `Series.nextOf`: the next occurrence after a moment of the zone.
* `Series.occurrences_succ`: occurrences are the next one, and those beyond it.
* `Schedule.cursor`: the occurrences that one gets one by one.
* `Schedule.pages`: pages make up the whole, and so do single occurrences.
-/

namespace Recurrence

namespace Series

variable {s : Series} {e m : Moment} {bound : Option Moment} {n k : Nat} {found : List Moment}

/-! ## One occurrence after the other -/

/-- The next occurrence later than a moment of the zone, or the first one. -/
def nextOf (s : Series) (bound : Option Moment) : Except Failure (Option Moment) :=
  match s.fields.count with
  | none => orFail (s.firstOf ⟨bound, true⟩)
  | some count =>
    if maxLimit < count.val then .error .limitTooLarge
    else orFail (s.firstCounted ⟨bound, true⟩ count.val none)

/-- Occurrences are the next one, and those beyond it. -/
theorem occurrences_succ (hz : (⟨bound, true⟩ : Query).InZone s.zone) (n : Nat) :
    s.occurrences bound (n + 1) = s.nextOf bound >>= fun
      | none => .ok []
      | some m => (m :: ·) <$> s.occurrences (some m) n := by
  cases hcount : s.fields.count with
  | none =>
    simp only [occurrences, nextOf, hcount]
    rw [take_succ hz, orFail_bind]
    refine bind_congr fun first => ?_
    cases first with
    | none => rfl
    | some m => exact orFail_map _ _
  -- A count is the number of all positions, so it stays as it is beyond the first answer
  | some count =>
    simp only [occurrences, nextOf, hcount, if_neg (Nat.succ_ne_zero n)]
    split
    · rfl
    · rw [takeCounted_succ (w := none) hz trivial, orFail_bind]
      refine bind_congr fun first => ?_
      cases first with
      | none => rfl
      | some m =>
        refine (orFail_map _ _).trans (congrArg ((m :: ·) <$> ·) ?_)
        split
        · rename_i zero
          rw [zero, takeCounted_limit_zero]
          rfl
        · rfl

/-- The next occurrence lies before the end of the series, not before the anchor, and later than the
bound. -/
theorem nextOf_follows (hz : (⟨bound, true⟩ : Query).InZone s.zone)
    (h : s.nextOf bound = .ok (some m)) :
    (∃ next, Walk.Follows s m next) ∧ s.admits ⟨bound, true⟩ m = true ∧ s.isPastEnd m = false := by
  unfold nextOf at h
  split at h
  · obtain ⟨r, hr, h⟩ := Except.map_eq_ok.1 (orFail_eq_ok.1 h)
    obtain ⟨⟨c, w⟩, rfl, hc⟩ := Option.map_eq_some_iff.1 h
    subst hc
    obtain ⟨hf, hp⟩ := Walk.start_follows hz hr
    exact ⟨⟨w, hf⟩, hp.admits, hp.notPastEnd⟩
  · split at h
    · injection h
    · exact firstCounted_follows (w := none) trivial (orFail_eq_ok.1 h)

/-- The next occurrence stands on the clocks of the zone and answers the question. -/
theorem nextOf_admits (hz : (⟨bound, true⟩ : Query).InZone s.zone)
    (h : s.nextOf bound = .ok (some m)) :
    m.zone = s.zone ∧ s.admits ⟨bound, true⟩ m = true := by
  obtain ⟨⟨_, hf⟩, admits, -⟩ := nextOf_follows hz h
  exact ⟨hf.zone, admits⟩

/-- The next occurrence is accepted by the question. -/
theorem nextOf_accepted (hz : (⟨bound, true⟩ : Query).InZone s.zone)
    (h : s.nextOf bound = .ok (some m)) : (⟨bound, true⟩ : Query).accepts m = true :=
  (Walk.admits_iff.1 (nextOf_admits hz h).2).2

/-- A bound in the zone of a series puts the question in it. -/
theorem inZone_some (h : m.zone = s.zone) : (⟨some m, true⟩ : Query).InZone s.zone :=
  Query.inZone_beyond ⟨none, true⟩ h

/-- What occurrences there are is decided by the next one. -/
theorem occurrences_succ_eq_ok (hz : (⟨bound, true⟩ : Query).InZone s.zone)
    (h : s.occurrences bound (n + 1) = .ok found) :
    (s.nextOf bound = .ok none ∧ found = []) ∨
      ∃ m rest, s.nextOf bound = .ok (some m) ∧ (⟨some m, true⟩ : Query).InZone s.zone ∧
        s.occurrences (some m) n = .ok rest ∧ found = m :: rest := by
  rw [occurrences_succ hz] at h
  obtain ⟨first, hfirst, h⟩ := Except.bind_eq_ok.1 h
  cases first with
  | none =>
    injection h with h
    exact Or.inl ⟨hfirst, h.symm⟩
  | some m =>
    obtain ⟨rest, hrest, rfl⟩ := Except.map_eq_ok.1 h
    exact Or.inr ⟨m, rest, hfirst, inZone_some (nextOf_admits hz hfirst).1, hrest, rfl⟩

/-- There are no occurrences without a limit. -/
theorem occurrences_zero (s : Series) (bound : Option Moment) :
    s.occurrences bound 0 = .ok [] := by
  unfold occurrences
  split <;> rfl

/-- One occurrence is the next one. -/
theorem head?_occurrences (hz : (⟨bound, true⟩ : Query).InZone s.zone) :
    List.head? <$> s.occurrences bound 1 = s.nextOf bound := by
  rw [occurrences_succ hz 0]
  cases s.nextOf bound with
  | error failure => rfl
  | ok first =>
    cases first with
    | none => rfl
    | some m =>
      simp only [bind, Except.bind, occurrences_zero]
      rfl

/-! ## Pages -/

/-- A smaller limit cuts the answer. -/
theorem occurrences_le (hz : (⟨bound, true⟩ : Query).InZone s.zone)
    (h : s.occurrences bound (n + k) = .ok found) :
    s.occurrences bound n = .ok (found.take n) := by
  induction n generalizing bound found with
  | zero => rw [occurrences_zero, List.take_zero]
  | succ n ih =>
    rw [Nat.add_right_comm] at h
    rw [occurrences_succ hz]
    rcases occurrences_succ_eq_ok hz h with ⟨hfirst, rfl⟩ | ⟨m, rest, hfirst, hm, hrest, rfl⟩
    · rw [hfirst]
      rfl
    · rw [hfirst]
      simp only [bind, Except.bind, ih hm hrest]
      rfl

/-- Beyond a member of an answer lies what is left of the answer. -/
theorem occurrences_beyond (hz : (⟨bound, true⟩ : Query).InZone s.zone)
    (h : s.occurrences bound (n + 1 + k) = .ok found) (he : found[n]? = some e) :
    s.occurrences (some e) k = .ok (found.drop (n + 1)) := by
  induction n generalizing bound found with
  | zero =>
    rw [Nat.zero_add, Nat.add_comm] at h
    rcases occurrences_succ_eq_ok hz h with ⟨-, rfl⟩ | ⟨m, rest, -, -, hrest, rfl⟩
    · injection he
    · injection he with he
      exact he ▸ hrest
  | succ n ih =>
    rw [Nat.add_right_comm] at h
    rcases occurrences_succ_eq_ok hz h with ⟨-, rfl⟩ | ⟨m, rest, -, hm, hrest, rfl⟩
    · injection he
    · exact ih hm hrest he

/-- Occurrences stand on the clocks of the zone. -/
theorem zone_of_mem_occurrences (hz : (⟨bound, true⟩ : Query).InZone s.zone)
    (h : s.occurrences bound n = .ok found) (hm : m ∈ found) : m.zone = s.zone := by
  induction n generalizing bound found with
  | zero =>
    rw [occurrences_zero] at h
    injection h with h
    subst h
    exact absurd hm List.not_mem_nil
  | succ n ih =>
    rcases occurrences_succ_eq_ok hz h with ⟨-, rfl⟩ | ⟨c, rest, hc, hz', hrest, rfl⟩
    · exact absurd hm List.not_mem_nil
    · rcases List.mem_cons.1 hm with rfl | hm
      · exact (nextOf_admits hz hc).1
      · exact ih hz' hrest hm

/-- Occurrences come after the moment that they are asked for. -/
theorem accepts_of_mem_occurrences (hz : (⟨bound, true⟩ : Query).InZone s.zone)
    (h : s.occurrences bound n = .ok found) (hm : m ∈ found) :
    (⟨bound, true⟩ : Query).accepts m = true := by
  induction n generalizing bound found with
  | zero =>
    rw [occurrences_zero] at h
    injection h with h
    subst h
    exact absurd hm List.not_mem_nil
  | succ n ih =>
    rcases occurrences_succ_eq_ok hz h with ⟨-, rfl⟩ | ⟨c, rest, hc, hz', hrest, rfl⟩
    · exact absurd hm List.not_mem_nil
    · have first := nextOf_accepted hz hc
      rcases List.mem_cons.1 hm with rfl | hm
      · exact first
      · -- A later occurrence is beyond the first one, which is beyond the bound
        have later : c.isBefore m = true := ih hz' hrest hm
        cases bound with
        | none => rfl
        | some bound =>
          have zone := zone_of_mem_occurrences hz' hrest hm
          exact Moment.isBefore_trans ((hz bound rfl).trans (hz' c rfl).symm)
            ((hz' c rfl).trans zone.symm) first later

/-- Each occurrence comes before those that follow it. -/
theorem pairwise_occurrences (hz : (⟨bound, true⟩ : Query).InZone s.zone)
    (h : s.occurrences bound n = .ok found) :
    found.Pairwise fun a b => a.isBefore b = true := by
  induction n generalizing bound found with
  | zero =>
    rw [occurrences_zero] at h
    injection h with h
    exact h ▸ List.Pairwise.nil
  | succ n ih =>
    rcases occurrences_succ_eq_ok hz h with ⟨-, rfl⟩ | ⟨m, rest, -, hz', hrest, rfl⟩
    · exact List.Pairwise.nil
    · exact List.Pairwise.cons (fun _ hm => accepts_of_mem_occurrences hz' hrest hm) (ih hz' hrest)

/-- The next occurrence is the first one of an answer. -/
theorem nextOf_of_occurrences (hz : (⟨bound, true⟩ : Query).InZone s.zone)
    (h : s.occurrences bound (n + 1) = .ok found) : s.nextOf bound = .ok found[0]? := by
  rcases occurrences_succ_eq_ok hz h with ⟨hfirst, rfl⟩ | ⟨m, rest, hfirst, -, -, rfl⟩ <;>
    exact hfirst

/-- The occurrence after a member of an answer is the next member. -/
theorem nextOf_getElem? (hz : (⟨bound, true⟩ : Query).InZone s.zone)
    (h : s.occurrences bound n = .ok found) {i : Nat} (hi : i + 1 < n)
    (he : found[i]? = some e) : s.nextOf (some e) = .ok found[i + 1]? := by
  obtain ⟨k, rfl⟩ := Nat.exists_eq_add_of_le hi
  rw [Nat.succ_add_eq_add_succ] at h
  have zone := zone_of_mem_occurrences hz h (List.mem_of_getElem? he)
  rw [nextOf_of_occurrences (inZone_some zone) (occurrences_beyond hz h he), List.getElem?_drop]

/-- There are no more occurrences than asked for. -/
theorem lt_of_getElem?_occurrences (hz : (⟨bound, true⟩ : Query).InZone s.zone)
    (h : s.occurrences bound n = .ok found) {i : Nat} (he : found[i]? = some e) : i < n := by
  have cut : s.occurrences bound n = .ok (found.take n) := occurrences_le (k := 0) hz h
  have lt := (List.getElem?_eq_some_iff.1 he).1
  rw [Except.ok.inj (h.symm.trans cut)] at lt
  exact Nat.lt_of_lt_of_le lt (List.length_take_le n found)

/-- Each member of an answer is the next occurrence after some moment. -/
theorem exists_nextOf_getElem? (hz : (⟨bound, true⟩ : Query).InZone s.zone)
    (h : s.occurrences bound n = .ok found) {i : Nat} (he : found[i]? = some e) :
    ∃ bound', (⟨bound', true⟩ : Query).InZone s.zone ∧ s.nextOf bound' = .ok (some e) := by
  have lt := lt_of_getElem?_occurrences hz h he
  cases i with
  | zero =>
    obtain ⟨k, rfl⟩ := Nat.exists_eq_add_of_lt lt
    exact ⟨bound, hz, he ▸ nextOf_of_occurrences hz h⟩
  | succ i =>
    obtain ⟨p, hp⟩ := List.exists_getElem?_of_succ he
    have zone := zone_of_mem_occurrences hz h (List.mem_of_getElem? hp)
    exact ⟨some p, inZone_some zone, he ▸ nextOf_getElem? hz h lt hp⟩

/-- What is known of an occurrence in an answer. -/
theorem exists_follows_of_mem (hz : (⟨bound, true⟩ : Query).InZone s.zone)
    (h : s.occurrences bound n = .ok found) (hm : m ∈ found) :
    (∃ next, Walk.Follows s m next) ∧ s.isPastEnd m = false := by
  obtain ⟨i, hi⟩ := List.mem_iff_getElem?.1 hm
  obtain ⟨bound', hz', hnext⟩ := exists_nextOf_getElem? hz h hi
  obtain ⟨follows, -, notPastEnd⟩ := nextOf_follows hz' hnext
  exact ⟨follows, notPastEnd⟩

end Series

/-! ## Schedules -/

namespace Schedule

variable {s : Schedule} {series : Series}

/-- At most `limit` occurrences later than a moment, or from the first one on. -/
def occurrences [SpokenReader] (s : Schedule) (after : Option When) (limit : Int) :
    Except Failure (List Moment) :=
  match after with
  | some after => s.nextOccurrences after limit
  | none => do
    let series ← s.requireSeries
    series.occurrencesAfter none limit

/-- The occurrences one by one: the first one, and then always the next after the last. -/
def cursor [SpokenReader] (s : Schedule) : Nat → Except Failure (Option Moment)
  | 0 => s.first
  | i + 1 => do
    match ← cursor s i with
    | some m => s.next (.stamp m.stamp)
    | none => return none

/-- What making a schedule with an anchor settles. -/
theorem make_eq_ok [ZoneDatabase] [SpokenReader] {source : Source} {given : When}
    {zone : ZoneChoice} {lookahead : Option Int}
    (h : make source (some given) zone lookahead = .ok s) :
    ∃ anchor series, zone.resolve = .ok s.zone ∧ source.fieldsIn s.zone = .ok s.fields ∧
      given.resolve s.zone = .ok anchor ∧ s.anchor = some anchor ∧ s.series = some series ∧
      Series.make s.fields anchor.stamp s.zone (lookaheadOr lookahead) = .ok series := by
  obtain ⟨z, hz, h⟩ := Except.bind_eq_ok.1 h
  obtain ⟨fields, hfields, h⟩ := Except.bind_eq_ok.1 h
  obtain ⟨anchor, hanchor, h⟩ := Except.bind_eq_ok.1 h
  obtain ⟨series, hseries, h⟩ := Except.bind_eq_ok.1 h
  injection h with h
  subst h
  exact ⟨anchor, series, hz, hfields, hanchor, rfl, rfl, hseries⟩

/-- A schedule with a series has one. -/
theorem requireSeries_eq (hs : s.series = some series) : s.requireSeries = .ok series := by
  rw [requireSeries, hs]

/-- Without a bound a schedule asks its series. -/
theorem occurrences_none [SpokenReader] (hs : s.series = some series) (limit : Int) :
    s.occurrences none limit = series.occurrencesAfter none limit := by
  rw [occurrences, requireSeries_eq hs]
  rfl

/-- A question to a schedule that is answered is one to its series, whatever the limit. -/
theorem occurrences_eq_ok [SpokenReader] (hs : s.series = some series) {after : Option When}
    {limit : Int} {found : List Moment} (h : s.occurrences after limit = .ok found) :
    ∃ bound, (⟨bound, true⟩ : Query).InZone series.zone ∧ ∀ limit found,
      s.occurrences after limit = .ok found ↔
        limit ≤ Series.maxLimit ∧ series.occurrences bound limit.toNat = .ok found := by
  -- A moment is resolved to a stamp, whatever the limit
  obtain ⟨stamp, same⟩ : ∃ stamp : Option Stamp, ∀ limit,
      s.occurrences after limit = series.occurrencesAfter stamp limit := by
    cases after with
    | none => exact ⟨none, occurrences_none hs⟩
    | some after =>
      rw [occurrences, nextOccurrences, requireSeries_eq hs] at h
      obtain ⟨_, -, h⟩ := Except.bind_eq_ok.1 h
      obtain ⟨bound, hbound, -⟩ := Except.bind_eq_ok.1 h
      refine ⟨some bound.stamp, fun limit => ?_⟩
      rw [occurrences, nextOccurrences, requireSeries_eq hs, hbound]
      rfl
  rw [same] at h
  obtain ⟨bound, hbound, -⟩ := Series.occurrencesAfter_eq_ok.1 h
  refine ⟨bound, Query.inZone_of_mapM hbound true, fun limit found => ?_⟩
  rw [same, Series.occurrencesAfter_eq_ok, hbound]
  constructor
  · rintro ⟨bound', eq, h⟩
    injection eq with eq
    exact eq ▸ h
  · exact fun h => ⟨bound, rfl, h⟩

/-- A moment of the zone stands for itself in a question. -/
theorem occurrencesAfter_stamp_eq {e : Moment} (he : e.zone = series.zone) (limit : Int) :
    series.occurrencesAfter (some e.stamp) limit =
      if Series.maxLimit < limit then .error .limitTooLarge
      else series.occurrences (some e) limit.toNat := by
  rw [Series.occurrencesAfter, Option.mapM_some, ← he, Moment.inZone_stamp]
  rfl

/-- Beyond a moment of the zone, the limit is all that can be refused. -/
theorem occurrencesAfter_stamp {e : Moment} (he : e.zone = series.zone) {limit : Int}
    {found : List Moment} : series.occurrencesAfter (some e.stamp) limit = .ok found ↔
      limit ≤ Series.maxLimit ∧ series.occurrences (some e) limit.toNat = .ok found := by
  rw [occurrencesAfter_stamp_eq he]
  split
  · rename_i large
    simp [Int.not_le.2 large]
  · rename_i small
    exact (and_iff_right (Int.not_lt.1 small)).symm

/-- So it is when a schedule is asked. -/
theorem nextOccurrences_stamp [SpokenReader] (hs : s.series = some series)
    (hz : series.zone = s.zone) {e : Moment} (he : e.zone = series.zone) {limit : Int}
    {found : List Moment} :
    s.nextOccurrences (.stamp e.stamp) limit = .ok found ↔
      limit ≤ Series.maxLimit ∧ series.occurrences (some e) limit.toNat = .ok found := by
  rw [nextOccurrences, requireSeries_eq hs, When.resolve, ← hz, ← he, Moment.inZone_stamp]
  exact occurrencesAfter_stamp he

/-- The next occurrence after a moment of the zone. -/
theorem nextAfter_stamp {e : Moment} (he : e.zone = series.zone) :
    series.nextAfter (some e.stamp) = series.nextOf (some e) := by
  rw [Series.nextAfter, Series.occurrencesAfter, Option.mapM_some, ← he, Moment.inZone_stamp,
    ← Series.head?_occurrences (Series.inZone_some he)]
  rfl

/-- The next occurrence beyond a moment of the zone. -/
theorem next_stamp [SpokenReader] (hs : s.series = some series) (hz : series.zone = s.zone)
    {e : Moment} (he : e.zone = series.zone) :
    s.next (.stamp e.stamp) = series.nextOf (some e) := by
  rw [next, requireSeries_eq hs, When.resolve, ← hz, ← he, Moment.inZone_stamp]
  exact nextAfter_stamp he

/-- The next occurrence is the first of a question for one. -/
theorem next_eq [SpokenReader] (s : Schedule) (after : When) :
    s.next after = List.head? <$> s.nextOccurrences after 1 := by
  unfold next nextOccurrences
  cases s.requireSeries with
  | error failure => rfl
  | ok series => cases after.resolve s.zone <;> rfl

/-- The first occurrence of a schedule is that of its series. -/
theorem first_eq (hs : s.series = some series) : s.first = series.nextOf none := by
  rw [first, requireSeries_eq hs, ← Series.head?_occurrences (Query.inZone_none _ _)]
  rfl

/-- The occurrences one by one are those of one question, and end where it ends. -/
theorem cursor_eq [SpokenReader] (hs : s.series = some series) (hz : series.zone = s.zone) {n : Nat}
    {found : List Moment} (h : series.occurrences none n = .ok found) {i : Nat} (hi : i < n) :
    s.cursor i = .ok found[i]? := by
  have inZone := Query.inZone_none true series.zone
  induction i with
  | zero =>
    obtain ⟨k, rfl⟩ := Nat.exists_eq_add_of_lt hi
    rw [cursor, first_eq hs, Series.nextOf_of_occurrences inZone h]
  | succ i ih =>
    rw [cursor, ih (by omega)]
    -- Past the last occurrence the cursor stays at the end
    cases he : found[i]? with
    | none =>
      rw [List.getElem?_eq_none (by have := List.getElem?_eq_none_iff.1 he; omega)]
      rfl
    | some e =>
      have zone := Series.zone_of_mem_occurrences inZone h (List.mem_of_getElem? he)
      show s.next (.stamp e.stamp) = _
      rw [next_stamp hs hz zone, Series.nextOf_getElem? inZone h hi he]

/-- Pages make up the whole: a question for more is one for some, and one for the others beyond the
last of them. So the occurrences that one gets one by one are those that one gets at once, and they
end together. -/
theorem pages [ZoneDatabase] [SpokenReader] {source : Source} {given : When} {zone : ZoneChoice}
    {lookahead : Option Int} (h : make source (some given) zone lookahead = .ok s) :
    (∀ (after : Option When) (n m : Nat) (all page : List Moment) (e : Moment),
      s.occurrences after (n + m : Nat) = .ok all → s.occurrences after n = .ok page →
        page.length = n → page.getLast? = some e →
          ∃ rest, s.nextOccurrences (.stamp e.stamp) m = .ok rest ∧ all = page ++ rest) ∧
      ∀ (n : Nat) (all : List Moment), s.occurrences none n = .ok all →
        ∀ i < n, s.cursor i = .ok all[i]? := by
  obtain ⟨anchor, series, -, -, -, -, hs, hmake⟩ := make_eq_ok h
  have hz : series.zone = s.zone := (Series.make_eq_ok hmake).2.1
  constructor
  · intro after n m all page e hall hpage hlength hlast
    obtain ⟨bound, inZone, answer⟩ := occurrences_eq_ok hs hall
    obtain ⟨small, hall⟩ := (answer _ _).1 hall
    obtain ⟨-, hpage⟩ := (answer _ _).1 hpage
    rw [Int.toNat_natCast] at hall hpage
    have cut : all.take n = page :=
      Except.ok.inj ((Series.occurrences_le inZone hall).symm.trans hpage)
    cases n with
    | zero =>
      rw [List.eq_nil_of_length_eq_zero hlength] at hlast
      injection hlast
    | succ n =>
      -- The last member of the page is a member of the whole
      have he : all[n]? = some e := by
        rw [List.getLast?_eq_getElem?, hlength, ← cut, Nat.add_sub_cancel,
          List.getElem?_take_of_lt (Nat.lt_succ_self n)] at hlast
        exact hlast
      have zone := Series.zone_of_mem_occurrences inZone hall (List.mem_of_getElem? he)
      refine ⟨all.drop (n + 1), ?_, ?_⟩
      · refine (nextOccurrences_stamp hs hz zone).2 ⟨by omega, ?_⟩
        exact Series.occurrences_beyond inZone hall he
      · rw [← cut, List.take_append_drop]
  · intro n all hall i hi
    rw [occurrences_none hs] at hall
    obtain ⟨bound, hbound, -, hall⟩ := Series.occurrencesAfter_eq_ok.1 hall
    injection hbound with hbound
    subst hbound
    exact cursor_eq hs hz hall hi

/-- Searches look ahead unless they are told otherwise. -/
theorem defaultLookahead_pos : 0 < defaultLookahead.toNat := by decide

/-- The first of January 2012 is a date. -/
theorem valid_first : (1 ≤ 2012 ∧ 2012 ≤ 9999) ∧ (1 ≤ 1 ∧ 1 ≤ 12) ∧
    (1 ≤ 1 ∧ 1 ≤ monthLength (isLeapYear 2012) 1) := by decide

/-- The third of January 2012 is a date. -/
theorem valid_third : (1 ≤ 2012 ∧ 2012 ≤ 9999) ∧ (1 ≤ 1 ∧ 1 ≤ 12) ∧
    (1 ≤ 3 ∧ 3 ≤ monthLength (isLeapYear 2012) 1) := by decide

/-- Four times every other day, without the second time. -/
def everyOtherDay : Fields where
  freq := .daily
  interval := some ⟨2, Nat.two_pos⟩
  count := some ⟨4, by decide⟩
  ending := none
  byMonth := .empty
  byMonthDay := []
  byDay := []
  exdates := [⟨⟨⟨⟨2012, 1, 3, valid_third⟩, .midnight⟩, .region .tokyo, false⟩, true, false⟩]
  keyOrder := []
  dayFilters := Fields.noDayFilters

/-- Every other day from the beginning of 2012 on. -/
def everyOtherDaySeries : Series where
  fields := everyOtherDay
  zone := .region .tokyo
  reading := ⟨⟨2012, 1, 1, valid_first⟩, .midnight⟩
  second := false
  lookahead := ⟨defaultLookahead.toNat, defaultLookahead_pos⟩
  endingDate := none
  excludedDates := [⟨2012, 1, 3, valid_third⟩]
  excludedInstants := []

def everyOtherDaySchedule : Schedule :=
  ⟨everyOtherDay, .region .tokyo, some everyOtherDaySeries.anchor, some everyOtherDaySeries⟩

/-- Every other day, the third of January left out, in pages of two. -/
theorem everyOtherDay_pages :
    make (.fields everyOtherDay) (some (.stamp everyOtherDaySeries.anchor.stamp))
        (.given (.region .tokyo)) none = .ok everyOtherDaySchedule ∧
      (∃ rest, everyOtherDaySchedule.nextOccurrences
          (.stamp (everyOtherDaySeries.momentOn ⟨2012, 1, 5, by decide⟩).stamp) 2 = .ok rest ∧
        [⟨2012, 1, 1, by decide⟩, ⟨2012, 1, 5, by decide⟩, ⟨2012, 1, 7, by decide⟩].map
            everyOtherDaySeries.momentOn =
          [⟨2012, 1, 1, by decide⟩, ⟨2012, 1, 5, by decide⟩].map
            everyOtherDaySeries.momentOn ++ rest) ∧
      everyOtherDaySchedule.cursor 3 = .ok none :=
  have made : make (.fields everyOtherDay) (some (.stamp everyOtherDaySeries.anchor.stamp))
      (.given (.region .tokyo)) none = .ok everyOtherDaySchedule := rfl
  have all : everyOtherDaySchedule.occurrences none 4 =
      .ok ([⟨2012, 1, 1, by decide⟩, ⟨2012, 1, 5, by decide⟩, ⟨2012, 1, 7, by decide⟩].map
        everyOtherDaySeries.momentOn) := by decide +kernel
  ⟨made, (pages made).1 none 2 2 _ _ _ all (by decide +kernel) rfl rfl,
    (pages made).2 4 _ all 3 (by decide)⟩

end Schedule

end Recurrence
