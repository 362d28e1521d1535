import Recurrence.Proofs.CalendarEnd
import Recurrence.Proofs.Conversions
import Recurrence.Proofs.RealTime
import Recurrence.Proofs.Refusals
import Recurrence.Proofs.WrittenBack
import Recurrence.Service

/-!
# Failures that the service does not answer

Most failures are the fault of a request and answered as such. What is left are values that are no
moments at all, infinite counts, failures of the reader of spoken moments, and moments and searches
that leave the calendar. Step by step, from the text of a rule to the search, these are the failures
that a calculation can come to.

* `Fields.IsOutside`: whether a date token leaves the calendar.
* `Service.Throws`: a calculation comes to a failure that is not answered.
* `Service.throws_make`: the tokens that leave the calendar when a series is made.
* `Service.searchAfter`: the search that a question for occurrences comes to.
-/

namespace Recurrence

/-! ## Tokens outside the calendar -/

/-- Whether a date token of a rule stands for an instant that is not shown where it is needed: the
end on the clocks of the zone, and a timed exclusion on those of UTC. -/
def Fields.IsOutside (fields : Fields) (zone : Zone) : Prop :=
  (∃ token ∈ fields.ending, token.moment.IsOutside zone) ∨
    ∃ token ∈ fields.exdates, token.dateOnly = false ∧ token.moment.IsOutside .zero

/-- Every finite number has an integer part. -/
theorem Binary64.exists_truncate? (mantissa exponent : Int) :
    ∃ n, (finite mantissa exponent).truncate? = some n := by
  by_cases whole : 0 ≤ exponent
  · exact ⟨_, if_pos whole⟩
  · exact ⟨_, if_neg whole⟩

namespace Service

variable {α β : Type} {failure : Failure}

/-! ## Failures that are not answered -/

/-- Whether a calculation comes to a failure that is not answered as the fault of the request. -/
def Throws (x : Except Failure α) (failure : Failure) : Prop :=
  x = .error failure ∧ isRejection failure = false

section

variable {x : Except Failure α}

/-- A result is not a failure. -/
theorem not_throws_ok {a : α} : ¬Throws (.ok a) failure := by
  rintro ⟨h, -⟩
  injection h

/-- A failure that is answered is not thrown. -/
theorem not_throws_of_answered {answered : Failure} (h : isRejection answered = true) :
    ¬Throws (.error answered : Except Failure α) failure := by
  rintro ⟨same, unanswered⟩
  injection same with same
  rw [← same, h] at unanswered
  injection unanswered

/-- One of two steps throws if the first does, or the second after it. -/
theorem throws_bind {g : α → Except Failure β} :
    Throws (x >>= g) failure ↔
      Throws x failure ∨ ∃ a, x = .ok a ∧ Throws (g a) failure := by
  unfold Throws
  rw [Except.bind_eq_error, or_and_right]
  refine or_congr_right ?_
  simp only [and_assoc, ← exists_and_right]

theorem throws_ok_bind {a : α} {g : α → Except Failure β} :
    Throws (.ok a >>= g) failure ↔ Throws (g a) failure := Iff.rfl

theorem throws_orFail_ok_bind {a : α} {g : α → Except Failure β} :
    Throws (orFail (.ok a) >>= g) failure ↔ Throws (g a) failure := Iff.rfl

/-- What is made of a result does not matter. -/
theorem throws_map {f : α → β} : Throws (f <$> x) failure ↔ Throws x failure := by
  rw [Throws, Except.map_eq_error, Throws]

/-- Of the errors of the calendar only leaving it is thrown. -/
theorem throws_orFail {x : Except CalendarFault α} :
    Throws (orFail x) failure ↔ x = .error .overflow ∧ failure = .calendar .overflow := by
  rw [Throws, orFail_eq_error]
  constructor
  · rintro ⟨⟨fault, hx, rfl⟩, unanswered⟩
    cases fault with
    | overflow => exact ⟨hx, rfl⟩
    | noSuchYear year => injection unanswered
  · rintro ⟨hx, rfl⟩
    exact ⟨⟨_, hx, rfl⟩, rfl⟩

end

/-! ## Rules, moments and series -/

section

variable {zone : Zone} {text : String} {fields : Fields}

/-- A refusal of a rule is answered. -/
theorem isRejection_of_refuses {key : Option String} {piece : List Char}
    (h : failure.Refuses key piece) : isRejection failure = true := by
  cases h <;> rfl

/-- Whatever is wrong with a rule text is the fault of the request. -/
theorem not_throws_read : ¬Throws (Fields.read zone text) failure := by
  rintro ⟨h, unanswered⟩
  have answered : isRejection failure = true := by
    unfold Fields.read RuleText.read at h
    split at h
    · injection h with h
      rw [← h]
      rfl
    · rcases Except.bind_eq_error.1 h with h | ⟨draft, -, h⟩
      · obtain ⟨_, _, _, _, -, -, -, refused⟩ := RuleText.foldlM_readSegment_error h
        exact isRejection_of_refuses refused
      · -- Either the frequency is missing, or days are named in two ways
        rcases RuleText.finish_error h with ⟨-, h⟩ | ⟨-, -, h⟩ <;>
          · rw [h]
            rfl
  rw [answered] at unanswered
  injection unanswered

/-- A zone that is not known is answered. -/
theorem not_throws_resolve [ZoneDatabase] {name : String} :
    ¬Throws (ZoneChoice.named name).resolve failure := by
  unfold ZoneChoice.resolve
  simp only
  split
  · exact not_throws_ok
  · exact not_throws_of_answered rfl

/-- The failures of a value that is given for a moment that are not answered. -/
inductive MomentEscapes [SpokenReader] (zone : Zone) : When → Failure → Prop
  /-- The value is neither a stamp nor a text. -/
  | kind : MomentEscapes zone .other .notMoment
  /-- The clocks of the zone do not show the instant that the value stands for. -/
  | outside {given : When} (h : given.IsOutside zone) :
      MomentEscapes zone given (.calendar .overflow)
  /-- The reader of spoken moments fails on a text, and not by a bad value. -/
  | reader {text : String} {fault : SpokenFault}
      (unwritten : Iso.read (When.spellOutUtc text.toList) = none)
      (h : SpokenReader.read text zone.name = .error fault)
      (unanswered : isRejection (.spoken fault) = false) :
      MomentEscapes zone (.text text) (.spoken fault)

/-- Values that are no moments, moments that leave the calendar, and faults of the reader are all
there is. -/
theorem MomentEscapes.kinds [SpokenReader] {given : When} (h : MomentEscapes zone given failure) :
    failure = .notMoment ∨ failure = .calendar .overflow ∨ ∃ fault, failure = .spoken fault := by
  cases h with
  | kind => exact .inl rfl
  | outside h => exact .inr (.inl rfl)
  | reader unwritten h unanswered => exact .inr (.inr ⟨_, rfl⟩)

/-- A conversion throws if the moment is outside the calendar of the zone. -/
theorem throws_inZone {stamp : Stamp} : Throws (orFail (stamp.inZone zone)) failure ↔
    stamp.IsOutside zone ∧ failure = .calendar .overflow := by
  rw [throws_orFail, Stamp.inZone_eq_error, and_iff_left rfl]

/-- A text that is not written fails with its reader, or where the moment that is found leaves the
calendar. -/
theorem throws_spoken [SpokenReader] (unwritten : Iso.read (When.spellOutUtc text.toList) = none) :
    Throws ((When.text text).resolve zone) failure ↔
      MomentEscapes zone (.text text) failure := by
  -- A spoken text is outside just if the moment that was heard is
  have outside : (When.text text).IsOutside zone ↔
      ∃ m, SpokenReader.read text zone.name = .ok (some m) ∧ m.IsOutside zone := by
    unfold When.IsOutside
    simp only [unwritten]
  unfold When.resolve
  simp only [unwritten]
  -- The reader fails, finds nothing, or has heard a moment that is to be converted
  cases heard : SpokenReader.read text zone.name with
  | error fault =>
    constructor
    · rintro ⟨h, unanswered⟩
      injection h with h
      subst h
      exact .reader unwritten heard unanswered
    · rintro (_ | h | ⟨-, h, unanswered⟩)
      · obtain ⟨m, found, -⟩ := outside.1 h
        rw [heard] at found
        injection found
      · rw [heard] at h
        injection h with h
        exact ⟨by rw [h], unanswered⟩
  | ok found =>
    have answered {fault : SpokenFault} : SpokenReader.read text zone.name ≠ .error fault := by
      rw [heard]
      exact nofun
    cases found with
    | none =>
      refine iff_of_false (not_throws_of_answered rfl) ?_
      rintro (_ | h | ⟨-, h, -⟩)
      · obtain ⟨m, found, -⟩ := outside.1 h
        rw [heard] at found
        injection found with found
        injection found
      · exact answered h
    | some m =>
      simp only
      rw [throws_orFail, Moment.inZone_eq_error, and_iff_left rfl]
      constructor
      · rintro ⟨out, rfl⟩
        exact .outside (outside.2 ⟨m, heard, out⟩)
      · rintro (_ | h | ⟨-, h, -⟩)
        · obtain ⟨m', found, out⟩ := outside.1 h
          rw [heard] at found
          injection found with found
          injection found with found
          exact ⟨found ▸ out, rfl⟩
        · exact absurd h answered

/-- Resolving what is given throws just if it escapes. -/
theorem throws_when [SpokenReader] {given : When} :
    Throws (given.resolve zone) failure ↔ MomentEscapes zone given failure := by
  -- A stamp and a written text are converted into the zone, and nothing else is done to them
  have written (stamp : Stamp) (resolved : given.resolve zone = orFail (stamp.inZone zone))
      (outside : given.IsOutside zone ↔ stamp.IsOutside zone) (ne : given ≠ .other)
      (unspoken : ∀ text, given = .text text → Iso.read (When.spellOutUtc text.toList) ≠ none) :
      Throws (given.resolve zone) failure ↔ MomentEscapes zone given failure := by
    rw [resolved, throws_inZone]
    constructor
    · rintro ⟨out, rfl⟩
      exact .outside (outside.2 out)
    · intro h
      cases h with
      | kind => exact absurd rfl ne
      | outside out => exact ⟨outside.1 out, rfl⟩
      | reader unwritten => exact absurd unwritten (unspoken _ rfl)
  cases given with
  | stamp value => exact written value rfl Iff.rfl nofun nofun
  | text value =>
    cases read : Iso.read (When.spellOutUtc value.toList) with
    | none => exact throws_spoken read
    | some stamp =>
      refine written stamp ?_ ?_ nofun ?_
      · unfold When.resolve
        simp only [read]
      · unfold When.IsOutside
        simp only [read]
      · rintro text ⟨⟩
        rw [read]
        exact nofun
  | other =>
    constructor
    · rintro ⟨h, -⟩
      injection h with h
      exact h ▸ .kind
    · rintro (_ | out)
      · exact ⟨rfl, rfl⟩
      · exact out.elim

/-- The ending date fails if the end is outside the calendar of the zone. -/
theorem ending_eq_error {ending : Option DateToken} {fault : CalendarFault} :
    ending.mapM (fun token => Moment.date <$> token.moment.inZone zone) = .error fault ↔
      (∃ token ∈ ending, token.moment.IsOutside zone) ∧ fault = .overflow := by
  cases ending with
  | none => simp [pure, Except.pure]
  | some token =>
    rw [Option.mapM_some, Except.map_eq_error, Except.map_eq_error, Moment.inZone_eq_error]
    simp

/-- The instants of timed tokens fail exactly if the clocks of UTC do not show one of them. -/
theorem instantsOf_eq_error {tokens : List DateToken} {fault : CalendarFault} :
    Series.instantsOf tokens = .error fault ↔
      (∃ token ∈ tokens, token.dateOnly = false ∧ token.moment.IsOutside .zero) ∧
        fault = .overflow := by
  have one {token : DateToken} {fault : CalendarFault} :
      Moment.instant <$> token.moment.inUtc = .error fault ↔
        token.moment.IsOutside .zero ∧ fault = .overflow := by
    rw [Except.map_eq_error, Moment.inUtc, Moment.inZone_eq_error]
  have fails {fault : CalendarFault} (h : Series.instantsOf tokens = .error fault) :
      (∃ token ∈ tokens, token.dateOnly = false ∧ token.moment.IsOutside .zero) ∧
        fault = .overflow := by
    obtain ⟨token, mem, h⟩ := Except.exists_of_mapM_error h
    obtain ⟨mem, timed⟩ := List.mem_filter.1 mem
    obtain ⟨out, overflow⟩ := one.1 h
    exact ⟨⟨token, mem, by simpa using timed, out⟩, overflow⟩
  refine ⟨fails, ?_⟩
  rintro ⟨⟨token, mem, timed, out⟩, rfl⟩
  cases h : Series.instantsOf tokens with
  | error fault => rw [(fails h).2]
  | ok instants =>
    -- Each of the tokens would have an instant
    have mem : token ∈ tokens.filter fun token => !token.dateOnly :=
      List.mem_filter.2 ⟨mem, by simp [timed]⟩
    obtain ⟨instant, shown⟩ := Except.exists_of_mapM h mem
    rw [one.2 ⟨out, rfl⟩] at shown
    injection shown

/-- The dates that a rule excludes are already those of its zone when it has been read. -/
theorem exists_datesOf (read : Fields.read zone text = .ok fields) :
    ∃ dates, Series.datesOf zone fields.exdates = .ok dates := by
  refine Except.exists_mapM_eq_ok fun token mem => ?_
  obtain ⟨mem, dated⟩ := List.mem_filter.1 mem
  have rendered := Fields.render_of_mem read token (List.mem_append_right _ mem)
  obtain ⟨m, shown, -⟩ := Except.map_eq_ok.1 rendered
  rw [dated] at shown
  exact ⟨m.date, Except.map_eq_ok.2 ⟨m, shown, rfl⟩⟩

/-- Making the series of a rule that has been read fails only by its tokens. -/
theorem throws_make (read : Fields.read zone text = .ok fields) {anchor : Moment}
    (hanchor : anchor.zone = zone) (years : Positive) :
    Throws (Series.make fields anchor.stamp zone years.val) failure ↔
      fields.IsOutside zone ∧ failure = .calendar .overflow := by
  have positive : Positive.ofInt? years.val = some years := Positive.ofInt?_eq_some.2 rfl
  have own : anchor.stamp.inZone zone = .ok anchor := hanchor ▸ anchor.inZone_stamp
  -- Excluded dates were read as readings of the zone, so only the end and excluded instants can be
  -- outside
  obtain ⟨dates, hdates⟩ := exists_datesOf read
  unfold Series.make Fields.IsOutside
  rw [positive]
  simp only [own, hdates, throws_orFail_ok_bind]
  cases hending : fields.ending.mapM fun token => Moment.date <$> token.moment.inZone zone with
  | error fault =>
    obtain ⟨out, rfl⟩ := ending_eq_error.1 hending
    simp only [out, true_or, true_and]
    exact throws_orFail.trans (and_iff_right rfl)
  | ok ending =>
    have none_out : ¬∃ token ∈ fields.ending, token.moment.IsOutside zone := by
      intro out
      rw [ending_eq_error.2 ⟨out, rfl⟩] at hending
      injection hending
    simp only [none_out, false_or, throws_orFail_ok_bind]
    rw [throws_bind, throws_orFail, instantsOf_eq_error, and_iff_left rfl]
    exact or_iff_left fun ⟨_, _, h⟩ => not_throws_ok h

end

/-! ## Counts and searches -/

section

variable {entries : Entries} {schedule : Schedule} {series : Series}

/-- A count is not answered exactly if it is infinite. One of a kind that holds no number is. -/
theorem throws_requestedCount :
    Throws (requestedCount entries) failure ∧ isWrongKind failure = false ↔
      (∃ negative, field entries "count" = .real (.infinite negative)) ∧
        failure = .infiniteNumber := by
  -- A value of the wrong kind is answered by this request
  have answered {kind : Document.Kind} : ¬(Throws (some <$> (.error (.notNumber kind) :
      Except Failure Int)) failure ∧ isWrongKind failure = false) := by
    rintro ⟨⟨h, -⟩, other⟩
    injection h with h
    rw [← h] at other
    injection other
  unfold requestedCount
  cases field entries "count" with
  | null => exact iff_of_false (fun h => not_throws_ok h.1) (by simp)
  | bool value => exact iff_of_false (fun h => not_throws_ok h.1) (by simp)
  | int value => exact iff_of_false (fun h => not_throws_ok h.1) (by simp)
  | real value =>
    simp only [throws_map, toCount]
    -- A real number is cut to an integer, if it is finite
    cases value with
    | finite mantissa exponent =>
      obtain ⟨n, hn⟩ := Binary64.exists_truncate? mantissa exponent
      rw [hn]
      exact iff_of_false (fun h => not_throws_ok h.1) (by simp)
    | infinite negative =>
      constructor
      · rintro ⟨⟨h, -⟩, -⟩
        injection h with h
        exact ⟨⟨negative, rfl⟩, h.symm⟩
      · rintro ⟨-, rfl⟩
        exact ⟨⟨rfl, rfl⟩, rfl⟩
  | text value =>
    simp only [throws_map, toCount]
    refine iff_of_false (fun ⟨h, _⟩ => ?_) (by simp)
    split at h
    · exact not_throws_ok h
    · exact not_throws_of_answered rfl h
    · exact not_throws_of_answered rfl h
  | stamp value => exact iff_of_false answered (by simp)
  | list items => exact iff_of_false answered (by simp)
  | object entries => exact iff_of_false answered (by simp)

/-- Searching a series fails only where it leaves the calendar. -/
theorem throws_occurrences {bound : Option Moment} {n : Nat} :
    Throws (series.occurrences bound n) failure ↔
      series.occurrences bound n = .error (.calendar .overflow) ∧
        failure = .calendar .overflow := by
  constructor
  · intro h
    -- A limit that is too large is answered, so an error of the calendar is left
    have overflow : failure = .calendar .overflow := by
      have h := h
      unfold Series.occurrences at h
      split at h
      · exact (throws_orFail.1 h).2
      · split at h
        · exact (not_throws_ok h).elim
        · split at h
          · exact (not_throws_of_answered rfl h).elim
          · exact (throws_orFail.1 h).2
    exact ⟨overflow ▸ h.1, overflow⟩
  · rintro ⟨h, rfl⟩
    exact ⟨h, rfl⟩

/-- The count as far as a list can be that long. Any larger one is refused, and nothing is looked
for. -/
def within (n : Nat) : Nat := if n ≤ Series.maxLimit then n else 0

/-- How many occurrences a question for `n` of them looks for. Without a moment after which they
come, the first one is looked for by itself. -/
def reach : Option Moment → (n : Nat) → Nat
  | some _, n => within n
  | none, 0 => 0
  | none, n + 1 => within n + 1

/-- Beyond a moment of the zone, what is thrown comes from the search. -/
theorem throws_occurrencesAfter {e : Moment} (he : e.zone = series.zone) (n : Nat) :
    Throws (series.occurrencesAfter (some e.stamp) n) failure ↔
      Throws (series.occurrences (some e) (within n)) failure := by
  rw [Schedule.occurrencesAfter_stamp_eq he, Int.toNat_natCast, within]
  by_cases small : n ≤ Series.maxLimit
  · simp only [if_pos small, Int.not_lt.2 (Int.ofNat_le.2 small), if_false]
  · rw [if_pos (Int.ofNat_lt.2 (Nat.lt_of_not_le small)), if_neg small, Series.occurrences_zero]
    exact iff_of_false (not_throws_of_answered rfl) not_throws_ok

/-- The search that a question for `n` occurrences comes to, after a moment or from the first
one on. -/
def searchAfter [SpokenReader] (schedule : Schedule) (series : Series) (after : Option When)
    (n : Nat) :
    Except Failure (List Moment) := do
  let bound ← after.mapM fun given => given.resolve schedule.zone
  series.occurrences bound (reach bound n)

/-- A search throws if its bound escapes, or if it leaves the calendar. -/
theorem throws_searchAfter [SpokenReader] {after : Option When} {n : Nat} :
    Throws (searchAfter schedule series after n) failure ↔
      (∃ given, after = some given ∧ MomentEscapes schedule.zone given failure) ∨
        ∃ bound, after.mapM (fun given => given.resolve schedule.zone) = .ok bound ∧
          series.occurrences bound (reach bound n) = .error (.calendar .overflow) ∧
            failure = .calendar .overflow := by
  simp only [searchAfter, throws_bind, throws_occurrences]
  refine or_congr_left ?_
  -- Without a bound nothing is resolved
  cases after with
  | none =>
    refine iff_of_false not_throws_ok ?_
    rintro ⟨given, h, -⟩
    injection h
  | some given =>
    rw [Option.mapM_some, throws_map, throws_when]
    constructor
    · exact fun h => ⟨given, rfl, h⟩
    · rintro ⟨given', h, escapes⟩
      injection h with h
      exact h ▸ escapes

/-- A list of occurrences beyond a bound is a search beyond it. -/
theorem throws_nextOccurrences [SpokenReader] (hs : schedule.series = some series)
    (zones : series.zone = schedule.zone) (after : When) (n : Nat) :
    Throws (schedule.nextOccurrences after n) failure ↔
      Throws (searchAfter schedule series (some after) n) failure := by
  rw [Schedule.nextOccurrences, Schedule.requireSeries_eq hs, throws_ok_bind, searchAfter,
    Option.mapM_some, bind_map_left, throws_bind, throws_bind]
  refine or_congr_right (exists_congr fun bound => and_congr_right fun resolved => ?_)
  exact throws_occurrencesAfter ((When.zone_resolve resolved).trans zones.symm) n

/-- The next occurrence is a search for one. -/
theorem throws_next [SpokenReader] (hs : schedule.series = some series)
    (zones : series.zone = schedule.zone) (after : When) :
    Throws (schedule.next after) failure ↔
      Throws (searchAfter schedule series (some after) 1) failure := by
  rw [Schedule.next_eq, throws_map]
  exact throws_nextOccurrences hs zones after 1

/-- The first occurrence is a search for one without a bound. -/
theorem throws_first [SpokenReader] (hs : schedule.series = some series) :
    Throws schedule.first failure ↔ Throws (searchAfter schedule series none 1) failure := by
  rw [Schedule.first_eq hs, ← Series.head?_occurrences (Query.inZone_none true _), throws_map]
  rfl

/-- A list from the first occurrence on throws as one search for all of them does. -/
theorem throws_firstOccurrences [SpokenReader] (hs : schedule.series = some series)
    (zones : series.zone = schedule.zone) (n : Nat) :
    Throws (firstOccurrences schedule n) failure ↔
      Throws (searchAfter schedule series none n) failure := by
  have inZone := Query.inZone_none true series.zone
  show _ ↔ Throws (series.occurrences none (reach none n)) failure
  cases n with
  | zero =>
    rw [reach, Series.occurrences_zero]
    exact Iff.rfl
  | succ n =>
    rw [firstOccurrences, if_neg n.succ_ne_zero, Schedule.first_eq hs, reach,
      Series.occurrences_succ inZone, throws_bind, throws_bind]
    refine or_congr_right (exists_congr fun first => and_congr_right fun found => ?_)
    cases first with
    | none => exact Iff.rfl
    | some first =>
      -- The others are looked for after the first one, which lies in the zone already
      have zone := (Series.nextOf_admits inZone found).1
      rw [throws_map]
      cases n with
      | zero => exact iff_of_false not_throws_ok (Series.occurrences_zero .. ▸ not_throws_ok)
      | succ n =>
        simp only [if_neg (by omega : ¬n + 1 + 1 = 1)]
        rw [throws_bind, or_iff_left fun ⟨_, _, h⟩ => not_throws_ok h, Schedule.nextOccurrences,
          Schedule.requireSeries_eq hs, throws_ok_bind, When.resolve, ← zones, ← zone,
          Moment.inZone_stamp, throws_orFail_ok_bind]
        exact throws_occurrencesAfter zone (n + 1)

end

end Service

end Recurrence
