import Recurrence.Proofs.Answers
import Recurrence.Proofs.Days

/-!
# Ends

The end of a rule cuts its answers short and changes nothing before. A search stops at the first
candidate past the end, or whose period begins after the date of the end on the clocks of the zone.
In the zone of the end the second says nothing that the first does not say. In another zone an
offset change can stand between the end and a candidate that the search stops at too early.

* `Series.endless`: the series without its end.
* `Series.isPast`: whether a search stops at a candidate.
* `Series.through_until`: what a search hands out until it stops.
* `Series.occurrencesAfter_until`: the answers with and without the end.
-/

namespace Recurrence

/-- The parts of a rule without the end. -/
def Fields.endless (fields : Fields) : Fields := { fields with ending := none }

namespace Series

variable {s : Series} {a b m : Moment} {origin : Date} {l : List Moment} {bound : Option Moment}

/-! ## The series without its end -/

/-- The series without its end. -/
def endless (s : Series) : Series := { s with fields := s.fields.endless, endingDate := none }

/-- Making the series without end drops the end from the series. -/
theorem eq_endless {s₀ : Series} {fields : Fields} {anchor : Stamp} {zone : Zone} {lookahead : Int}
    (h : make fields anchor zone lookahead = .ok s)
    (h₀ : make fields.endless anchor zone lookahead = .ok s₀) : s₀ = s.endless := by
  have eq := eq_of_make h h₀
  obtain ⟨rfl, rfl, -, -, made⟩ := make_eq_ok h
  obtain ⟨hfields, hzone, -, -, made₀⟩ := make_eq_ok h₀
  have ends := made₀.ending
  have dates := made₀.dates
  have instants := made₀.instants
  rw [hfields, hzone] at dates
  rw [hfields] at ends instants
  injection ends with ends
  rw [eq, endless, ← ends, ← Except.ok.inj (made.dates.symm.trans dates),
    ← Except.ok.inj (made.instants.symm.trans instants)]

/-! ## Where a search stops -/

/-- Whether a search stops at a candidate: it lies past the end, or its period begins after the date
of the end. -/
def isPast (s : Series) (m : Moment) : Bool :=
  s.isPastEnd m || s.isPastEndingDate (s.freq.periodStart m.date)

/-- The first moment of a list is past the end or out of reach, is excluded, or is found. -/
theorem through_cons (s : Series) (exclude : Bool) (origin : Date) (m : Moment) (l : List Moment) :
    s.through exclude origin (m :: l) =
      if !s.reaches origin m.date || s.isPast m then []
      else if exclude && s.excludes m then s.through exclude origin l
      else m :: s.through exclude m.date l := by
  rw [through, outOfReach, isPast, Bool.or_assoc, Bool.or_comm (s.isPastEnd m)]

/-- Whether a search through candidates has stopped at one that is no later than a moment. -/
def isOver (s : Series) (l : List Moment) (m : Moment) : Bool :=
  l.any fun c => !m.isBefore c && s.isPast c

/-- Once it has stopped a search does not go on. -/
theorem isOver_mono (hz : ∀ c ∈ l, c.zone = s.zone) (ha : a.zone = s.zone) (hb : b.zone = s.zone)
    (lt : a.isBefore b = true) (h : s.isOver l a = true) : s.isOver l b = true := by
  obtain ⟨c, hc, stops⟩ := List.any_eq_true.1 h
  rw [Bool.and_eq_true, Bool.not_eq_true'] at stops
  refine List.any_eq_true.2 ⟨c, hc, ?_⟩
  rw [Bool.and_eq_true, Bool.not_eq_true']
  refine ⟨Bool.eq_false_iff.2 fun lt' => ?_, stops.2⟩
  have lt' := Moment.isBefore_trans (ha.trans hb.symm) (hb.trans (hz c hc).symm) lt lt'
  exact Bool.eq_false_iff.1 stops.1 lt'

/-- Candidates at which a search does not stop have no say in where it does. -/
theorem isOver_cons_of_going (going : s.isPast m = false) : s.isOver (m :: l) = s.isOver l := by
  funext a
  rw [isOver, isOver, List.any_cons, going, Bool.and_false, Bool.false_or]

/-- A search that stops at the first candidate of all has stopped at every other. -/
theorem isOver_of_mem (hl : (m :: l).Pairwise fun a b => a.isBefore b = true)
    (past : s.isPast m = true) (ha : a ∈ m :: l) : s.isOver (m :: l) a = true := by
  have no_earlier : a.isBefore m = false := by
    rcases List.mem_cons.1 ha with rfl | ha
    · exact a.isBefore_irrefl
    · exact Moment.isBefore_asymm ((List.pairwise_cons.1 hl).1 a ha)
  rw [isOver, List.any_cons, no_earlier, past]
  rfl

/-- A search has not stopped before the first of the candidates that it goes through. -/
theorem isOver_of_isBefore (h : ∀ c ∈ l, m.isBefore c = true) : s.isOver l m = false := by
  refine List.any_eq_false.2 fun c hc => ?_
  rw [h c hc]
  exact Bool.false_ne_true

/-- A search with an end hands out what one without it does, until it stops. -/
theorem through_until {exclude : Bool} (hl : l.Pairwise fun a b => a.isBefore b = true) :
    s.through exclude origin l =
      (s.endless.through exclude origin l).takeWhile fun m => !s.isOver l m := by
  induction l generalizing origin with
  | nil => rfl
  | cons c l ih =>
    have ih := fun origin => @ih origin hl.of_cons
    cases past : s.isPast c with
    | true =>
      -- Nothing is handed out from here on, and of the other search all is cut off
      rw [through_cons, past, Bool.or_true, if_pos rfl]
      cases found : s.endless.through exclude origin (c :: l) with
      | nil => rfl
      | cons m rest =>
        have mem : m ∈ s.endless.through exclude origin (c :: l) := by
          rw [found]
          exact List.mem_cons_self
        rw [List.takeWhile_cons, isOver_of_mem hl past ((through_sublist _ _ _ _).subset mem)]
        rfl
    | false =>
      -- Both searches do the same with the candidate, and go on
      have going : s.isOver l c = false := isOver_of_isBefore (List.pairwise_cons.1 hl).1
      rw [through_cons, through_cons, past, isOver_cons_of_going past,
        show s.endless.isPast c = false from rfl,
        show s.endless.reaches origin c.date = s.reaches origin c.date from rfl,
        show s.endless.excludes c = s.excludes c from rfl]
      cases reach : s.reaches origin c.date with
      | false => rfl
      | true =>
        cases out : exclude && s.excludes c with
        | true => exact ih origin
        | false =>
          simp only [Bool.not_true, Bool.or_false, Bool.false_eq_true, if_false,
            List.takeWhile_cons, going, Bool.not_false, if_true, ih]

/-- What a search stops at comes after all that it does not. -/
theorem pairwise_not_isOver (hz : ∀ c ∈ l, c.zone = s.zone)
    (hl : l.Pairwise fun a b => a.isBefore b = true) {found : List Moment} (sub : found.Sublist l) :
    found.Pairwise fun a b => (!s.isOver l b) = true → (!s.isOver l a) = true := by
  refine (hl.sublist sub).imp_of_mem fun {a b} ha hb lt going => ?_
  rw [Bool.not_eq_true'] at going ⊢
  have stops_before := isOver_mono hz (hz a (sub.subset ha)) (hz b (sub.subset hb)) lt
  exact Bool.eq_false_iff.2 fun stops => Bool.eq_false_iff.1 going (stops_before stops)

/-! ## Answers with and without the end -/

/-- The candidates that a search for answers after a bound goes through. With a count these are all
from the anchor on. -/
def searched (s : Series) (bound : Option Moment) : List Moment :=
  match s.fields.count with
  | none => s.candidatesOf ⟨bound, true⟩
  | some _ => s.candidatesOf everyPosition

/-- What is searched are the candidates of some question. -/
theorem exists_searched (s : Series) (bound : Option Moment) :
    ∃ q, s.searched bound = s.candidatesOf q := by
  unfold searched
  cases s.fields.count with
  | none => exact ⟨_, rfl⟩
  | some _ => exact ⟨_, rfl⟩

/-- A searched moment is the one of its date. -/
theorem on_of_mem_searched (h : m ∈ s.searched bound) : m = s.momentOn m.date := by
  obtain ⟨q, hq⟩ := s.exists_searched bound
  rw [hq] at h
  exact (mem_candidatesOf.1 h).1

/-- It is in the zone of the series. -/
theorem zone_of_mem_searched (h : m ∈ s.searched bound) : m.zone = s.zone := by
  rw [on_of_mem_searched h]
  rfl

/-- Searched moments ascend. -/
theorem pairwise_searched (s : Series) (bound : Option Moment) :
    (s.searched bound).Pairwise fun a b => a.isBefore b = true := by
  obtain ⟨q, hq⟩ := s.exists_searched bound
  rw [hq]
  exact pairwise_candidatesOf s q

/-- Answers are searched moments. -/
theorem answersAfter_sublist (s : Series) (bound : Option Moment) :
    (s.answersAfter bound).Sublist (s.searched bound) := by
  unfold answersAfter searched
  cases s.fields.count with
  | none => exact through_sublist _ _ _ _
  | some count =>
    exact List.filter_sublist.trans ((List.take_sublist _ _).trans (through_sublist _ _ _ _))

/-- The answers of a series with an end are those of the series without it, until its search
stops. -/
theorem answersAfter_until (s : Series) (bound : Option Moment) :
    s.answersAfter bound = (s.endless.answersAfter bound).takeWhile fun m =>
      !s.isOver (s.searched bound) m := by
  have hl := s.pairwise_searched bound
  have hz : ∀ c ∈ s.searched bound, c.zone = s.zone := fun c hc => zone_of_mem_searched hc
  rw [answersAfter, answersAfter, show s.endless.fields.count = s.fields.count from rfl]
  unfold searched at *
  cases hcount : s.fields.count with
  | none =>
    rw [hcount] at hl
    exact through_until hl
  | some count =>
    rw [hcount] at hl hz
    simp only at hl hz ⊢
    -- What the search does not stop at is a filter like the others
    have sub := (List.take_sublist count.val _).trans
      (through_sublist s.endless false s.reading.date (s.candidatesOf everyPosition))
    rw [through_until hl, List.take_takeWhile,
      List.takeWhile_eq_filter_of_pairwise (pairwise_not_isOver hz hl sub), List.filter_comm,
      ← List.takeWhile_eq_filter_of_pairwise
        (pairwise_not_isOver hz hl (List.filter_sublist.trans sub))]
    rfl

/-! ## The order in which candidates are past the end -/

/-- In the zone of the end, and in any other zone that keeps the order of days, all that comes after
a candidate at which a search stops is past the end like it. -/
theorem isPast_mono (order : s.EndsInZone ∨ s.zone.KeepsDays) {d e : Date} (le : d ≤ e)
    (h : s.isPast (s.momentOn d) = true) : s.isPast (s.momentOn e) = true := by
  rw [isPast, Bool.or_eq_true] at h ⊢
  rcases h with past | past
  · left
    unfold isPastEnd at *
    cases htoken : s.fields.ending with
    | none =>
      rw [htoken] at past
      injection past
    | some token =>
      rw [htoken] at past
      have ticks : (s.momentOn d).reading.ticks ≤ (s.momentOn e).reading.ticks := by
        have := Date.le_iff.1 le
        simp only [Reading.ticks, momentOn, ticksPerDay]
        omega
      -- In the zone of the series readings are compared, and otherwise instants, which need clocks
      -- that keep the days in order
      by_cases own : token.moment.zone = s.zone
      · have lt := (Moment.isBefore_iff (b := s.momentOn d) own).1 past
        exact (Moment.isBefore_iff (b := s.momentOn e) own).2 (Nat.lt_of_lt_of_le lt ticks)
      · have keeps := order.resolve_left fun ends => own (ends token htoken)
        have instants := keeps s.reading.time s.second d e le
        simp only [Moment.isBefore] at past ⊢
        rw [if_neg (show ¬token.moment.zone = (s.momentOn d).zone from own)] at past
        rw [if_neg (show ¬token.moment.zone = (s.momentOn e).zone from own)]
        exact decide_eq_true (Int.lt_of_lt_of_le (of_decide_eq_true past) instants)
  · right
    unfold isPastEndingDate at *
    split at past
    · injection past
    · refine decide_eq_true (Nat.lt_of_lt_of_le (of_decide_eq_true past) ?_)
      exact Frequency.periodStart_mono (Frequency.periodNumber_mono le)

/-- There, a search stops at the first candidate past the end. -/
theorem isOver_eq (order : s.EndsInZone ∨ s.zone.KeepsDays) (hm : m ∈ s.searched bound) :
    s.isOver (s.searched bound) m = s.isPast m := by
  rw [Bool.eq_iff_iff]
  constructor
  · intro passed
    obtain ⟨c, hc, stops⟩ := List.any_eq_true.1 passed
    rw [Bool.and_eq_true, Bool.not_eq_true', on_of_mem_searched hc, on_of_mem_searched hm] at stops
    have le : c.date ≤ m.date := Nat.not_lt.1 fun lt =>
      Bool.eq_false_iff.1 stops.1 (isBefore_momentOn.2 lt)
    rw [on_of_mem_searched hm]
    exact isPast_mono order le stops.2
  · intro past
    refine List.any_eq_true.2 ⟨m, hm, ?_⟩
    rw [m.isBefore_irrefl, past]
    rfl

/-- A search stops at a candidate later than the end, or in a period that begins after the date of
the end. -/
theorem isPast_eq (made : s.Made) {token : DateToken} {last : Moment}
    (htoken : s.fields.ending = some token) (hlast : token.moment.inZone s.zone = .ok last)
    (m : Moment) : s.isPast m =
      (token.moment.isBefore m || decide (last.date < s.freq.periodStart m.date)) := by
  have ending := made.ending
  rw [htoken, Option.mapM_some, hlast] at ending
  injection ending with ending
  rw [isPast, isPastEnd, isPastEndingDate, htoken, ← ending]

/-- With an end in the zone of the series, no moment is past its date but not past the end. -/
theorem isPast_eq_isPastEnd (made : s.Made) (ends : s.EndsInZone) (hm : m.zone = s.zone) :
    s.isPast m = s.isPastEnd m := by
  rw [isPast]
  cases past : s.isPastEndingDate (s.freq.periodStart m.date) with
  | false => exact Bool.or_false _
  | true => rw [isPastEnd_of_isPastEndingDate made ends hm past, Bool.or_true]

/-- A moment that is not later than the end, but whose date is, is separated from it by an offset
change. -/
theorem turnsBefore_of_date_lt (orderly : m.zone.IsOrderly) {token : DateToken} {last : Moment}
    (hlast : token.moment.inZone m.zone = .ok last) (no_later : token.moment.isBefore m = false)
    (lt : last.date < m.date) : last.TurnsBefore m := by
  have zone := Moment.zone_inZone hlast
  -- The end shows the earlier date, so its instant is earlier unless clocks are turned between
  have ticks : last.reading.ticks < m.reading.ticks :=
    Nat.lt_of_not_le fun le => Nat.not_le.2 lt (Moment.date_le_of_ticks_le le)
  refine (Moment.instant_lt_of_ticks_lt orderly zone ticks).resolve_left fun before => ?_
  rw [Moment.instant_inZone orderly hlast] at before
  unfold Moment.isBefore at no_later
  split at no_later
  · -- In the zone of the end its reading would be the one that has been compared
    rename_i own
    rw [← own, Moment.inZone_self] at hlast
    injection hlast with hlast
    rw [hlast] at no_later
    exact of_decide_eq_false no_later ticks
  · exact of_decide_eq_false no_later before

/-- The answers of a series with an end are those of the series without it, until its search stops.
If the end stands on the clocks of the zone, that is before the first one later than the end. On
other clocks that keep the order of days it is before the first one that is later than the end or
whose period begins after the date of the end. If the latter is not the former, then an offset
change stands between the end and that answer. -/
theorem occurrencesAfter_until {s₀ : Series} {fields : Fields} {anchor : Stamp} {zone : Zone}
    {lookahead : Int} {token : DateToken} (hs : make fields anchor zone lookahead = .ok s)
    (hs₀ : make fields.endless anchor zone lookahead = .ok s₀) (htoken : fields.ending = some token)
    {after : Option Stamp} {limit : Int} {all found : List Moment}
    (hall : s₀.occurrencesAfter after limit = .ok all)
    (h : s.occurrencesAfter after limit = .ok found) :
    ∃ bound last, after.mapM (fun stamp => stamp.inZone zone) = .ok bound ∧
      token.moment.inZone zone = .ok last ∧
      found = all.takeWhile (fun m => !s.isOver (s.searched bound) m) ∧
      (token.moment.zone = zone → found = all.takeWhile fun m => !token.moment.isBefore m) ∧
      (zone.KeepsDays → found = all.takeWhile fun m =>
        !(token.moment.isBefore m || decide (last.date < fields.freq.periodStart m.date))) ∧
      (zone.IsOrderly → ∀ m ∈ all, token.moment.isBefore m = false →
        last.date < fields.freq.periodStart m.date → last.TurnsBefore m) := by
  have eq₀ := eq_endless hs hs₀
  subst eq₀
  obtain ⟨rfl, rfl, -, -, made⟩ := make_eq_ok hs
  obtain ⟨-, -, -, -, made₀⟩ := make_eq_ok hs₀
  obtain ⟨bound, hbound, rfl⟩ := occurrencesAfter_eq_answers made h
  obtain ⟨bound₀, hbound₀, rfl⟩ := occurrencesAfter_eq_answers made₀ hall
  have same : bound₀ = bound := Except.ok.inj (hbound₀.symm.trans hbound)
  subst same
  -- The series was made, so its end can be shown in the zone
  obtain ⟨last, hlast⟩ : ∃ last, token.moment.inZone s.zone = .ok last := by
    have ending := made.ending
    rw [htoken, Option.mapM_some] at ending
    obtain ⟨date, hdate, -⟩ := Except.map_eq_ok.1 ending
    obtain ⟨last, hlast, -⟩ := Except.map_eq_ok.1 hdate
    exact ⟨last, hlast⟩
  have mem : ∀ m ∈ (s.endless.answersAfter bound₀).take limit.toNat, m ∈ s.searched bound₀ :=
    fun m hm => (s.endless.answersAfter_sublist bound₀).subset (List.mem_of_mem_take hm)
  -- The answers stop at the first searched moment that is over
  have stops : (s.answersAfter bound₀).take limit.toNat =
      ((s.endless.answersAfter bound₀).take limit.toNat).takeWhile fun m =>
        !s.isOver (s.searched bound₀) m :=
    (congrArg (List.take _) (s.answersAfter_until bound₀)).trans List.take_takeWhile
  refine ⟨bound₀, last, hbound, hlast, stops, fun own => ?_, fun keeps => ?_,
    fun orderly m hm no_later lt => ?_⟩
  · -- An end in the zone leaves the comparison of readings alone
    have ends : s.EndsInZone := by
      intro other hother
      rw [htoken] at hother
      injection hother with hother
      rw [← hother, own]
    refine stops.trans (List.takeWhile_congr fun m hm => ?_)
    rw [isOver_eq (.inl ends) (mem m hm),
      isPast_eq_isPastEnd made ends (zone_of_mem_searched (mem m hm)), isPastEnd, htoken]
  · refine stops.trans (List.takeWhile_congr fun m hm => ?_)
    rw [isOver_eq (.inr keeps) (mem m hm), isPast_eq made htoken hlast]
    rfl
  · have zone : m.zone = s.zone := zone_of_mem_searched (mem m hm)
    rw [← zone] at orderly hlast
    exact turnsBefore_of_date_lt orderly hlast no_later
      (Nat.lt_of_lt_of_le lt (s.freq.periodStart_le m.date))

/-- A quarter to three in UTC on the day on which the clocks of São Paulo go forward at three. -/
def quarterToThree : DateToken :=
  ⟨⟨⟨⟨2012, 10, 21, by decide⟩, ⟨9900000000, by decide⟩⟩, .zero, false⟩, false, true⟩

/-- The same on the clocks of São Paulo, which still show the day before. -/
def quarterToMidnight : Moment :=
  ⟨⟨⟨2012, 10, 20, by decide⟩, ⟨85500000000, by decide⟩⟩, .region .saoPaulo, false⟩

/-- Every night until then. -/
def nightsUntilThen : Fields where
  freq := .daily
  interval := none
  count := none
  ending := some quarterToThree
  byMonth := .empty
  byMonthDay := []
  byDay := []
  exdates := []
  keyOrder := []
  dayFilters := Fields.noDayFilters

/-- The nights of São Paulo at twenty past midnight, in the second pass where this is skipped. -/
def saoPauloNights : Series where
  fields := nightsUntilThen
  zone := .region .saoPaulo
  reading := ⟨quarterToMidnight.date, ⟨1200000000, by decide⟩⟩
  second := true
  lookahead := .one
  endingDate := some quarterToMidnight.date
  excludedDates := []
  excludedInstants := []

/-- The last two nights. -/
def twoNights : List Moment :=
  [quarterToMidnight.date, quarterToThree.moment.date].map saoPauloNights.momentOn

/-- The nights in Sao Paulo are a series. -/
theorem make_nightsUntilThen :
    make nightsUntilThen ⟨saoPauloNights.reading, true, none⟩ (.region .saoPaulo) 1 =
      .ok saoPauloNights := by
  have ending : orFail (nightsUntilThen.ending.mapM fun token =>
      Moment.date <$> token.moment.inZone (.region .saoPaulo)) =
        .ok (some quarterToMidnight.date) := by decide +kernel
  simp only [make, show Positive.ofInt? 1 = some .one from rfl, ending]
  rfl

/-- The second night is not later than the end, and its date is. -/
theorem saoPauloNights_until :
    make nightsUntilThen ⟨saoPauloNights.reading, true, none⟩ (.region .saoPaulo) 1 =
        .ok saoPauloNights ∧
      make nightsUntilThen.endless ⟨saoPauloNights.reading, true, none⟩ (.region .saoPaulo) 1 =
        .ok saoPauloNights.endless ∧
      saoPauloNights.endless.occurrencesAfter none 2 = .ok twoNights ∧
      saoPauloNights.occurrencesAfter none 2 = .ok (twoNights.take 1) ∧
      (twoNights.take 1 = twoNights.takeWhile fun m =>
        !(quarterToThree.moment.isBefore m || decide (quarterToMidnight.date < m.date))) ∧
      quarterToMidnight.TurnsBefore (saoPauloNights.momentOn quarterToThree.moment.date) := by
  have made₀ : make nightsUntilThen.endless ⟨saoPauloNights.reading, true, none⟩
      (.region .saoPaulo) 1 = .ok saoPauloNights.endless := rfl
  have all : saoPauloNights.endless.occurrencesAfter none 2 = .ok twoNights := by decide +kernel
  have found : saoPauloNights.occurrencesAfter none 2 = .ok (twoNights.take 1) := by
    decide +kernel
  have end_there : quarterToThree.moment.inZone (.region .saoPaulo) = .ok quarterToMidnight := by
    decide +kernel
  -- The last night comes before the end, though its date does not
  obtain ⟨bound, last, -, hlast, -, -, cut, turns⟩ :=
    occurrencesAfter_until make_nightsUntilThen made₀ rfl all found
  rw [end_there] at hlast
  injection hlast with hlast
  subst hlast
  refine ⟨make_nightsUntilThen, made₀, all, found, ?_, ?_⟩
  · exact cut (Region.keepsDays_all .saoPaulo (by simp [Region.all]))
  · exact turns (Region.isOrderly_all .saoPaulo (by simp [Region.all])) _
      (List.mem_cons_of_mem _ List.mem_cons_self) (by decide +kernel) (by decide +kernel)

/-- A night that is not later than the end is cut off. -/
theorem saoPauloNights_cut :
    make nightsUntilThen ⟨saoPauloNights.reading, true, none⟩ (.region .saoPaulo) 1 =
        .ok saoPauloNights ∧
      make nightsUntilThen.endless ⟨saoPauloNights.reading, true, none⟩ (.region .saoPaulo) 1 =
        .ok saoPauloNights.endless ∧
      saoPauloNights.endless.occurrencesAfter none 2 = .ok twoNights ∧
      saoPauloNights.occurrencesAfter none 2 ≠
        .ok (twoNights.takeWhile fun m => !quarterToThree.moment.isBefore m) :=
  ⟨make_nightsUntilThen, rfl, by decide +kernel, by decide +kernel⟩

end Series

end Recurrence
