import Recurrence.Proofs.Lists
import Recurrence.Series.Occurrences

/-!
# Bindings of a series

What a series keeps of the date tokens of its rule: the date of its end on the clocks of its zone,
and the dates and instants that it leaves out.

* `Series.Made`: the kept dates and instants are those of the tokens.
* `Series.make_eq_ok`: what making a series settles.
* `Series.eq_of_make`, `Series.make_congr`: how two series of one anchor differ.
* `Series.excludes`: whether the tokens leave a moment out, told without what the series keeps.
-/

namespace Recurrence

variable {α β : Type}

/-- A calculation on the calendar keeps its results as a step that may fail. -/
theorem orFail_eq_ok {x : Except CalendarFault α} {a : α} : orFail x = .ok a ↔ x = .ok a := by
  cases x <;> simp [orFail]

/-- Its faults are failures of the calendar. -/
theorem orFail_eq_error {x : Except CalendarFault α} {failure : Failure} :
    orFail x = .error failure ↔ ∃ fault, x = .error fault ∧ failure = .calendar fault := by
  cases x with
  | ok a => simp [orFail]
  | error fault => simp [orFail, eq_comm]

/-- Results may be mapped before or after that. -/
theorem orFail_map (f : α → β) (x : Except CalendarFault α) :
    orFail (f <$> x) = f <$> orFail x := by
  cases x <;> rfl

/-- Steps may be joined before or after that. -/
theorem orFail_bind (x : Except CalendarFault α) (f : α → Except CalendarFault β) :
    orFail (x >>= f) = orFail x >>= fun a => orFail (f a) := by
  cases x <;> rfl

/-! ## Conversions -/

namespace Moment

/-- The moment at an instant is told in the zone that was asked. -/
theorem zone_ofInstant {instant : Int} {zone : Zone} {m : Moment}
    (h : ofInstant instant zone = .ok m) : m.zone = zone := by
  unfold ofInstant at h
  split at h
  · injection h
  · simp only at h
    split at h
    · injection h
    · injection h with h
      rw [← h]

/-- A moment on the clocks of a zone has that zone. -/
theorem zone_inZone {a m : Moment} {zone : Zone} (h : a.inZone zone = .ok m) : m.zone = zone := by
  unfold inZone at h
  split at h
  · rename_i same
    injection h with h
    rw [← h, same]
  · exact zone_ofInstant h

/-- A moment is not converted into its own zone. -/
theorem inZone_self (m : Moment) : m.inZone m.zone = .ok m := by
  rw [inZone, if_pos rfl]

/-- The clocks of UTC show a moment at its own instant. -/
theorem instant_inUtc {a m : Moment} (h : a.inUtc = .ok m) : m.instant = a.instant := by
  unfold inUtc inZone at h
  split at h
  · injection h with h
    rw [h]
  · -- The offset of UTC is zero, so the reading there counts the instant itself
    unfold ofInstant at h
    split at h
    · injection h
    · simp only [Zone.offsetAt, Zone.zero, Int.add_zero] at h
      split at h
      · injection h
      · rename_i reading hr
        injection h with h
        rw [← h]
        rw [instant, offset, Zone.offsetOn, Int.sub_zero]
        exact Reading.ofTicks?_eq_some.1 hr

end Moment

namespace Stamp

/-- A stamp on the clocks of a zone has that zone. -/
theorem zone_inZone {stamp : Stamp} {m : Moment} {zone : Zone} (h : stamp.inZone zone = .ok m) :
    m.zone = zone := by
  unfold inZone at h
  split at h
  · injection h with h
    rw [← h]
  · exact Moment.zone_inZone h

end Stamp

/-- The stamp of a moment, read in the moment's own zone, is the moment. -/
theorem Moment.inZone_stamp (m : Moment) : m.stamp.inZone m.zone = .ok m := m.inZone_self

/-! ## What a series keeps -/

namespace DateToken

/-- Whether a token leaves a moment out: by its date on the clocks of the moment's zone if it spells
a date alone, and by its instant if it does not. -/
def excludes (token : DateToken) (m : Moment) : Bool :=
  if token.dateOnly then Moment.date <$> token.moment.inZone m.zone = .ok m.date
  else token.moment.instant = m.instant

end DateToken

namespace Series

variable {s : Series}

/-- Whether the tokens of a series leave a moment out. -/
def excludes (s : Series) (m : Moment) : Bool :=
  s.fields.exdates.any fun token => token.excludes m

/-- What a series keeps of its tokens is what they say in its zone. -/
structure Made (s : Series) : Prop where
  ending : s.fields.ending.mapM (fun token => Moment.date <$> token.moment.inZone s.zone) =
    .ok s.endingDate
  dates : datesOf s.zone s.fields.exdates = .ok s.excludedDates
  instants : instantsOf s.fields.exdates = .ok s.excludedInstants

/-- Without exclusions nothing is kept to be left out. -/
theorem Made.eq_nil (made : s.Made) (h : s.fields.exdates = []) :
    s.excludedDates = [] ∧ s.excludedInstants = [] := by
  have dates := made.dates
  have instants := made.instants
  rw [h] at dates instants
  injection dates with dates
  injection instants with instants
  exact ⟨dates.symm, instants.symm⟩

/-- What making a series settles. -/
theorem make_eq_ok {fields : Fields} {anchor : Stamp} {zone : Zone} {lookahead : Int}
    (h : make fields anchor zone lookahead = .ok s) :
    s.fields = fields ∧ s.zone = zone ∧ (s.lookahead.val : Int) = lookahead ∧
      anchor.inZone zone = .ok s.anchor ∧ s.Made := by
  unfold make at h
  split at h
  · injection h
  · rename_i years hyears
    obtain ⟨start, hstart, h⟩ := Except.bind_eq_ok.1 h
    obtain ⟨ending, hending, h⟩ := Except.bind_eq_ok.1 h
    obtain ⟨dates, hdates, h⟩ := Except.bind_eq_ok.1 h
    obtain ⟨instants, hinstants, h⟩ := Except.bind_eq_ok.1 h
    injection h with h
    subst h
    -- The zone, the anchor and the tokens are settled one after another
    have hstart := orFail_eq_ok.1 hstart
    have zone := Stamp.zone_inZone hstart
    refine ⟨rfl, rfl, (Positive.ofInt?_eq_some.1 hyears).symm, ?_, orFail_eq_ok.1 hending,
      orFail_eq_ok.1 hdates, orFail_eq_ok.1 hinstants⟩
    rw [hstart, Series.anchor, ← zone]

/-- Series with one anchor, one zone and one lookahead differ only in their parts and in what they
keep of their tokens. -/
theorem eq_of_make {s₀ : Series} {fields fields₀ : Fields} {anchor : Stamp} {zone : Zone}
    {lookahead : Int} (h : make fields anchor zone lookahead = .ok s)
    (h₀ : make fields₀ anchor zone lookahead = .ok s₀) :
    s₀ = { s with
      fields := fields₀
      endingDate := s₀.endingDate
      excludedDates := s₀.excludedDates
      excludedInstants := s₀.excludedInstants } := by
  obtain ⟨-, hzone, hyears, hanchor, -⟩ := make_eq_ok h
  obtain ⟨hfields₀, hzone₀, hyears₀, hanchor₀, -⟩ := make_eq_ok h₀
  obtain ⟨fields, zone, reading, second, years, endingDate, dates, instants⟩ := s₀
  simp only at hfields₀ hzone₀ hyears₀
  -- Both series start from one conversion of the anchor
  have anchors := Except.ok.inj (hanchor₀.symm.trans hanchor)
  injection anchors with hreading _ hsecond
  have years : years = s.lookahead := Subtype.ext (Int.ofNat.inj (hyears₀.trans hyears.symm))
  subst hfields₀ hreading hsecond years
  rw [hzone₀, ← hzone]

/-- What a series keeps of its rule depends on the tokens alone. Other parts with the same tokens
make the same series but for the parts. -/
theorem make_congr {fields fields' : Fields} (ending : fields'.ending = fields.ending)
    (exdates : fields'.exdates = fields.exdates) (anchor : Stamp) (zone : Zone) (lookahead : Int) :
    make fields' anchor zone lookahead =
      (fun s => { s with fields := fields' }) <$> make fields anchor zone lookahead := by
  unfold make
  rw [ending, exdates]
  split
  · rfl
  · -- All steps before the last one are the same, and the last one puts the parts in
    simp only [map_bind]
    rfl

/-- A series with another anchor differs in the reading and the pass alone. -/
theorem make_of_inZone {fields : Fields} {anchor stamp : Stamp} {zone : Zone} {lookahead : Int}
    {m : Moment} (h : make fields anchor zone lookahead = .ok s)
    (hm : stamp.inZone zone = .ok m) :
    make fields stamp zone lookahead = .ok { s with reading := m.reading, second := m.second } := by
  unfold make at h ⊢
  split at h
  · injection h
  · obtain ⟨_, -, h⟩ := Except.bind_eq_ok.1 h
    obtain ⟨ending, hending, h⟩ := Except.bind_eq_ok.1 h
    obtain ⟨dates, hdates, h⟩ := Except.bind_eq_ok.1 h
    obtain ⟨instants, hinstants, h⟩ := Except.bind_eq_ok.1 h
    injection h with h
    rw [← h, hm, hending, hdates, hinstants]
    rfl

/-- The dates left out are those of the tokens that spell a date alone, in the zone. -/
theorem mem_datesOf {zone : Zone} {tokens : List DateToken} {dates : List Date}
    (h : datesOf zone tokens = .ok dates) {d : Date} : d ∈ dates ↔
      ∃ token ∈ tokens, token.dateOnly = true ∧
        Moment.date <$> token.moment.inZone zone = .ok d := by
  rw [Except.mem_mapM h]
  simp only [List.mem_filter, and_assoc]

/-- The instants left out are those of the tokens that spell a time of day. -/
theorem mem_instantsOf {tokens : List DateToken} {instants : List Int}
    (h : instantsOf tokens = .ok instants) {i : Int} : i ∈ instants ↔
      ∃ token ∈ tokens, token.dateOnly = false ∧ token.moment.instant = i := by
  rw [Except.mem_mapM h]
  refine exists_congr fun token => ?_
  rw [List.mem_filter, and_assoc, Bool.not_eq_true']
  refine and_congr_right fun mem => and_congr_right fun timed => ?_
  -- The clocks of UTC show a token at its own instant
  constructor
  · intro hi
    obtain ⟨utc, hutc, rfl⟩ := Except.map_eq_ok.1 hi
    exact (Moment.instant_inUtc hutc).symm
  · rintro rfl
    obtain ⟨i, hi⟩ := Except.exists_of_mapM h (List.mem_filter.2 ⟨mem, by rw [timed]; rfl⟩)
    obtain ⟨utc, hutc, -⟩ := Except.map_eq_ok.1 hi
    exact Except.map_eq_ok.2 ⟨utc, hutc, Moment.instant_inUtc hutc⟩

/-- A series leaves out just what its tokens do. -/
theorem isExcluded_eq (made : s.Made) {m : Moment} (hz : m.zone = s.zone) {b : Bool}
    (h : s.isExcluded m = .ok b) : b = s.excludes m := by
  have hdate : m.date ∈ s.excludedDates ↔ ∃ token ∈ s.fields.exdates,
      token.dateOnly = true ∧ token.excludes m = true := by
    rw [mem_datesOf made.dates, ← hz]
    refine exists_congr fun token => and_congr_right fun _ => and_congr_right fun alone => ?_
    rw [DateToken.excludes, if_pos alone, decide_eq_true_eq]
  have hinstant : m.instant ∈ s.excludedInstants ↔ ∃ token ∈ s.fields.exdates,
      token.dateOnly = false ∧ token.excludes m = true := by
    rw [mem_instantsOf made.instants]
    refine exists_congr fun token => and_congr_right fun _ => and_congr_right fun timed => ?_
    rw [DateToken.excludes, timed, if_neg Bool.false_ne_true, decide_eq_true_eq]
  -- A token leaves the moment out by its date or by its instant, as it is spelled
  have iff : s.excludes m = true ↔ m.date ∈ s.excludedDates ∨ m.instant ∈ s.excludedInstants := by
    rw [hdate, hinstant, excludes, List.any_eq_true]
    constructor
    · rintro ⟨token, mem, out⟩
      cases alone : token.dateOnly with
      | true => exact Or.inl ⟨token, mem, alone, out⟩
      | false => exact Or.inr ⟨token, mem, alone, out⟩
    · rintro (⟨token, mem, -, out⟩ | ⟨token, mem, -, out⟩) <;> exact ⟨token, mem, out⟩
  -- The instant is looked up only if the date is not among those left out
  unfold isExcluded at h
  split at h
  · rename_i mem
    injection h with h
    rw [← h, eq_comm, iff]
    exact Or.inl (by simpa using mem)
  · rename_i mem
    obtain ⟨utc, hutc, rfl⟩ := Except.map_eq_ok.1 h
    rw [Moment.instant_inUtc hutc, Bool.eq_iff_iff, iff, List.contains_iff_mem]
    constructor
    · exact Or.inr
    · rintro (date | inst)
      · exact absurd (by simpa using date) mem
      · exact inst

/-- A moment that UTC shows is looked up without a failure. -/
theorem isExcluded_of_inUtc (made : s.Made) {m utc : Moment} (hz : m.zone = s.zone)
    (h : m.inUtc = .ok utc) : s.isExcluded m = .ok (s.excludes m) := by
  obtain ⟨b, hb⟩ : ∃ b, s.isExcluded m = .ok b := by
    unfold isExcluded
    rw [h]
    split
    · exact ⟨_, rfl⟩
    · exact ⟨_, rfl⟩
  rw [hb, isExcluded_eq made hz hb]

/-! ## Questions about occurrences -/

theorem orFail_bound (after : Option Stamp) (zone : Zone) :
    (after.mapM fun stamp => orFail (stamp.inZone zone)) =
      orFail (after.mapM fun stamp => stamp.inZone zone) := by
  cases after with
  | none => rfl
  | some stamp =>
    rw [Option.mapM_some, Option.mapM_some]
    cases stamp.inZone zone <;> rfl

/-- A search that succeeds has a bound on the clocks of the zone, and a limit that lists allow. -/
theorem occurrencesAfter_eq_ok {after : Option Stamp} {limit : Int} {found : List Moment} :
    s.occurrencesAfter after limit = .ok found ↔
      ∃ bound, after.mapM (fun stamp => stamp.inZone s.zone) = .ok bound ∧
        limit ≤ maxLimit ∧ s.occurrences bound limit.toNat = .ok found := by
  rw [occurrencesAfter, orFail_bound, Except.bind_eq_ok]
  refine exists_congr fun bound => and_congr orFail_eq_ok ?_
  split
  · rename_i large
    refine ⟨fun h => ?_, fun h => absurd h.1 (Int.not_le.2 large)⟩
    injection h
  · rename_i small
    exact (and_iff_right (Int.not_lt.1 small)).symm

end Series

end Recurrence
