import Recurrence.Moment.When
import Recurrence.Proofs.CalendarEnd
import Recurrence.Proofs.Equality

/-!
# Conversions between zones

A moment is shown on the clocks of another zone unless its instant or its reading there lies outside
the calendar. Two zones that are equal show a moment with the same reading. They may still fail
apart: where one of them is the zone in which the moment is told, nothing is converted, and a spoken
text is read under the name of the zone.

* `Zone.Shows`, `Moment.IsOutside`: whether the clocks of a zone show an instant.
* `Moment.isBefore_of_keptOffset`: in a zone that keeps one offset, order is that of the instants.
* `When.MeansOne`: whether what is given for a moment means one and the same in two zones.
* `When.resolve_alike`: it is read alike in two equal zones then.
-/

namespace Recurrence

/-! ## Moments outside the calendar -/

/-- Whether a microsecond count lies inside the calendar. -/
def Reading.InCalendar (ticks : Int) : Prop := 0 ≤ ticks ∧ ticks < Date.total * ticksPerDay

/-- A count of microseconds names no reading just if it lies outside the calendar. -/
theorem Reading.ofTicks?_eq_none {ticks : Int} : ofTicks? ticks = none ↔ ¬InCalendar ticks := by
  constructor
  · rintro h ⟨lo, hi⟩
    obtain ⟨r, hr⟩ := exists_ofTicks? lo hi
    rw [hr] at h
    injection h
  · intro outside
    by_contra h
    -- A reading has a date and a time of day, so its ticks are within the calendar
    obtain ⟨r, hr⟩ := Option.ne_none_iff_exists'.1 h
    have ticks := ofTicks?_eq_some.1 hr
    have date := r.date.dayNumber_lt
    have time := r.time.lt
    refine outside ?_
    unfold InCalendar Reading.ticks ticksPerDay at *
    omega

/-- Whether the clocks of a zone show an instant: it and its reading lie inside the calendar. -/
def Zone.Shows (zone : Zone) (instant : Int) : Prop :=
  Reading.InCalendar instant ∧ Reading.InCalendar (instant + (zone.offsetAt instant).1)

namespace Moment

/-- Whether a moment of another zone has an instant that the clocks of a zone do not show. -/
def IsOutside (m : Moment) (zone : Zone) : Prop := m.zone ≠ zone ∧ ¬zone.Shows m.instant

variable {m : Moment} {zone : Zone} {fault : CalendarFault}

/-- No moment is found at an instant just if UTC or the zone does not show it. -/
theorem ofInstant_eq_error {instant : Int} :
    ofInstant instant zone = .error fault ↔ ¬zone.Shows instant ∧ fault = .overflow := by
  unfold ofInstant Zone.Shows
  rw [not_and_or, ← Reading.ofTicks?_eq_none, ← Reading.ofTicks?_eq_none]
  split
  · rename_i out
    simp [out, eq_comm]
  · -- UTC shows the instant, so the zone decides
    rename_i r hr
    simp only [hr, reduceCtorEq, false_or]
    split
    · rename_i out
      simp [out, eq_comm]
    · rename_i r' hr'
      simp [hr']

/-- A moment cannot be converted just if it lies outside. -/
theorem inZone_eq_error : m.inZone zone = .error fault ↔ m.IsOutside zone ∧ fault = .overflow := by
  unfold inZone IsOutside
  split
  · rename_i same
    simp [same]
  · rename_i other
    simp [ofInstant_eq_error, other]

end Moment

namespace Stamp

/-- Whether a stamp names an instant that the clocks of a zone do not show. -/
def IsOutside (stamp : Stamp) (zone : Zone) : Prop := ∃ m ∈ stamp.moment?, m.IsOutside zone

/-- The same holds of a reading with or without a zone. -/
theorem inZone_eq_error {stamp : Stamp} {zone : Zone} {fault : CalendarFault} :
    stamp.inZone zone = .error fault ↔ stamp.IsOutside zone ∧ fault = .overflow := by
  obtain ⟨reading, second, own⟩ := stamp
  cases own with
  | none => simp [inZone, IsOutside, moment?]
  | some own => simp [inZone, IsOutside, moment?, Moment.inZone_eq_error]

end Stamp

/-- Whether what is given for a moment stands for an instant that the clocks of a zone do not
show. -/
def When.IsOutside [SpokenReader] (given : When) (zone : Zone) : Prop :=
  match given with
  | .stamp value => value.IsOutside zone
  | .text value =>
    match Iso.read (spellOutUtc value.toList) with
    | some read => read.IsOutside zone
    | none => ∃ m, SpokenReader.read value zone.name = .ok (some m) ∧ m.IsOutside zone
  | .other => False

/-! ## Zones that keep one offset -/

namespace Zone

variable {zone : Zone} {offset : Int}

/-- Every reading has the offset that a zone keeps, in both passes. -/
theorem offsetOn_of_keptOffset (h : zone.keptOffset? = some offset) (reading : Reading)
    (second : Bool) : zone.offsetOn reading second = offset := by
  cases zone with
  | region r => injection h
  | fixed kept given => exact Option.some.inj h
  | written kept => exact Option.some.inj h

/-- Clocks that are never moved are orderly. -/
theorem isOrderly_of_keptOffset (h : zone.keptOffset? = some offset) : zone.IsOrderly := by
  cases zone with
  | region r => injection h
  | fixed kept given => exact trivial
  | written kept => exact trivial

end Zone

namespace Moment

variable {a b m n : Moment} {zone zone' : Zone} {offset : Int}

/-- Where one offset is kept, both passes over a reading are one. -/
theorem isUncertain_of_keptOffset (h : m.zone.keptOffset? = some offset) :
    m.isUncertain = false := by
  rw [isUncertain, Zone.offsetOn_of_keptOffset h, Zone.offsetOn_of_keptOffset h]
  exact bne_self_eq_false offset

/-- A reading runs ahead of its instant by the offset that is kept. -/
theorem ticks_of_keptOffset (h : m.zone.keptOffset? = some offset) :
    (m.reading.ticks : Int) = m.instant + offset := by
  rw [instant, Moment.offset, Zone.offsetOn_of_keptOffset h]
  exact (Int.sub_add_cancel _ _).symm

/-- Moments compare by their instants if the second one is told in a zone that keeps one offset. -/
theorem isBefore_of_keptOffset (h : b.zone.keptOffset? = some offset) :
    a.isBefore b = decide (a.instant < b.instant) := by
  unfold isBefore
  split
  · rename_i zones
    have first := ticks_of_keptOffset (zones ▸ h)
    have second := ticks_of_keptOffset h
    rw [decide_eq_decide]
    omega
  · rfl

/-- Equal moments have one reading if their zones keep one offset. -/
theorem reading_of_isSame_of_keptOffset (h : a.zone.keptOffset? = some offset)
    (h' : b.zone.keptOffset? = some offset) (same : a.isSame b = true) : a.reading = b.reading := by
  rcases isSame_iff.1 same with ⟨-, reading⟩ | ⟨-, instant, -, -⟩
  · exact reading
  · have first := ticks_of_keptOffset h
    have second := ticks_of_keptOffset h'
    exact Reading.ticks_inj (by omega)

/-- A moment is shown by its instant and the offset that a zone keeps. -/
theorem ticks_inZone_of_keptOffset (h : zone.keptOffset? = some offset)
    (hm : a.inZone zone = .ok m) : (m.reading.ticks : Int) = a.instant + offset := by
  have instant := instant_inZone (Zone.isOrderly_of_keptOffset h) hm
  rw [← instant]
  exact ticks_of_keptOffset (zone_inZone hm ▸ h)

/-- The instant that UTC shows depends on the instant alone. -/
theorem instant_inUtc_eq (m : Moment) :
    Moment.instant <$> m.inUtc = Moment.instant <$> ofInstant m.instant .zero := by
  unfold inUtc inZone
  split
  · rename_i zone
    -- In UTC itself the instant is that of a reading, so it lies inside the calendar
    have ticks : m.instant = m.reading.ticks := by
      rw [instant, Moment.offset, zone]
      exact Int.sub_zero _
    have shown : Reading.ofTicks? m.instant = some m.reading :=
      Reading.ofTicks?_eq_some.2 ticks.symm
    have own : ofInstant m.instant .zero = .ok ⟨m.reading, .zero, false⟩ := by
      unfold ofInstant
      simp only [Zone.offsetAt, Zone.zero, Int.add_zero, shown]
    rw [own]
    refine congrArg Except.ok (ticks.trans ?_)
    exact (Int.sub_zero _).symm
  · rfl

end Moment

/-! ## What is given for a moment -/

namespace Stamp

variable {stamp : Stamp} {zone zone' : Zone} {offset : Int}

/-- Zones that keep one offset show a stamp alike if both or neither of them shows it. -/
theorem inZone_alike (h : zone.keptOffset? = some offset) (h' : zone'.keptOffset? = some offset)
    (shown : (∃ m, orFail (stamp.inZone zone) = .ok m) ↔
      ∃ m, orFail (stamp.inZone zone') = .ok m) :
    Except.Rel (fun m m' => m'.reading = m.reading) (orFail (stamp.inZone zone))
      (orFail (stamp.inZone zone')) := by
  -- By the hypothesis both conversions fail, with the one fault there is, or none does
  cases first : stamp.inZone zone with
  | error fault =>
    cases second : stamp.inZone zone' with
    | error fault' =>
      rw [(inZone_eq_error.1 first).2, (inZone_eq_error.1 second).2]
      exact .error _
    | ok m' =>
      obtain ⟨m, hm⟩ := shown.2 ⟨m', by rw [second]; rfl⟩
      rw [first] at hm
      cases hm
  | ok m =>
    cases second : stamp.inZone zone' with
    | error fault' =>
      obtain ⟨m', hm'⟩ := shown.1 ⟨m, by rw [first]; rfl⟩
      rw [second] at hm'
      cases hm'
    | ok m' =>
      refine .ok ?_
      obtain ⟨reading, second, own⟩ := stamp
      -- A bare reading is taken over, any other is moved by the same offset
      cases own with
      | none =>
        cases first
        cases second
        rfl
      | some own =>
        have first := Moment.ticks_inZone_of_keptOffset h first
        have second := Moment.ticks_inZone_of_keptOffset h' second
        exact Reading.ticks_inj (by omega)

end Stamp

namespace When

variable {reader reader' : SpokenReader} {given : When} {zone zone' : Zone}

/-- No reader is asked about a stamp. -/
theorem readAlike_stamp (value : Stamp) (zoneName : String) :
    ReadAlike reader reader' (.stamp value) zoneName := by
  rintro text ⟨⟩

/-- Readers that make the same of a text find the same moment in a zone, or refuse it alike. -/
theorem resolve_congr (alike : ReadAlike reader reader' given zone.name) :
    @resolve reader given zone = @resolve reader' given zone := by
  unfold resolve
  cases given with
  | stamp value => rfl
  | text value =>
    simp only
    cases read : Iso.read (spellOutUtc value.toList) with
    | some stamp => rfl
    | none => simp only [alike value rfl read]
  | other => rfl

/-- Whether what is given for a moment means one and the same to two readers in two zones: each in
its own zone, they make the same of a spoken text, and the clocks of both zones or of neither show
the moment. -/
structure MeansOne (reader reader' : SpokenReader) (given : When) (zone zone' : Zone) : Prop where
  spoken : ∀ text, given = .text text → Iso.read (spellOutUtc text.toList) = none →
    reader.read text zone.name = reader'.read text zone'.name
  shown : (∃ m, @resolve reader given zone = .ok m) ↔ ∃ m, @resolve reader' given zone' = .ok m

/-- In one zone nothing more is asked than that the readers make the same of a text. -/
theorem meansOne_of_readAlike (alike : ReadAlike reader reader' given zone.name) :
    MeansOne reader reader' given zone zone := by
  refine ⟨alike, ?_⟩
  rw [resolve_congr alike]

/-- In two equal zones, what means one and the same has one reading, or it is refused alike. -/
theorem resolve_alike (zones : zone.isSame zone' = true)
    (one : MeansOne reader reader' given zone zone') :
    Except.Rel (fun m m' => m'.reading = m.reading) (@resolve reader given zone)
      (@resolve reader' given zone') := by
  rcases Zone.isSame_iff.1 zones with rfl | ⟨offset, kept, kept'⟩
  · rw [resolve_congr one.spoken]
    exact (Except.Rel.of_eq rfl).mono fun _ _ same => same ▸ rfl
  · -- What is given is a stamp, a written text or a spoken one
    obtain ⟨spoken, shown⟩ := one
    unfold resolve at shown ⊢
    cases given with
    | stamp value => exact Stamp.inZone_alike kept kept' shown
    | text value =>
      simp only at shown ⊢
      cases read : Iso.read (spellOutUtc value.toList) with
      | some stamp =>
        rw [read] at shown
        exact Stamp.inZone_alike kept kept' shown
      | none =>
        rw [read, ← spoken value rfl read] at shown
        rw [← spoken value rfl read]
        -- Both readers have heard the same, if they have heard anything
        cases heard : reader.read value zone.name with
        | error fault => exact .error _
        | ok found =>
          rw [heard] at shown
          cases found with
          | none => exact .error _
          | some m => exact m.stamp.inZone_alike kept kept' shown
    | other => exact .error _

end When

end Recurrence
