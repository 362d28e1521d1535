import Recurrence.Zone.History

/-!
# Settled histories

The shifts of a place keep apart: each begins with the offset that the one before it leads to, and
no reading that one repeats or skips is touched by the next. For a yearly rule this is checked for
years of any length that begin on any weekday, and where the record goes over into the rule.

* `Shift.Precedes`, `Shift.Linked`: shifts that follow one another.
* `YearlyRule.IsRegular`: rules whose shifts keep apart year after year.
* `History.IsSettled`: histories whose shifts keep apart, on record and by rule.
-/

namespace Recurrence

namespace Shift

/-- Whether a shift can follow another one. -/
def Precedes (a b : Shift) : Prop := b.before = a.after ∧ a.wallStart false ≤ b.wallStart true

instance (a b : Shift) : Decidable (a.Precedes b) := inferInstanceAs (Decidable (_ ∧ _))

/-- Whether each shift of a list can follow the one before it. -/
def Linked (shifts : List Shift) : Prop := ∀ p ∈ shifts.zip shifts.tail, p.1.Precedes p.2

instance (shifts : List Shift) : Decidable (Linked shifts) := List.decidableBAll _ _

/-- Whether shifts are linked and begin with an offset. -/
def LinkedFrom (initial : Int) (shifts : List Shift) : Prop :=
  Linked shifts ∧ ∀ s ∈ shifts.head?, s.before = initial

instance (initial : Int) (shifts : List Shift) : Decidable (LinkedFrom initial shifts) :=
  inferInstanceAs (Decidable (_ ∧ _))

/-- The same change some seconds later. -/
def delay (seconds : Int) (s : Shift) : Shift := { s with instant := s.instant + seconds }

end Shift

/-! ## Yearly rules -/

/-- The clock's reading at a change, in seconds since the start of a year that begins on a weekday,
counted from zero for Monday. -/
def ChangeDay.yearSeconds (c : ChangeDay) (leap : Bool) (weekday : Nat) : Int :=
  let monthStart := daysBeforeMonth leap c.month
  let named := (c.weekday.number + 7 - (weekday + monthStart + 1) % 7) % 7 + 7 * (c.week - 1)
  let day := if named < monthLength leap c.month then named else named - 7
  ((monthStart + day : Nat) : Int) * 86400 + c.time

namespace YearlyRule

/-- The shifts of a year that begins on a weekday, with instants since the start of the year. -/
def yearShifts (rule : YearlyRule) (leap : Bool) (weekday : Nat) : List Shift :=
  let start : Shift :=
    ⟨rule.starts.yearSeconds leap weekday - rule.standard, rule.standard, rule.daylight⟩
  let stop : Shift :=
    ⟨rule.ends.yearSeconds leap weekday - rule.daylight, rule.daylight, rule.standard⟩
  if start.instant < stop.instant then [start, stop] else [stop, start]

/-- Whether all shifts stay inside years of any kind, and keep apart from those of the year
after. -/
structure IsRegular (rule : YearlyRule) : Prop where
  within : ∀ leap : Bool, ∀ weekday : Fin 7, ∀ s ∈ rule.yearShifts leap weekday,
    (0 ≤ s.wallStart true ∧ s.wallStart false < 365 * 86400) ∧
      0 ≤ s.instant ∧ s.instant < 365 * 86400
  linked : ∀ leap next : Bool, ∀ weekday : Fin 7,
    Shift.Linked (rule.yearShifts leap weekday ++
      (rule.yearShifts next ((weekday + yearLength leap) % 7)).map
        (Shift.delay (yearLength leap * 86400)))

instance (rule : YearlyRule) : Decidable rule.IsRegular :=
  decidable_of_iff (_ ∧ _) ⟨fun h => ⟨h.1, h.2⟩, fun h => ⟨h.within, h.linked⟩⟩

end YearlyRule

/-! ## Histories -/

namespace History

/-- The first second of a year, on the clock or in UTC. -/
def yearStart (year : Nat) : Int := ((daysBeforeYear year : Int) - 719162) * 86400

/-- Whether a shift comes after those on record. -/
def isNew (h : History) (s : Shift) : Bool :=
  match h.recorded.getLast? with
  | none => true
  | some known => known.instant < s.instant

/-- Whether the record of a history ends in a year and goes over into a regular rule there. -/
structure Settles (h : History) (rule : YearlyRule) (year : Nat) : Prop where
  regular : rule.IsRegular
  pos : 1 ≤ year
  known : ∃ known ∈ h.recorded.getLast?,
    yearStart year ≤ known.instant ∧ known.instant < yearStart (year + 1)
  linked : Shift.LinkedFrom h.initial
    (h.recorded ++ (rule.shifts year).filter h.isNew ++ rule.shifts (year + 1))
  no_year_zero : ∀ s ∈ rule.shifts 0, h.isNew s = false

instance (h : History) (rule : YearlyRule) (year : Nat) : Decidable (h.Settles rule year) :=
  decidable_of_iff (_ ∧ _ ∧ _ ∧ _ ∧ _)
    ⟨fun ⟨a, b, c, d, e⟩ => ⟨a, b, c, d, e⟩, fun ⟨a, b, c, d, e⟩ => ⟨a, b, c, d, e⟩⟩

/-- Whether the shifts of a history keep apart: those on record, or, with a rule, also those that
it goes on with from the year of the last one on record. -/
def IsSettled (h : History) : Prop :=
  (h.rule = none ∧ Shift.LinkedFrom h.initial h.recorded) ∨
    ∃ rule ∈ h.rule, ∃ known ∈ h.recorded.getLast?, h.Settles rule (yearOfSeconds known.instant)

instance (h : History) : Decidable h.IsSettled := inferInstanceAs (Decidable (_ ∨ _))

end History

end Recurrence
