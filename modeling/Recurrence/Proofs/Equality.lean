import Recurrence.Moment.Spoken
import Recurrence.Proofs.Lists
import Recurrence.Proofs.Regions
import Recurrence.Schedule

/-!
# Equality of schedules

Moments of one zone are equal by their readings, moments of two zones by their instants. That this
is transitive, also from a zone through another one back to the first, rests on the clocks: a
reading that has one offset in both passes is the one that is shown at its instant.

Zones that keep one offset are equal by that offset. A schedule is looked up by the name of its
zone, though, so equal schedules meet only where their zones have one name.

* `Zone.KeepsReadings`: what is asked of the clocks. Orderly clocks have it.
* `Zone.name_congr`: equal zones that have been given the same name, or none, have one name.
* `Moment.isSame_trans`, `Fields.sameParts_trans`: equality of moments, and of rules by their parts.
* `Schedule.isSame_equivalence`: equality of schedules, and when equal schedules have one identity.
-/

namespace Recurrence

/-! ## Zones -/

namespace Zone

variable {zone : Zone}

/-- Whether a reading with one offset in both passes is the one that is shown at its instant. -/
def KeepsReadings (zone : Zone) : Prop :=
  ∀ reading : Reading, zone.offsetOn reading true = zone.offsetOn reading false →
    (zone.offsetAt (reading.ticks - zone.offsetOn reading false)).1 = zone.offsetOn reading false

/-- Orderly clocks keep readings. -/
theorem IsOrderly.keepsReadings (orderly : zone.IsOrderly) : zone.KeepsReadings := by
  intro reading agree
  cases zone with
  | fixed offset given => rfl
  | written offset => rfl
  | region r =>
    simp only [offsetOn, offsetAt] at agree ⊢
    have agree := Int.eq_of_mul_eq_mul_right (by decide) agree
    -- Histories count whole seconds
    have seconds : (reading.ticks -
        r.history.offsetOn (reading.seconds - unixStart) false * ticksPerSecond) / ticksPerSecond -
          unixStart = reading.seconds - unixStart -
            r.history.offsetOn (reading.seconds - unixStart) false := by
      unfold Reading.seconds ticksPerSecond
      omega
    rw [seconds, History.offsetAt_offsetOn orderly agree]

/-! ### Equality -/

/-- The name that a zone has been given. A region has the name of its history. -/
def given? : Zone → Option String
  | .region _ => none
  | .fixed _ given => given
  | .written _ => none

variable {a b c : Zone}

/-- Equal zones are the same one, or they keep the same offset. -/
theorem isSame_iff : a.isSame b = true ↔
    a = b ∨ ∃ offset, a.keptOffset? = some offset ∧ b.keptOffset? = some offset := by
  unfold isSame
  -- Only zones that keep an offset are compared by it
  cases ha : a.keptOffset? with
  | none => simp
  | some offset =>
    cases hb : b.keptOffset? with
    | none =>
      simp only [decide_eq_true_eq, reduceCtorEq, and_false, exists_false, or_false]
    | some offset' =>
      simp only [decide_eq_true_eq, Option.some.injEq, exists_eq_left']
      constructor
      · exact fun same => .inr same.symm
      · rintro (rfl | same)
        · exact Option.some.inj (ha.symm.trans hb)
        · exact same.symm

/-- A zone is equal to itself. -/
theorem isSame_refl (a : Zone) : a.isSame a = true := isSame_iff.2 (.inl rfl)

/-- Equality of zones goes both ways. -/
theorem isSame_symm (h : a.isSame b = true) : b.isSame a = true := by
  rcases isSame_iff.1 h with rfl | ⟨offset, ha, hb⟩
  · exact a.isSame_refl
  · exact isSame_iff.2 (.inr ⟨offset, hb, ha⟩)

/-- Equality of zones is transitive. -/
theorem isSame_trans (hab : a.isSame b = true) (hbc : b.isSame c = true) : a.isSame c = true := by
  rcases isSame_iff.1 hab with rfl | ⟨offset, ha, hb⟩
  · exact hbc
  · rcases isSame_iff.1 hbc with rfl | ⟨offset', hb', hc⟩
    · exact hab
    · -- The zone between the two keeps one offset only
      rw [hb] at hb'
      exact isSame_iff.2 (.inr ⟨offset, ha, hb' ▸ hc⟩)

/-- A zone that keeps one offset is called after it, unless it has been given a name. -/
theorem name_of_keptOffset {offset : Int} (h : a.keptOffset? = some offset) :
    a.name = a.given?.getD (offsetName offset) := by
  cases a with
  | region r => injection h
  | fixed kept given =>
    injection h with h
    rw [← h]
    rfl
  | written kept =>
    injection h with h
    rw [← h]
    rfl

/-- Equal zones have one name if they have been given the same one, or none. -/
theorem name_congr (h : a.isSame b = true) (given : a.given? = b.given?) : a.name = b.name := by
  rcases isSame_iff.1 h with rfl | ⟨offset, ha, hb⟩
  · rfl
  · rw [name_of_keptOffset ha, name_of_keptOffset hb, given]

end Zone

/-! ## Moments -/

namespace Moment

variable {a b c : Moment}

/-- Moments of one zone are equal by their readings, those of two zones by their instants, and then
no other pass may change these. -/
theorem isSame_iff : a.isSame b = true ↔
    (a.zone = b.zone ∧ a.reading = b.reading) ∨
      (a.zone ≠ b.zone ∧ a.instant = b.instant ∧ a.isUncertain = false ∧
        b.isUncertain = false) := by
  unfold isSame
  split <;> simp [*, and_assoc]

/-- Whether a moment is uncertain depends on its zone and its reading alone. -/
theorem isUncertain_congr (zone : a.zone = b.zone) (reading : a.reading = b.reading) :
    a.isUncertain = b.isUncertain := by
  unfold isUncertain
  rw [zone, reading]

/-- Moments with one reading in one zone have one instant if the reading has one offset. -/
theorem instant_congr (zone : a.zone = b.zone) (reading : a.reading = b.reading)
    (certain : a.isUncertain = false) : a.instant = b.instant := by
  rw [← a.instant_first_pass fun _ => certain,
    ← b.instant_first_pass fun _ => isUncertain_congr zone reading ▸ certain, zone, reading]

/-- In a zone that keeps readings, one that no offset change touches is shown at its instant. -/
theorem ticks_eq_shown {m : Moment} (keeps : m.zone.KeepsReadings)
    (certain : m.isUncertain = false) :
    (m.reading.ticks : Int) = m.instant + (m.zone.offsetAt m.instant).1 := by
  have shown := keeps m.reading (bne_eq_false_iff_eq.1 certain)
  rw [← m.instant_first_pass fun _ => certain]
  simp only [Moment.instant, offset]
  omega

/-- So the instant tells which reading it is. -/
theorem reading_eq_of_instant (keeps : a.zone.KeepsReadings) (zone : a.zone = b.zone)
    (first : a.isUncertain = false) (second : b.isUncertain = false)
    (instant : a.instant = b.instant) : a.reading = b.reading := by
  have here := ticks_eq_shown keeps first
  have there := ticks_eq_shown (zone ▸ keeps) second
  rw [instant, zone] at here
  exact Reading.ticks_inj (by omega)

/-- A moment is equal to itself. -/
theorem isSame_refl (a : Moment) : a.isSame a = true :=
  isSame_iff.2 (.inl ⟨rfl, rfl⟩)

/-- Equality of moments goes both ways. -/
theorem isSame_symm (h : a.isSame b = true) : b.isSame a = true := by
  rcases isSame_iff.1 h with ⟨zone, reading⟩ | ⟨apart, instant, first, second⟩
  · exact isSame_iff.2 (.inl ⟨zone.symm, reading.symm⟩)
  · exact isSame_iff.2 (.inr ⟨apart.symm, instant.symm, second, first⟩)

/-- Equality of moments is transitive if the zone of the first one keeps readings. -/
theorem isSame_trans (keeps : a.zone.KeepsReadings) (hab : a.isSame b = true)
    (hbc : b.isSame c = true) : a.isSame c = true := by
  rcases isSame_iff.1 hab with ⟨zone, reading⟩ | ⟨apart, instant, first, second⟩ <;>
    rcases isSame_iff.1 hbc with ⟨zone', reading'⟩ | ⟨apart', instant', first', second'⟩
  · -- Each comparison is one within a zone or one between two
    exact isSame_iff.2 (.inl ⟨zone.trans zone', reading.trans reading'⟩)
  · have certain : a.isUncertain = false := (isUncertain_congr zone reading).trans first'
    exact isSame_iff.2 (.inr ⟨zone ▸ apart', (instant_congr zone reading certain).trans instant',
      certain, second'⟩)
  · have certain : c.isUncertain = false := (isUncertain_congr zone' reading').symm.trans second
    exact isSame_iff.2 (.inr ⟨zone' ▸ apart,
      instant.trans (instant_congr zone' reading' second), first, certain⟩)
  · by_cases back : a.zone = c.zone
    · -- Through another zone and back: the instant has to lead to one reading
      exact isSame_iff.2 (.inl ⟨back,
        reading_eq_of_instant keeps back first second' (instant.trans instant')⟩)
    · exact isSame_iff.2 (.inr ⟨back, instant.trans instant', first, second'⟩)

/-- Equal moments have one instant in the first pass. -/
theorem instant_first_pass_congr (h : a.isSame b = true) :
    ({ a with second := false } : Moment).instant =
      ({ b with second := false } : Moment).instant := by
  rcases isSame_iff.1 h with ⟨zone, reading⟩ | ⟨-, instant, first, second⟩
  · rw [zone, reading]
  · exact (a.instant_first_pass fun _ => first).trans
      (instant.trans (b.instant_first_pass fun _ => second).symm)

end Moment

/-! ## Parts -/

namespace DateToken

/-- Date tokens are equal by their moments and by how they are spelled. -/
theorem isSame_iff {a b : DateToken} : a.isSame b = true ↔
    a.moment.isSame b.moment = true ∧ a.dateOnly = b.dateOnly ∧ a.utc = b.utc := by
  simp only [isSame, Bool.and_eq_true, beq_iff_eq, and_assoc]

/-- Lists of date tokens are equal one by one. -/
theorem allSame_iff {as bs : List DateToken} :
    allSame as bs = true ↔ List.Forall₂ (fun a b => a.isSame b = true) as bs := by
  induction as generalizing bs with
  | nil => cases bs <;> simp [allSame]
  | cons a as ih => cases bs <;> simp [allSame, ih]

/-- A date token is equal to itself. -/
theorem isSame_refl (a : DateToken) : a.isSame a = true :=
  isSame_iff.2 ⟨a.moment.isSame_refl, rfl, rfl⟩

/-- Equality of date tokens goes both ways. -/
theorem isSame_symm {a b : DateToken} (h : a.isSame b = true) : b.isSame a = true := by
  obtain ⟨moment, dateOnly, utc⟩ := isSame_iff.1 h
  exact isSame_iff.2 ⟨Moment.isSame_symm moment, dateOnly.symm, utc.symm⟩

/-- Equality of date tokens is transitive where that of their moments is. -/
theorem isSame_trans {a b c : DateToken} (keeps : a.moment.zone.KeepsReadings)
    (hab : a.isSame b = true) (hbc : b.isSame c = true) : a.isSame c = true := by
  obtain ⟨moment, dateOnly, utc⟩ := isSame_iff.1 hab
  obtain ⟨moment', dateOnly', utc'⟩ := isSame_iff.1 hbc
  exact isSame_iff.2 ⟨Moment.isSame_trans keeps moment moment', dateOnly.trans dateOnly',
    utc.trans utc'⟩

/-- So is that of lists of them. -/
theorem forall₂_trans {as bs cs : List DateToken}
    (keeps : ∀ a ∈ as, a.moment.zone.KeepsReadings)
    (hab : List.Forall₂ (fun a b => a.isSame b = true) as bs)
    (hbc : List.Forall₂ (fun b c => b.isSame c = true) bs cs) :
    List.Forall₂ (fun a c => a.isSame c = true) as cs := by
  induction hab generalizing cs with
  | nil => exact hbc
  | cons same _ ih =>
    cases hbc with
    | cons same' rest' =>
      obtain ⟨first, others⟩ := List.forall_mem_cons.1 keeps
      exact .cons (isSame_trans first same same') (ih others rest')

end DateToken

namespace PartValue

/-- The moments of a value. -/
def moments : PartValue → List Moment
  | token value => [value.moment]
  | tokens values => values.map (·.moment)
  | _ => []

/-- Values are equal as tokens, as lists of tokens, or outright. -/
theorem isSame_iff {a b : PartValue} : a.isSame b = true ↔
    (∃ s t, a = token s ∧ b = token t ∧ s.isSame t = true) ∨
      (∃ ss ts, a = tokens ss ∧ b = tokens ts ∧
        List.Forall₂ (fun s t => s.isSame t = true) ss ts) ∨ a = b := by
  constructor
  · intro h
    -- Values of two kinds are never equal, and those without tokens are so just if they are the
    -- same
    cases a <;> cases b
    case token.token s t => exact .inl ⟨s, t, rfl, rfl, h⟩
    case tokens.tokens ss ts => exact .inr (.inl ⟨ss, ts, rfl, rfl, DateToken.allSame_iff.1 h⟩)
    all_goals exact .inr (.inr (of_decide_eq_true h))
  · rintro (⟨s, t, rfl, rfl, same⟩ | ⟨ss, ts, rfl, rfl, same⟩ | rfl)
    · exact same
    · exact DateToken.allSame_iff.2 same
    · cases a
      case token s => exact s.isSame_refl
      case tokens ss => exact DateToken.allSame_iff.2 (List.forall₂_same.2 fun s _ => s.isSame_refl)
      all_goals exact decide_eq_true rfl

/-- A value is equal to itself. -/
theorem isSame_refl (a : PartValue) : a.isSame a = true := isSame_iff.2 (.inr (.inr rfl))

/-- Equality of values goes both ways. -/
theorem isSame_symm {a b : PartValue} (h : a.isSame b = true) : b.isSame a = true := by
  rcases isSame_iff.1 h with ⟨s, t, rfl, rfl, same⟩ | ⟨ss, ts, rfl, rfl, same⟩ | rfl
  · exact isSame_iff.2 (.inl ⟨t, s, rfl, rfl, DateToken.isSame_symm same⟩)
  · exact isSame_iff.2 (.inr (.inl ⟨ts, ss, rfl, rfl,
      (same.imp fun _ _ => DateToken.isSame_symm).flip⟩))
  · exact a.isSame_refl

/-- Equality of values is transitive where that of their moments is. -/
theorem isSame_trans {a b c : PartValue} (keeps : ∀ m ∈ a.moments, m.zone.KeepsReadings)
    (hab : a.isSame b = true) (hbc : b.isSame c = true) : a.isSame c = true := by
  rcases isSame_iff.1 hab with ⟨s, t, rfl, rfl, same⟩ | ⟨ss, ts, rfl, rfl, same⟩ | rfl
  · -- All three values are of one kind
    rcases isSame_iff.1 hbc with ⟨t', u, ht, rfl, same'⟩ | ⟨_, _, ht, -, -⟩ | rfl
    · injection ht with ht
      subst ht
      exact DateToken.isSame_trans (keeps _ (by simp [moments])) same same'
    · cases ht
    · exact hab
  · rcases isSame_iff.1 hbc with ⟨_, _, ht, -, -⟩ | ⟨ts', us, ht, rfl, same'⟩ | rfl
    · cases ht
    · injection ht with ht
      subst ht
      exact isSame_iff.2 (.inr (.inl ⟨ss, us, rfl, rfl,
        DateToken.forall₂_trans (fun s hs => keeps _ (List.mem_map_of_mem hs)) same same'⟩))
    · exact hab
  · exact hbc

end PartValue

namespace Fields

/-- The moments of a rule's parts. -/
def moments (fields : Fields) : List Moment :=
  fields.ending.toList.map (·.moment) ++ fields.exdates.map (·.moment)

variable {a b c : Fields}

/-- The moments of a part are among those of the rule. -/
theorem moments_value?_subset {key : Key} {value : PartValue} (h : a.value? key = some value) :
    value.moments ⊆ a.moments := by
  intro m hm
  cases key
  case ending =>
    obtain ⟨token, given, rfl⟩ := Option.map_eq_some_iff.1 h
    rw [List.mem_singleton.1 hm]
    exact List.mem_append_left _ (by simp [given])
  case exdate =>
    obtain ⟨-, same⟩ := Option.ite_none_right_eq_some.1 h
    cases same
    exact List.mem_append_right _ hm
  -- The other parts have no moments
  all_goals
    cases value
    case token => simp [value?] at h
    case tokens => simp [value?] at h
    all_goals cases hm

/-- Values are compared where both are present. -/
theorem sameValue_iff {v w : Option PartValue} :
    sameValue v w = true ↔ Option.Rel (fun x y => x.isSame y = true) v w := by
  cases v <;> cases w <;> simp [sameValue]

/-- The parts of rules are equal key by key. -/
theorem sameParts_iff : a.sameParts b = true ↔
    ∀ key, Option.Rel (fun v w => v.isSame w = true) (a.value? key) (b.value? key) := by
  simp only [sameParts, List.all_eq_true, sameValue_iff, Key.mem_canonical, true_implies]

/-- The parts of a rule are equal to themselves. -/
theorem sameParts_refl (a : Fields) : a.sameParts a = true :=
  sameParts_iff.2 fun key => .refl PartValue.isSame_refl (a.value? key)

/-- Equality of parts goes both ways. -/
theorem sameParts_symm (h : a.sameParts b = true) : b.sameParts a = true :=
  sameParts_iff.2 fun key => (sameParts_iff.1 h key).flip fun _ _ => PartValue.isSame_symm

/-- Equality of parts is transitive where that of their moments is. -/
theorem sameParts_trans (keeps : ∀ m ∈ a.moments, m.zone.KeepsReadings)
    (hab : a.sameParts b = true) (hbc : b.sameParts c = true) : a.sameParts c = true := by
  refine sameParts_iff.2 fun key => ?_
  refine .comp (fun value given _ _ => ?_) (sameParts_iff.1 hab key) (sameParts_iff.1 hbc key)
  exact PartValue.isSame_trans fun m hm => keeps m (moments_value?_subset given hm)

/-! ### What equal rules have in common -/

/-- Parts without tokens are equal outright. -/
theorem value?_eq_of_sameParts (h : a.sameParts b = true) (key : Key) (ending : key ≠ .ending)
    (exdate : key ≠ .exdate) : a.value? key = b.value? key := by
  -- Tokens stand only in the values of the two keys left out
  have plain : ∀ value, a.value? key = some value →
      (∀ token, value ≠ .token token) ∧ ∀ tokens, value ≠ .tokens tokens := by
    intro value given
    constructor <;> rintro _ rfl <;> cases key <;> simp [value?] at given ending exdate
  have same := sameParts_iff.1 h key
  generalize a.value? key = v at same plain ⊢
  generalize b.value? key = w at same ⊢
  cases same with
  | none => rfl
  | some same =>
    obtain ⟨token, tokens⟩ := plain _ rfl
    rcases PartValue.isSame_iff.1 same with ⟨s, -, rfl, -⟩ | ⟨ss, -, rfl, -⟩ | rfl
    · exact absurd rfl (token s)
    · exact absurd rfl (tokens ss)
    · rfl

/-- The ends of equal rules are equal. -/
theorem ending_of_sameParts (h : a.sameParts b = true) :
    Option.Rel (fun s t => s.isSame t = true) a.ending b.ending := by
  have same := sameParts_iff.1 h .ending
  cases ha : a.ending <;> cases hb : b.ending <;> simp only [value?, ha, hb] at same
  case none.none => exact .none
  case some.some =>
    cases same with
    | some same => exact .some same
  all_goals cases same

/-- The exclusions of equal rules are equal one by one. -/
theorem exdates_of_sameParts (h : a.sameParts b = true) :
    List.Forall₂ (fun s t => s.isSame t = true) a.exdates b.exdates := by
  have same := sameParts_iff.1 h .exdate
  cases ha : a.exdates <;> cases hb : b.exdates <;> simp only [value?, has, ha, hb] at same
  case nil.nil => exact .nil
  case cons.cons =>
    cases same with
    | some same => exact DateToken.allSame_iff.1 same
  all_goals cases same

/-- Numbers with a bound are known from their values. -/
theorem numbers_injective {p : Nat → Prop} : Function.Injective
    fun l : List { n // p n } => PartValue.numbers (l.map (·.val)) := fun _ _ same =>
  List.map_injective_iff.2 Subtype.val_injective (PartValue.numbers.inj same)

/-- A positive number is known from its value. -/
theorem number_injective : Function.Injective fun n : Positive => PartValue.number n.val :=
  fun _ _ same => Subtype.ext (PartValue.number.inj same)

/-- A list that is present with members only is known from its value. -/
theorem list_eq_of_present {α : Type} {f : List α → PartValue} (inj : Function.Injective f)
    {l l' : List α} (h : (if (!l.isEmpty) = true then some (f l) else none) =
      if (!l'.isEmpty) = true then some (f l') else none) : l = l' := by
  cases l <;> cases l' <;> simp_all [inj.eq_iff]

/-- Equal rules differ at most in how their tokens are written and in the order of their keys. -/
theorem eq_of_sameParts (h : a.sameParts b = true) : b = { a with
    ending := b.ending, exdates := b.exdates, keyOrder := b.keyOrder } := by
  -- Every part without tokens is known from its value
  have freq : a.freq = b.freq := PartValue.frequency.inj (Option.some.inj
    (value?_eq_of_sameParts h .freq (by decide) (by decide)))
  have interval : a.interval = b.interval := Option.map_injective number_injective
    (value?_eq_of_sameParts h .interval (by decide) (by decide))
  have count : a.count = b.count := Option.map_injective number_injective
    (value?_eq_of_sameParts h .count (by decide) (by decide))
  have byMonth : a.byMonth = b.byMonth := Subtype.ext (list_eq_of_present numbers_injective
    (value?_eq_of_sameParts h .byMonth (by decide) (by decide)))
  have byMonthDay : a.byMonthDay = b.byMonthDay := list_eq_of_present numbers_injective
    (value?_eq_of_sameParts h .byMonthDay (by decide) (by decide))
  have byDay : a.byDay = b.byDay := list_eq_of_present (fun _ _ => PartValue.entries.inj)
    (value?_eq_of_sameParts h .byDay (by decide) (by decide))
  cases a
  cases b
  simp only at freq interval count byMonth byMonthDay byDay
  subst freq interval count byMonth byMonthDay byDay
  rfl

/-- Equal rules have one frequency. -/
theorem freq_eq_of_sameParts (h : a.sameParts b = true) : a.freq = b.freq := by
  rw [eq_of_sameParts h]

end Fields

/-! ## Schedules -/

namespace Schedule

variable {a b c : Schedule}

/-- The moments of a schedule: those of its rule's parts, and its anchor. -/
def moments (s : Schedule) : List Moment := s.fields.moments ++ s.anchor.toList

/-- Anchors are compared where both are present. -/
theorem sameAnchor_iff {v w : Option Moment} :
    sameAnchor v w = true ↔ Option.Rel (fun x y => x.isSame y = true) v w := by
  cases v <;> cases w <;> simp [sameAnchor]

/-- Schedules are equal by their parts, their anchors and their zones. -/
theorem isSame_iff : a.isSame b = true ↔ a.fields.sameParts b.fields = true ∧
    Option.Rel (fun x y => x.isSame y = true) a.anchor b.anchor ∧ a.zone.isSame b.zone = true := by
  simp only [isSame, Bool.and_eq_true, sameAnchor_iff, and_assoc]

/-- Equality of schedules is transitive where that of their moments is. -/
theorem isSame_trans (keeps : ∀ m ∈ a.moments, m.zone.KeepsReadings) (hab : a.isSame b = true)
    (hbc : b.isSame c = true) : a.isSame c = true := by
  obtain ⟨parts, anchor, zone⟩ := isSame_iff.1 hab
  obtain ⟨parts', anchor', zone'⟩ := isSame_iff.1 hbc
  refine isSame_iff.2 ⟨Fields.sameParts_trans (fun m hm => ?_) parts parts',
    anchor.comp (fun m given _ _ => ?_) anchor', Zone.isSame_trans zone zone'⟩
  · exact keeps m (List.mem_append_left _ hm)
  · exact Moment.isSame_trans (keeps m (List.mem_append_right _ (Option.mem_toList.2 given)))

/-- Equal schedules have one frequency, and their anchors have one instant in the first pass. Only
the names of their zones are left to differ. -/
theorem identity_eq_iff_of_isSame (h : a.isSame b = true) :
    a.identity = b.identity ↔ a.zone.name = b.zone.name := by
  obtain ⟨parts, anchor, -⟩ := isSame_iff.1 h
  have instants : a.anchor.map (fun m => ({ m with second := false } : Moment).instant) =
      b.anchor.map fun m => ({ m with second := false } : Moment).instant := by
    generalize a.anchor = v at anchor ⊢
    generalize b.anchor = w at anchor ⊢
    cases anchor with
    | none => rfl
    | some same => exact congrArg some (Moment.instant_first_pass_congr same)
  simp only [identity, Fields.freq_eq_of_sameParts parts, instants, Identity.mk.injEq, true_and]

/-- Equality of schedules is reflexive and symmetric, and it is transitive where the zones of their
moments keep readings. Equal schedules have one identity exactly if their zones have one name, which
they have unless one of them has been given a name of its own. -/
theorem isSame_equivalence (a b c : Schedule) :
    a.isSame a = true ∧ (a.isSame b = true → b.isSame a = true) ∧
      ((∀ m ∈ a.moments, m.zone.KeepsReadings) → a.isSame b = true → b.isSame c = true →
        a.isSame c = true) ∧
      (a.isSame b = true → (a.identity = b.identity ↔ a.zone.name = b.zone.name)) ∧
      (a.isSame b = true → a.zone.given? = b.zone.given? → a.identity = b.identity) := by
  refine ⟨?refl, fun h => ?symm, isSame_trans, identity_eq_iff_of_isSame, fun h given => ?meet⟩
  case refl =>
    exact isSame_iff.2
      ⟨a.fields.sameParts_refl, .refl Moment.isSame_refl a.anchor, a.zone.isSame_refl⟩
  case symm =>
    obtain ⟨parts, anchor, zone⟩ := isSame_iff.1 h
    exact isSame_iff.2 ⟨Fields.sameParts_symm parts,
      anchor.flip fun _ _ => Moment.isSame_symm, Zone.isSame_symm zone⟩
  case meet =>
    exact (identity_eq_iff_of_isSame h).2 (Zone.name_congr (isSame_iff.1 h).2.2 given)

/-! ### One night, three times -/

/-- Every night up to an end, without some of them. -/
def nightsUntil (ending : Option DateToken) (exdates : List DateToken) (keyOrder : List Key) :
    Fields where
  freq := .daily
  interval := none
  count := none
  ending := ending
  byMonth := .empty
  byMonthDay := []
  byDay := []
  exdates := exdates
  keyOrder := keyOrder
  dayFilters := Fields.noDayFilters

/-- The schedule of every day in a zone one hour east of UTC, which has been given a name or not. -/
def daysOneHourEast (given : Option String) : Schedule :=
  ⟨nightsUntil none [] [.freq], .fixed 3600000000 given, none, none⟩

/-- The days one hour east of UTC are the same under two names, but they are looked up apart. -/
theorem daysOneHourEast_apart :
    make (.text "FREQ=DAILY") none (.given (.fixed 3600000000 (some "CET"))) none =
        .ok (daysOneHourEast (some "CET")) ∧
      make (.text "FREQ=DAILY") none (.given (.fixed 3600000000 none)) none =
        .ok (daysOneHourEast none) ∧
      (daysOneHourEast (some "CET")).isSame (daysOneHourEast none) = true ∧
      (daysOneHourEast (some "CET")).identity ≠ (daysOneHourEast none).identity := by
  decide +kernel

/-- A lookahead of a hundred years is one. -/
theorem hundred_pos : 0 < 100 := by decide

/-- The schedule of a rule from an anchor on, with what the tokens of the rule say in its zone. -/
def startingAt (fields : Fields) (anchor : Moment) (endingDate : Option Date) (dates : List Date)
    (instants : List Int) : Schedule :=
  ⟨fields, anchor.zone, some anchor, some ⟨fields, anchor.zone, anchor.reading, anchor.second,
    ⟨100, hundred_pos⟩, endingDate, dates, instants⟩⟩

/-- Half past one is a time of day. -/
theorem halfPastOne_lt : 5400000000 < ticksPerDay := by decide

/-- Half past one in New York on a day of November 2012. On the fourth the clocks go back. -/
def novemberNight (date : Date) (second : Bool) : Moment :=
  ⟨⟨date, ⟨5400000000, halfPastOne_lt⟩⟩, .region .newYork, second⟩

/-- The third of November 2012 is a date. -/
theorem valid_thirdOfNovember : (1 ≤ 2012 ∧ 2012 ≤ 9999) ∧ (1 ≤ 11 ∧ 11 ≤ 12) ∧
    (1 ≤ 3 ∧ 3 ≤ monthLength (isLeapYear 2012) 11) := by decide

def thirdOfNovember : Date := ⟨2012, 11, 3, valid_thirdOfNovember⟩

/-- The fourth of November 2012 is a date. -/
theorem valid_fourthOfNovember : (1 ≤ 2012 ∧ 2012 ≤ 9999) ∧ (1 ≤ 11 ∧ 11 ≤ 12) ∧
    (1 ≤ 4 ∧ 4 ≤ monthLength (isLeapYear 2012) 11) := by decide

def fourthOfNovember : Date := ⟨2012, 11, 4, valid_fourthOfNovember⟩

/-- Election day. -/
def sixthOfNovember : Date := ⟨2012, 11, 6, by decide⟩

/-- Half past one in New York on election day, as it is told in UTC. -/
def electionNightUtc : Moment := ⟨⟨sixthOfNovember, ⟨23400000000, by decide⟩⟩, .zero, false⟩

/-- The nights of New York but one, from one of the two passes over half past one on. -/
def nightsBut (m : Moment) (second : Bool) : Schedule :=
  startingAt (nightsUntil none [⟨m, false, false⟩] []) (novemberNight fourthOfNovember second) none
    [] [m.instant]

/-- By way of UTC the night is the same again in New York, also in the other pass. -/
theorem electionNights_equal :
    (nightsBut (novemberNight sixthOfNovember false) false).isSame
        (nightsBut electionNightUtc true) = true ∧
      (nightsBut electionNightUtc true).isSame
        (nightsBut (novemberNight sixthOfNovember true) false) = true ∧
      (nightsBut (novemberNight sixthOfNovember false) false).isSame
        (nightsBut (novemberNight sixthOfNovember true) false) = true ∧
      (nightsBut electionNightUtc true).isSame
        (nightsBut (novemberNight sixthOfNovember false) false) = true ∧
      (nightsBut (novemberNight sixthOfNovember false) false).identity =
        (nightsBut electionNightUtc true).identity := by
  have there : (nightsBut (novemberNight sixthOfNovember false) false).isSame
      (nightsBut electionNightUtc true) = true := by decide +kernel
  have back : (nightsBut electionNightUtc true).isSame
      (nightsBut (novemberNight sixthOfNovember true) false) = true := by decide +kernel
  have keeps : ∀ m ∈ (nightsBut (novemberNight sixthOfNovember false) false).moments,
      m.zone.KeepsReadings := by
    have orderly : (Zone.region .newYork).IsOrderly :=
      Region.isOrderly_all .newYork (by simp [Region.all])
    intro m hm
    -- All its moments are told on the clocks of New York
    have zone : m.zone = .region .newYork := by
      revert m
      decide +kernel
    exact zone ▸ orderly.keepsReadings
  obtain ⟨-, symm, trans, -, identity⟩ := isSame_equivalence
    (nightsBut (novemberNight sixthOfNovember false) false) (nightsBut electionNightUtc true)
    (nightsBut (novemberNight sixthOfNovember true) false)
  exact ⟨there, back, trans keeps there back, symm there, identity there rfl⟩

end Schedule

end Recurrence
