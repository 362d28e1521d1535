import Recurrence.Moment.Spoken
import Recurrence.Proofs.Equality
import Recurrence.Proofs.Parallel
import Recurrence.Proofs.WrittenBack

/-!
# The order of segments

The segments of a rule text may stand in any order. What is read from them differs only in the order
of the keys, and that order shows nowhere but in the text that is written.

* `RuleText.Gathers.perm`: keys and values add the same parts in any order.
* `Fields.read_of_perm`: a text with its segments in another order.
* `Series.occurrencesAfter_withKeyOrder`: answers do not depend on the order of the keys.
* `Schedule.Interchangeable`: what schedules have in common that differ only in that order.
* `Schedule.make_of_perm`: the schedules of both texts.
-/

namespace Recurrence

/-! ## Rules -/

namespace RuleText

variable {zone : Zone} {draft : Draft} {entries entries' : List (Key × List Char)}

/-- The order of keys is no part. -/
@[simp] theorem Draft.part_withKeyOrder (draft : Draft) (keys : List Key) (key : Key) :
    ({ draft with keyOrder := keys } : Draft).part key = draft.part key := by
  cases key <;> rfl

/-- In any order, keys and values add the same parts. -/
theorem Gathers.perm (h : Gathers zone {} entries draft) (order : entries'.Perm entries) :
    Gathers zone {} entries' { draft with keyOrder := entries'.map Prod.fst } := by
  have keys : (entries'.map Prod.fst).Perm (entries.map Prod.fst) := order.map Prod.fst
  -- What is asked of each entry does not depend on its place
  constructor
  · intro entry hentry
    exact h.given entry (order.mem_iff.1 hentry)
  · rfl
  · exact keys.nodup_iff.2 h.distinct
  · intro entry _
    exact List.not_mem_nil
  · intro entry hentry
    rw [Draft.part_withKeyOrder]
    exact h.read entry (order.mem_iff.1 hentry)
  · intro key missing
    rw [Draft.part_withKeyOrder]
    exact h.others key (mt keys.mem_iff.2 missing)

/-- Whether a text consists of segments with some keys, in this order. -/
def HasKeys (text : String) (keys : List Key) : Prop :=
  ∃ entries : List (Key × List Char), Text.split ';' text.toList = entries.map segment ∧
    keys = entries.map Prod.fst

/-- The text with a segment for each of some keys. -/
def compose (value : Key → List Char) (keys : List Key) : String :=
  String.ofList (Text.join ';' (keys.map fun key => segment (key, value key)))

end RuleText

namespace Fields

variable {zone : Zone} {f : Fields} {keys : List Key} {a b text : String}

/-- The parts of a rule with its keys in another order. -/
def withKeyOrder (f : Fields) (keys : List Key) : Fields := { f with keyOrder := keys }

/-- The order of keys is no part of a rule. -/
@[simp] theorem part_withKeyOrder (key : Key) :
    (f.withKeyOrder keys).draft.part key = f.draft.part key := by
  cases key <;> rfl

/-- No value depends on it. -/
@[simp] theorem value?_withKeyOrder (key : Key) :
    (f.withKeyOrder keys).value? key = f.value? key := by
  cases key <;> rfl

/-- With its segments in another order, a text is read as the same parts in that order. -/
theorem read_of_perm (perm : (Text.split ';' b.toList).Perm (Text.split ';' a.toList))
    (h : Fields.read zone a = .ok f) :
    ∃ keys, keys.Perm f.keyOrder ∧ Fields.read zone b = .ok (f.withKeyOrder keys) := by
  obtain ⟨entries, pieces, gathers⟩ := read_eq_ok.1 h
  rw [pieces] at perm
  obtain ⟨entries', pieces', order⟩ := List.exists_perm_of_perm_map perm
  have keys : f.keyOrder = entries.map Prod.fst := gathers.keys
  refine ⟨entries'.map Prod.fst, ?_, read_eq_ok.2 ⟨entries', pieces', gathers.perm order⟩⟩
  rw [keys]
  exact order.map Prod.fst

/-- The keys of a rule that has been read are those of its text. -/
theorem hasKeys_of_read (h : Fields.read zone text = .ok f) : RuleText.HasKeys text f.keyOrder := by
  obtain ⟨entries, pieces, gathers⟩ := read_eq_ok.1 h
  exact ⟨entries, pieces, gathers.keys⟩

/-- The values that are written for a rule that has been read stand in the order of its keys. -/
theorem write_eq_compose (h : Fields.read zone text = .ok f) : f.write zone =
    .ok (RuleText.compose (fun key => RuleText.spellPart key (f.draft.part key)) f.keyOrder) := by
  obtain ⟨entries, -, gathers⟩ := read_eq_ok.1 h
  rw [write_of_read h, RuleText.spell, gathers.orderedKeys_eq]
  rfl

/-- The snapshot of a rule that has been read has its values in the order of its keys. -/
theorem snapshot_eq (h : Fields.read zone text = .ok f) : f.snapshot =
    f.keyOrder.filterMap fun key => (f.value? key).map fun value => (key, value) := by
  obtain ⟨entries, -, gathers⟩ := read_eq_ok.1 h
  have keys : f.keyOrder = entries.map Prod.fst := gathers.keys
  have distinct : f.keyOrder.Nodup := by
    rw [keys]
    exact gathers.distinct
  rw [snapshot, gathers.orderedKeys_eq, List.eraseDups_of_nodup distinct]

/-- Snapshots of rules that differ in the order of their keys hold the same values. -/
theorem snapshot_perm (ha : Fields.read zone a = .ok f)
    (hb : Fields.read zone b = .ok (f.withKeyOrder keys)) (order : keys.Perm f.keyOrder) :
    (f.withKeyOrder keys).snapshot.Perm f.snapshot := by
  rw [snapshot_eq ha, snapshot_eq hb]
  simp only [value?_withKeyOrder]
  exact order.filterMap _

/-- Rules that differ in the order of their keys have the same parts. -/
theorem sameParts_withKeyOrder (f : Fields) (keys : List Key) :
    f.sameParts (f.withKeyOrder keys) = true := by
  apply sameParts_iff.2
  intro key
  rw [value?_withKeyOrder]
  exact .refl PartValue.isSame_refl (f.value? key)

end Fields

/-! ## Series -/

namespace Series

variable {s : Series}

/-- The series of a rule with its keys in another order. -/
def withKeyOrder (s : Series) (keys : List Key) : Series :=
  { s with fields := s.fields.withKeyOrder keys }

/-- The order of the keys has no part in a search. -/
theorem parallel_withKeyOrder (s : Series) (keys : List Key) :
    s.Parallel (s.withKeyOrder keys) where
  reading := rfl
  lookahead := rfl
  fields := rfl
  endingDate := rfl
  ends _ _ := rfl
  leavesOut _ _ := rfl

/-- The occurrences do not depend on the order of keys. -/
theorem occurrencesAfter_withKeyOrder (s : Series) (keys : List Key) (after : Option Stamp)
    (limit : Int) :
    (s.withKeyOrder keys).occurrencesAfter after limit = s.occurrencesAfter after limit := by
  have alike := (occurrencesAfter_parallel (s.parallel_withKeyOrder keys) rfl after limit).mono
    fun found found' abreast => by
      -- Candidates of both series on one date are the same
      have same : List.Forall₂ Eq found found' := abreast.imp fun m m' h => by
        obtain ⟨d, -, rfl, rfl⟩ := h
        rfl
      exact List.forall₂_eq_eq_eq.le _ _ same
  exact alike.eq.symm

/-- The next occurrence does not depend on it either. -/
theorem nextAfter_withKeyOrder (s : Series) (keys : List Key) (after : Option Stamp) :
    (s.withKeyOrder keys).nextAfter after = s.nextAfter after := by
  unfold nextAfter
  rw [occurrencesAfter_withKeyOrder]

end Series

/-! ## Schedules -/

namespace Schedule

variable {s : Schedule} {keys : List Key}

/-- The schedule of a rule with its keys in another order. -/
def withKeyOrder (s : Schedule) (keys : List Key) : Schedule :=
  ⟨s.fields.withKeyOrder keys, s.zone, s.anchor, s.series.map (·.withKeyOrder keys)⟩

/-- A schedule with reordered keys has the series with reordered keys. -/
theorem requireSeries_withKeyOrder (s : Schedule) (keys : List Key) :
    (s.withKeyOrder keys).requireSeries = (·.withKeyOrder keys) <$> s.requireSeries := by
  unfold requireSeries withKeyOrder
  cases s.series <;> rfl

/-- What schedules have in common that differ only in the order of their keys: they are equal, their
parts have the same values, and they answer every question alike. -/
structure Interchangeable [SpokenReader] (a b : Schedule) : Prop where
  same : a.isSame b = true
  identity : a.identity = b.identity
  snapshot : b.fields.snapshot.Perm a.fields.snapshot
  value : ∀ key, b.fields.value? key = a.fields.value? key
  first : b.first = a.first
  next : ∀ after, b.next after = a.next after
  nextOccurrences : ∀ after limit, b.nextOccurrences after limit = a.nextOccurrences after limit

/-- A schedule with reordered keys is interchangeable with the original one. -/
theorem interchangeable_withKeyOrder [SpokenReader]
    (snapshot : (s.fields.withKeyOrder keys).snapshot.Perm s.fields.snapshot) :
    s.Interchangeable (s.withKeyOrder keys) where
  same := isSame_iff.2 ⟨s.fields.sameParts_withKeyOrder keys, .refl Moment.isSame_refl s.anchor,
    s.zone.isSame_refl⟩
  identity := rfl
  snapshot := snapshot
  value := Fields.value?_withKeyOrder
  -- Every question is put to the series, and that does not look at the order of keys
  first := by
    unfold Schedule.first
    rw [requireSeries_withKeyOrder, bind_map_left]
    simp only [Series.nextAfter_withKeyOrder]
  next after := by
    unfold Schedule.next
    rw [requireSeries_withKeyOrder, bind_map_left]
    simp only [Series.nextAfter_withKeyOrder]
    rfl
  nextOccurrences after limit := by
    unfold Schedule.nextOccurrences
    rw [requireSeries_withKeyOrder, bind_map_left]
    simp only [Series.occurrencesAfter_withKeyOrder]
    rfl

/-- Sources that differ in the order of the keys make schedules that do, or fail alike. -/
theorem make_withKeyOrder [ZoneDatabase] [SpokenReader] {source source' : Source}
    {choice : ZoneChoice} {zone : Zone} {f : Fields} (hz : choice.resolve = .ok zone)
    (h : source.fieldsIn zone = .ok f)
    (h' : source'.fieldsIn zone = .ok (f.withKeyOrder keys)) (given : Option When)
    (lookahead : Option Int) :
    make source' given choice lookahead =
      (·.withKeyOrder keys) <$> make source given choice lookahead := by
  unfold make
  rw [hz]
  simp only [bind, Except.bind, h, h']
  cases given with
  | none => rfl
  | some given =>
    simp only
    cases given.resolve zone with
    | error failure => rfl
    | ok anchor =>
      have series : Series.make (f.withKeyOrder keys) anchor.stamp zone (lookaheadOr lookahead) =
          (fun s => { s with fields := f.withKeyOrder keys }) <$>
            Series.make f anchor.stamp zone (lookaheadOr lookahead) :=
        Series.make_congr (by rfl) (by rfl) anchor.stamp zone (lookaheadOr lookahead)
      simp only [series]
      -- Both series are made, or refused, alike
      cases made : Series.make f anchor.stamp zone (lookaheadOr lookahead) with
      | error failure => rfl
      | ok s =>
        rw [← (Series.make_eq_ok made).1]
        rfl

/-- What a schedule takes from its source and its zone. -/
theorem fields_of_make [ZoneDatabase] [SpokenReader] {source : Source} {choice : ZoneChoice}
    {zone : Zone} {f : Fields} (hz : choice.resolve = .ok zone) (h : source.fieldsIn zone = .ok f)
    {given : Option When} {lookahead : Option Int}
    (made : make source given choice lookahead = .ok s) : s.fields = f ∧ s.zone = zone := by
  unfold make at made
  rw [hz] at made
  simp only [bind, Except.bind, h] at made
  -- Neither an anchor nor its series changes the rule or the zone
  cases given with
  | none =>
    injection made with made
    rw [← made]
    exact ⟨rfl, rfl⟩
  | some given =>
    obtain ⟨anchor, -, made⟩ := Except.bind_eq_ok.1 made
    obtain ⟨series, -, made⟩ := Except.bind_eq_ok.1 made
    injection made with made
    rw [← made]
    exact ⟨rfl, rfl⟩

/-- Of two texts that have the same segments in different orders, both are read or neither. Their
rules differ in the order of the keys alone, and are written with the same segments, each in its own
order. Their schedules are equal and answer every question alike. -/
theorem make_of_perm [ZoneDatabase] [SpokenReader] {a b : String}
    (perm : (Text.split ';' b.toList).Perm (Text.split ';' a.toList)) (zone : Zone) :
    ((∃ f, Fields.read zone a = .ok f) ↔ ∃ g, Fields.read zone b = .ok g) ∧
      ∀ f g, Fields.read zone a = .ok f → Fields.read zone b = .ok g →
        g = f.withKeyOrder g.keyOrder ∧ g.keyOrder.Perm f.keyOrder ∧
          RuleText.HasKeys a f.keyOrder ∧ RuleText.HasKeys b g.keyOrder ∧
          (∃ value, f.write zone = .ok (RuleText.compose value f.keyOrder) ∧
            g.write zone = .ok (RuleText.compose value g.keyOrder)) ∧
          ∀ (given : Option When) (choice : ZoneChoice) (lookahead : Option Int),
            choice.resolve = .ok zone →
              Except.Rel (fun s s' => s.toText = f.write zone ∧ s'.toText = g.write zone ∧
                  s.Interchangeable s')
                (make (.text a) given choice lookahead)
                (make (.text b) given choice lookahead) := by
  constructor
  · constructor
    · rintro ⟨f, hf⟩
      obtain ⟨keys, -, hg⟩ := Fields.read_of_perm perm hf
      exact ⟨_, hg⟩
    · rintro ⟨g, hg⟩
      obtain ⟨keys, -, hf⟩ := Fields.read_of_perm perm.symm hg
      exact ⟨_, hf⟩
  · intro f g hf hg
    -- The second rule is the first one with its keys in another order
    obtain ⟨keys, order, hb⟩ := Fields.read_of_perm perm hf
    obtain rfl : g = f.withKeyOrder keys := Except.ok.inj (hg.symm.trans hb)
    refine ⟨rfl, order, Fields.hasKeys_of_read hf, Fields.hasKeys_of_read hb, ?_, ?_⟩
    · refine ⟨fun key => RuleText.spellPart key (f.draft.part key), Fields.write_eq_compose hf, ?_⟩
      rw [Fields.write_eq_compose hb]
      simp only [Fields.part_withKeyOrder]
    · intro given choice lookahead hz
      have read : (Source.text a).fieldsIn zone = .ok f := hf
      have read' : (Source.text b).fieldsIn zone = .ok (f.withKeyOrder keys) := hb
      rw [make_withKeyOrder hz read read' given lookahead]
      apply Except.Rel.self_map
      intro s hs
      obtain ⟨rfl, rfl⟩ := fields_of_make hz read hs
      exact ⟨rfl, rfl, interchangeable_withKeyOrder (Fields.snapshot_perm hf hb order)⟩

/-- Twice, two weeks apart, with the keys in some order. -/
def twoWeeks (keys : List Key) : Fields where
  freq := .weekly
  interval := some ⟨2, Nat.two_pos⟩
  count := some ⟨2, Nat.two_pos⟩
  ending := none
  byMonth := .empty
  byMonthDay := []
  byDay := []
  exdates := []
  keyOrder := keys
  dayFilters := Fields.noDayFilters

/-- The third of May 2022 is a date. -/
theorem valid_thirdOfMay : (1 ≤ 2022 ∧ 2022 ≤ 9999) ∧ (1 ≤ 5 ∧ 5 ≤ 12) ∧
    (1 ≤ 3 ∧ 3 ≤ monthLength (isLeapYear 2022) 5) := by decide

/-- Midnight of the third of May 2022 in UTC. -/
def thirdOfMay : Moment := ⟨⟨⟨2022, 5, 3, valid_thirdOfMay⟩, .midnight⟩, .region .utc, false⟩

/-- The schedule of these weeks from the third of May on. -/
def fromThirdOfMay (keys : List Key) : Schedule := startingAt (twoWeeks keys) thirdOfMay none [] []

/-- The text of a rule, and its segments in another order. -/
theorem twoWeeks_of_perm :
    Fields.read (.region .utc) "FREQ=WEEKLY;INTERVAL=2;COUNT=2" =
        .ok (twoWeeks [.freq, .interval, .count]) ∧
      Fields.read (.region .utc) "COUNT=2;FREQ=WEEKLY;INTERVAL=2" =
        .ok (twoWeeks [.count, .freq, .interval]) ∧
      (∃ value, (twoWeeks [.freq, .interval, .count]).write (.region .utc) =
          .ok (RuleText.compose value [.freq, .interval, .count]) ∧
        (twoWeeks [.count, .freq, .interval]).write (.region .utc) =
          .ok (RuleText.compose value [.count, .freq, .interval])) ∧
      make (.text "FREQ=WEEKLY;INTERVAL=2;COUNT=2") (some (.stamp thirdOfMay.stamp))
        (.given (.region .utc))
          none = .ok (fromThirdOfMay [.freq, .interval, .count]) ∧
      make (.text "COUNT=2;FREQ=WEEKLY;INTERVAL=2") (some (.stamp thirdOfMay.stamp))
        (.given (.region .utc))
          none = .ok (fromThirdOfMay [.count, .freq, .interval]) ∧
      (fromThirdOfMay [.freq, .interval, .count]).Interchangeable
        (fromThirdOfMay [.count, .freq, .interval]) := by
  have read : Fields.read (.region .utc) "FREQ=WEEKLY;INTERVAL=2;COUNT=2" =
      .ok (twoWeeks [.freq, .interval, .count]) := by
    decide +kernel
  have read' : Fields.read (.region .utc) "COUNT=2;FREQ=WEEKLY;INTERVAL=2" =
      .ok (twoWeeks [.count, .freq, .interval]) := by
    decide +kernel
  have made : make (.text "FREQ=WEEKLY;INTERVAL=2;COUNT=2") (some (.stamp thirdOfMay.stamp))
      (.given (.region .utc)) none = .ok (fromThirdOfMay [.freq, .interval, .count]) := by
    decide +kernel
  have made' : make (.text "COUNT=2;FREQ=WEEKLY;INTERVAL=2") (some (.stamp thirdOfMay.stamp))
      (.given (.region .utc)) none = .ok (fromThirdOfMay [.count, .freq, .interval]) := by
    decide +kernel
  have perm : (Text.split ';' "COUNT=2;FREQ=WEEKLY;INTERVAL=2".toList).Perm
      (Text.split ';' "FREQ=WEEKLY;INTERVAL=2;COUNT=2".toList) := by
    decide
  obtain ⟨-, -, -, -, written, schedules⟩ :=
    (make_of_perm perm (.region .utc)).2 _ _ read read'
  -- Both schedules are made, so they are compared as such
  have related := schedules (some (.stamp thirdOfMay.stamp)) (.given (.region .utc)) none rfl
  rw [made, made'] at related
  cases related with
  | ok both => exact ⟨read, read', written, made, made', both.2.2⟩

end Schedule

end Recurrence
