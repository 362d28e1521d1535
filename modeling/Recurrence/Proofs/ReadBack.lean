import Recurrence.Proofs.Bindings
import Recurrence.Proofs.Regions
import Recurrence.Proofs.WrittenBack

/-!
# Rule parts, written and read back

The text of a rule's parts is read as the same parts again: its keys in the order in which they were
written, its tokens with the same instants and marks. Only the spelling of a token can lose
anything, so tokens have to show readings that a token can spell.

* `DateToken.IsSpellable`: the tokens whose spellings tell their instants.
* `DateToken.Means`: tokens that mean the same.
* `Fields.write_reads_back`: written parts are read back.
-/

namespace Recurrence

/-! ## Tokens -/

namespace DateToken

variable {zone : Zone} {token shown : DateToken}

/-- Whether a token can be spelled in a zone so that the spelling tells its instant: the reading
that is written has a year of four digits and nothing below the seconds, a date alone is midnight of
the zone, and a reading of the zone does not need its second pass. -/
def IsSpellable (zone : Zone) (token : DateToken) : Prop :=
  ∃ shown, token.render zone = .ok shown ∧ 1000 ≤ shown.moment.date.year ∧
    shown.moment.reading.time.micro = 0 ∧
      (token.utc = true ∧ token.dateOnly = false ∨
        token.utc = false ∧
          (shown.moment.second = true → shown.moment.isUncertain = false) ∧
            (token.dateOnly = true → shown.moment.reading.time = .midnight))

/-- Tokens with the same instant, shape and mark. -/
structure Means (a b : DateToken) : Prop where
  instant : a.moment.instant = b.moment.instant
  dateOnly : a.dateOnly = b.dateOnly
  utc : a.utc = b.utc

/-- A token is shown with its own marks, on the clocks of UTC if it is marked so and not a date
alone, and on those of the zone otherwise. -/
theorem render_eq_ok (h : token.render zone = .ok shown) :
    shown.dateOnly = token.dateOnly ∧ shown.utc = token.utc ∧
      (if !token.dateOnly && token.utc then token.moment.inUtc else token.moment.inZone zone) =
        .ok shown.moment := by
  obtain ⟨m, hm, rfl⟩ := Except.map_eq_ok.1 h
  exact ⟨rfl, rfl, hm⟩

/-- What is written for a token that can be spelled is read as a token that means the same. -/
theorem IsSpellable.rendered (orderly : zone.IsOrderly) (h : token.IsSpellable zone)
    (hshown : token.render zone = .ok shown) :
    shown.IsReadable ∧ (shown.reread zone).Means token := by
  obtain ⟨shown', hshown', year, micro, shape⟩ := h
  have same : shown' = shown := Except.ok.inj (hshown'.symm.trans hshown)
  subst same
  obtain ⟨dateOnly, utc, hm⟩ := render_eq_ok hshown
  rcases shape with ⟨hutc, hdate⟩ | ⟨hutc, first_pass, midnight⟩
  · -- A reading of UTC has one pass only
    rw [hutc, hdate] at hm
    have own : shown'.moment.zone = .zero := Moment.zone_inZone hm
    refine ⟨⟨year, micro, fun date => ?_⟩, ⟨?_, dateOnly, utc⟩⟩
    · rw [dateOnly, hdate] at date
      injection date
    · rw [← Moment.instant_inUtc hm]
      unfold reread Moment.instant Moment.offset
      rw [utc, hutc, own]
      rfl
  · -- On the clocks of the zone the token is spelled in the first pass, so it is read in that
    rw [hutc, Bool.and_false] at hm
    have own : shown'.moment.zone = zone := Moment.zone_inZone hm
    refine ⟨⟨year, micro, fun date => ?_⟩, ⟨?_, dateOnly, utc⟩⟩
    · rw [dateOnly] at date
      exact ⟨utc.trans hutc, midnight date⟩
    · rw [← Moment.instant_inZone orderly hm, ← Moment.instant_first_pass first_pass, own]
      unfold reread
      rw [utc, hutc]
      rfl

/-- Tokens that can be spelled are all rendered. -/
theorem exists_rendered (orderly : zone.IsOrderly) {l : List DateToken}
    (h : ∀ token ∈ l, token.IsSpellable zone) :
    ∃ shown, l.mapM (render zone) = .ok shown ∧ (∀ token ∈ shown, token.IsReadable) ∧
      List.Forall₂ Means (shown.map (reread zone)) l := by
  induction l with
  | nil => exact ⟨[], rfl, by simp, .nil⟩
  | cons token l ih =>
    obtain ⟨first, rest⟩ := List.forall_mem_cons.1 h
    obtain ⟨later, hlater, readable, means⟩ := ih rest
    obtain ⟨shown, hshown, -⟩ := id first
    obtain ⟨readable', means'⟩ := first.rendered orderly hshown
    refine ⟨shown :: later, ?_, List.forall_mem_cons.2 ⟨readable', readable⟩, .cons means' means⟩
    exact Except.mapM_eq_ok.2 (.cons hshown (Except.mapM_eq_ok.1 hlater))

end DateToken

/-! ## Parts -/

namespace RuleText

variable {zone : Zone} {f : Fields} {key : Key} {v : key.Value}

/-- The spelling of a part that is present is not empty. -/
theorem spellPart_ne_nil (present : v ≠ ({} : Draft).part key) : spellPart key v ≠ [] := by
  have join_ne_nil {α : Type} {spell : α → List Char} {vs : List α} (given : vs ≠ [])
      (ne : ∀ v, spell v ≠ []) : Text.join ',' (vs.map spell) ≠ [] := by
    obtain ⟨first, rest, rfl⟩ := List.exists_cons_of_ne_nil given
    obtain ⟨c, hc⟩ := List.exists_mem_of_ne_nil _ (ne first)
    exact List.ne_nil_of_mem (Text.mem_join_of_mem (List.mem_map_of_mem List.mem_cons_self) hc)
  -- What is present is a name, a number or a list with an item
  cases key with
  | freq =>
    cases v with
    | none => exact absurd rfl present
    | some freq => cases freq <;> exact List.cons_ne_nil _ _
  | interval | count =>
    cases v with
    | none => exact absurd rfl present
    | some n => exact Decimal.write_ne_nil n.val
  | ending =>
    cases v with
    | none => exact absurd rfl present
    | some token => exact token.spelling_ne_nil
  | byMonth =>
    refine join_ne_nil (fun empty => present (Subtype.ext empty)) ?_
    exact fun n => Decimal.write_ne_nil n.val
  | byMonthDay => exact join_ne_nil present fun n : MonthDay => Decimal.write_ne_nil n.val
  | byDay => exact join_ne_nil present DayEntry.write_ne_nil
  | exdate => exact join_ne_nil present DateToken.spelling_ne_nil

end RuleText

/-! ## Keys -/

namespace Fields

open RuleText (Draft tokens numerals renderPart rereadPart spellPart segment Gathers)

variable {zone : Zone} {f : Fields} {key : Key}

/-- The keys that are written are those of the parts that are present. -/
theorem mem_orderedKeys : key ∈ f.orderedKeys ↔ f.has key = true := by
  have canonical := key.mem_canonical
  unfold orderedKeys
  simp only [List.mem_append, List.mem_filter, Bool.and_eq_true, Bool.not_eq_true',
    List.contains_eq_mem, decide_eq_false_iff_not]
  constructor
  · rintro (⟨-, present⟩ | ⟨-, -, present⟩) <;> exact present
  · intro present
    by_cases given : key ∈ f.keyOrder
    · exact .inl ⟨given, present⟩
    · exact .inr ⟨canonical, fun h => given h.1, present⟩

/-- The frequency is always written. -/
theorem orderedKeys_ne_nil (f : Fields) : f.orderedKeys ≠ [] :=
  List.ne_nil_of_mem (mem_orderedKeys.2 (show f.has .freq = true from rfl))

/-- No key is written twice unless it was given twice. -/
theorem nodup_orderedKeys (h : f.keyOrder.Nodup) : f.orderedKeys.Nodup := by
  unfold orderedKeys
  refine List.Nodup.append (h.filter _) ?_ ?_
  · exact List.Nodup.filter _ (by decide)
  · intro key given other
    have missing := (List.mem_filter.1 other).2
    simp only [Bool.and_eq_true, Bool.not_eq_true', List.contains_eq_mem,
      decide_eq_false_iff_not] at missing
    exact missing.1 given

/-! ## Written, then read -/

/-- The parts with other tokens, and their keys in the order in which they are written. -/
def withTokens (f : Fields) (ending : Option DateToken) (exdates : List DateToken) : Fields :=
  { f with ending := ending, exdates := exdates, keyOrder := f.orderedKeys }

/-- The numbers of a rule that have no bound. -/
def numerals (f : Fields) : List Nat :=
  (f.interval.toList ++ f.count.toList).map (·.val) ++ f.byDay.map (·.ordinal.natAbs)

/-- Parts that mean the same, in whatever order their keys were given. -/
structure Means (a b : Fields) : Prop where
  freq : a.freq = b.freq
  interval : a.interval = b.interval
  count : a.count = b.count
  ending : List.Forall₂ DateToken.Means a.ending.toList b.ending.toList
  byMonth : a.byMonth = b.byMonth
  byMonthDay : a.byMonthDay = b.byMonthDay
  byDay : a.byDay = b.byDay
  exdates : List.Forall₂ DateToken.Means a.exdates b.exdates

/-- The numbers of a part are numbers of the rule. -/
theorem mem_numerals {n : Nat} (h : n ∈ RuleText.numerals key (f.draft.part key)) :
    n ∈ f.numerals := by
  unfold numerals
  simp only [List.map_append, List.mem_append]
  cases key with
  | interval => exact .inl (.inl h)
  | count => exact .inl (.inr h)
  | byDay => exact .inr h
  | freq | ending | byMonth | byMonthDay | exdate => exact absurd h List.not_mem_nil

/-- Parts whose tokens have been rendered are written by their own readings, if no number is too
long. -/
theorem writeChars_eq_ok {shown : Fields}
    (short : ∀ n ∈ f.numerals, (Decimal.write n).length ≤ Text.numeralLimit)
    (h : ∀ key, renderPart zone key (f.draft.part key) = .ok (shown.draft.part key)) :
    f.writeChars zone = .ok (Text.join ';'
      (f.orderedKeys.map fun key => segment (key, spellPart key (shown.draft.part key)))) := by
  refine Except.map_eq_ok.2 ⟨_, ?_, rfl⟩
  rw [Except.mapM_eq_ok, List.forall₂_map_right_iff, List.forall₂_same]
  intro key _
  rw [RuleText.writeSegment_eq zone fun n hn => short n (mem_numerals hn), h key]
  rfl

section Reread

variable {ending : Option DateToken} {exdates : List DateToken}

/-- The same keys are present whatever the tokens are. -/
theorem has_withTokens (hending : ending.isSome = f.ending.isSome)
    (hexdates : exdates.isEmpty = f.exdates.isEmpty) (key : Key) :
    (f.withTokens ending exdates).has key = f.has key := by
  cases key with
  | ending => exact hending
  | exdate => exact congrArg (!·) hexdates
  | freq | interval | count | byMonth | byMonthDay | byDay => rfl

/-- Spelled parts are gathered one by one, their tokens as the spellings are read. -/
theorem gathers_reread (distinct : f.keyOrder.Nodup)
    (short : ∀ n ∈ f.numerals, (Decimal.write n).length ≤ Text.numeralLimit)
    (hending : ending.isSome = f.ending.isSome) (hexdates : exdates.isEmpty = f.exdates.isEmpty)
    (readable : ∀ token ∈ ending.toList ++ exdates, token.IsReadable) :
    Gathers zone {}
      (f.orderedKeys.map fun key =>
        (key, spellPart key ((f.withTokens ending exdates).draft.part key)))
      (f.withTokens (ending.map (DateToken.reread zone))
        (exdates.map (DateToken.reread zone))).draft := by
  have keys : (f.orderedKeys.map fun key =>
      (key, spellPart key ((f.withTokens ending exdates).draft.part key))).map Prod.fst =
        f.orderedKeys := by
    simp [Function.comp_def]
  have present : ∀ key ∈ f.orderedKeys,
      (f.withTokens ending exdates).draft.part key ≠ ({} : Draft).part key := by
    intro key hkey absent
    have missing := RuleText.has_eq_false_iff.2 absent
    rw [has_withTokens hending hexdates, mem_orderedKeys.1 hkey] at missing
    injection missing
  constructor
  · exact List.forall_mem_map.2 fun key hkey => RuleText.spellPart_ne_nil (present key hkey)
  · rw [keys]
    rfl
  · rw [keys]
    exact nodup_orderedKeys distinct
  · exact fun _ _ => List.not_mem_nil
  · refine List.forall_mem_map.2 fun key hkey => ?_
    -- Of all parts only the tokens are read as something else than they were
    have again : rereadPart zone key ((f.withTokens ending exdates).draft.part key) =
        (f.withTokens (ending.map (DateToken.reread zone))
          (exdates.map (DateToken.reread zone))).draft.part key := by
      cases key <;> rfl
    rw [← again]
    refine RuleText.readPart_spellPart (present key hkey) ?_ ?_
    · exact fun n hn => short n (mem_numerals (f := f.withTokens ending exdates) hn)
    · exact forall_tokens_iff.2 readable key
  · -- A key that is not written has an empty part
    intro key hkey
    rw [keys, mem_orderedKeys] at hkey
    rw [← RuleText.has_eq_false_iff, has_withTokens _ _ key]
    · exact Bool.eq_false_iff.2 hkey
    · rw [Option.isSome_map, hending]
    · rw [List.isEmpty_map, hexdates]

end Reread

/-- The text of a rule's parts is read as parts that mean the same, with the keys in the order in
which they were written. A zone that is given as it is has to be orderly; zones that are chosen by
name are. -/
theorem write_reads_back [ZoneDatabase] {choice : ZoneChoice} (chosen : choice.resolve = .ok zone)
    (orderly : ∀ own, choice = .given own → own.IsOrderly) (distinct : f.keyOrder.Nodup)
    (short : ∀ n ∈ f.numerals, (Decimal.write n).length ≤ Text.numeralLimit)
    (spellable : ∀ token ∈ f.ending.toList ++ f.exdates, token.IsSpellable zone) :
    ∃ text g, f.write zone = .ok text ∧ Fields.read zone text = .ok g ∧ g.Means f ∧
      g.keyOrder = f.orderedKeys := by
  have orderly : zone.IsOrderly := ZoneChoice.isOrderly_of_resolve chosen orderly
  obtain ⟨spellable_ending, spellable_exdates⟩ := List.forall_mem_append.1 spellable
  obtain ⟨exdates, hexdates, readable, means⟩ :=
    DateToken.exists_rendered orderly spellable_exdates
  obtain ⟨ending, hending, some_ending, readable', means'⟩ :
      ∃ ending : Option DateToken, renderPart zone .ending f.ending = .ok ending ∧
        ending.isSome = f.ending.isSome ∧ (∀ token ∈ ending.toList, token.IsReadable) ∧
          List.Forall₂ DateToken.Means (ending.map (DateToken.reread zone)).toList
            f.ending.toList := by
    cases hf : f.ending with
    | none => exact ⟨none, rfl, rfl, by simp, .nil⟩
    | some token =>
      have first := spellable_ending token (by simp [hf])
      obtain ⟨shown, hshown, -⟩ := id first
      obtain ⟨readable, means⟩ := first.rendered orderly hshown
      exact ⟨some shown, Except.map_eq_ok.2 ⟨shown, hshown, rfl⟩, rfl, by simpa using readable,
        .cons means .nil⟩
  -- Rendering moves the tokens to the clocks of their marks, and leaves the other parts alone
  have rendered (key : Key) : renderPart zone key (f.draft.part key) =
      .ok ((f.withTokens ending exdates).draft.part key) := by
    cases key with
    | ending => exact hending
    | exdate => exact hexdates
    | freq | interval | count | byMonth | byMonthDay | byDay => rfl
  have no_exdates : exdates.isEmpty = f.exdates.isEmpty := by
    have length := (Except.mapM_eq_ok.1 hexdates).length_eq
    rw [Bool.eq_iff_iff, List.isEmpty_iff_length_eq_zero, List.isEmpty_iff_length_eq_zero, length]
  -- What is written are the segments of the tokens that are shown
  have written : f.write zone = .ok (String.ofList (Text.join ';' (f.orderedKeys.map fun key =>
      segment (key, spellPart key ((f.withTokens ending exdates).draft.part key))))) := by
    rw [write, writeChars_eq_ok short rendered]
    rfl
  refine ⟨_, f.withTokens (ending.map (DateToken.reread zone))
    (exdates.map (DateToken.reread zone)), written, ?_, ?_, rfl⟩
  · -- The text is split into these segments again, and they are gathered
    refine read_eq_ok.2 ⟨_, ?_, gathers_reread distinct short some_ending no_exdates
      (List.forall_mem_append.2 ⟨readable', readable⟩)⟩
    rw [String.toList_ofList, Text.split_join, List.map_map]
    · rfl
    · simpa using f.orderedKeys_ne_nil
    · exact List.forall_mem_map.2 fun key _ =>
        RuleText.not_mem_segment (RuleText.isValue_spellPart _ _)
  · exact ⟨rfl, rfl, rfl, means', rfl, rfl, rfl, means⟩

/-- Every other Friday until the end of 2012 in UTC, without one night in Paris and the first pass
over the hour that is repeated there. -/
def otherFridays : Fields where
  freq := .weekly
  interval := some ⟨2, Nat.two_pos⟩
  count := none
  ending := some ⟨⟨⟨⟨2013, 1, 1, by decide⟩, ⟨28800000000, by decide⟩⟩, .region .tokyo, false⟩,
    false, true⟩
  byMonth := .empty
  byMonthDay := []
  byDay := [⟨-1, .friday⟩, ⟨0, .friday⟩, ⟨0, .friday⟩]
  exdates := [⟨⟨⟨⟨2012, 6, 1, by decide⟩, .midnight⟩, .region .paris, true⟩, true, false⟩,
    ⟨⟨⟨⟨2012, 10, 28, by decide⟩, ⟨1800000000, by decide⟩⟩, .region .utc, false⟩, false, false⟩]
  keyOrder := [.exdate, .freq]
  dayFilters := .inl rfl

/-- The last Fridays of Paris, up to an end and without one of them, are written and read back. -/
theorem otherFridays_read_back :
    (ZoneChoice.named "Europe/Paris").resolve = .ok (.region .paris) ∧
      ∃ text g, otherFridays.write (.region .paris) = .ok text ∧
        Fields.read (.region .paris) text = .ok g ∧ g.Means otherFridays ∧
          g.keyOrder = [.exdate, .freq, .interval, .ending, .byDay] :=
  have chosen : (ZoneChoice.named "Europe/Paris").resolve = .ok (.region .paris) := by decide
  have spellable : ∀ token ∈ otherFridays.ending.toList ++ otherFridays.exdates,
      token.IsSpellable (.region .paris) := by
    simp only [otherFridays, Option.toList_some, List.singleton_append, List.forall_mem_cons]
    refine ⟨⟨⟨⟨⟨⟨2012, 12, 31, by decide⟩, ⟨82800000000, by decide⟩⟩, .zero, false⟩, false, true⟩,
        by decide +kernel, by decide, by decide, by decide⟩,
      ⟨⟨⟨⟨⟨2012, 6, 1, by decide⟩, .midnight⟩, .region .paris, true⟩, true, false⟩,
        by decide +kernel, by decide, by decide, by decide +kernel⟩,
      ⟨⟨⟨⟨⟨2012, 10, 28, by decide⟩, ⟨9000000000, by decide⟩⟩, .region .paris, false⟩, false,
        false⟩, by decide +kernel, by decide, by decide, by decide +kernel⟩, by simp⟩
  have named : ∀ own, ZoneChoice.named "Europe/Paris" = .given own → own.IsOrderly := by
    intro own h
    injection h
  ⟨chosen, write_reads_back chosen named (by decide) (by decide +kernel) spellable⟩

end Fields

end Recurrence
