import Recurrence.Proofs.FirstRefusal
import Recurrence.Proofs.ReadBack
import Recurrence.Proofs.SegmentOrder

/-!
# Listed keys

A key that is named more than once is listed as often as it is named, if its part is present. The
snapshot has it once all the same, the text has a segment for each time, and a text with two
segments of one key is not read again.

* `Fields.count_orderedKeys`: how often a key is listed.
* `Fields.map_fst_snapshot`: the keys of the snapshot.
* `Fields.exists_write_iff`, `Fields.exists_entries_of_write`: the text with a segment for each
  listed key.
* `RuleText.ofValue_of_readPart`: how the value that is written for a part can be refused.
* `Fields.readsListed`: what is read from the text.
* `Fields.keys_listed`: the laws of listed keys.
-/

namespace Recurrence

/-! ## Refused values -/

/-- The failures that refuse the value of a part which has been written: a number that is too long,
or a date that is not spelled as one. -/
inductive Failure.OfValue : Failure → Prop where
  | numeral (digits : Nat) : OfValue (.numeralTooLong digits)
  | date (fault : RuleFault) (h : fault.cause.kind = .malformedDate) : OfValue (.rule fault)

namespace RuleText

variable {zone : Zone} {key : Key} {v : key.Value} {failure : Failure}

/-- What is written for a positive integer can only be too long. -/
theorem readPositive_write_error {name : String} {n : Positive}
    (h : readPositive name (Decimal.write n.val) = .error failure) : failure.OfValue := by
  by_cases short : (Decimal.write n.val).length ≤ Text.numeralLimit
  · rw [readPositive_write name short] at h
    injection h
  · rw [readPositive,
      readInteger_tooLong (isCounting_write n.property) (Nat.lt_of_not_le short)] at h
    injection h with h
    rw [← h]
    exact .numeral _

/-- A token is refused for what it spells. -/
theorem ofValue_of_read {key : Option String} {text : List Char}
    (h : DateToken.read zone key text = .error failure) : failure.OfValue := by
  obtain ⟨cause, piece, rfl, malformed, -⟩ := DateToken.read_malformed h
  exact .date _ malformed

/-- A list of spelled items is refused only if one of them is. -/
theorem exists_of_readItems_join_error {α : Type} {name : String} {vs : List α}
    {read : List Char → Except Failure α} {spell : α → List Char} (ne : vs ≠ [])
    (item : ∀ v, Text.IsItem (spell v)) (given : ∀ v, spell v ≠ [])
    (h : (readItems name (Text.join ',' (vs.map spell)) >>= fun tokens => tokens.mapM read) =
      .error failure) : ∃ v ∈ vs, read (spell v) = .error failure := by
  rw [readItems_spelled name ne item given] at h
  obtain ⟨token, mem, h⟩ := Except.exists_of_mapM_error h
  obtain ⟨v, hv, rfl⟩ := List.mem_map.1 mem
  exact ⟨v, hv, h⟩

/-- The spelling of a part that is present is refused only for its value. -/
theorem ofValue_of_readPart (present : v ≠ ({} : Draft).part key)
    (h : readPart zone key (spellPart key v) = .error failure) : failure.OfValue := by
  -- Parts without tokens and without long numbers are all read back
  have read_back (short : numerals key v = []) (dateless : tokens key v = []) :
      failure.OfValue := by
    rw [readPart_spellPart present (by simp [short]) (by simp [dateless])] at h
    injection h
  cases key with
  | freq | byMonth | byMonthDay => exact read_back rfl rfl
  | interval | count =>
    cases v with
    | none => exact absurd rfl present
    | some n => exact readPositive_write_error (Except.map_eq_error.1 h)
  | ending =>
    cases v with
    | none => exact absurd rfl present
    | some token => exact ofValue_of_read (Except.map_eq_error.1 h)
  | byDay =>
    obtain ⟨entry, -, h⟩ := exists_of_readItems_join_error present DayEntry.isItem_write
      DayEntry.write_ne_nil h
    obtain ⟨n, rfl⟩ := readDayEntry_write_error h
    exact .numeral n
  | exdate =>
    obtain ⟨token, -, h⟩ := exists_of_readItems_join_error present DateToken.isItem_spelling
      DateToken.spelling_ne_nil h
    exact ofValue_of_read h

/-! ## Rendered parts -/

/-- A part is rendered if its tokens are. -/
theorem exists_renderPart_iff : (∃ w, renderPart zone key v = .ok w) ↔
    ∀ token ∈ tokens key v, ∃ shown, token.render zone = .ok shown := by
  -- Only the parts with tokens are shown
  cases key with
  | ending =>
    cases v with
    | none => exact ⟨fun _ _ mem => absurd mem List.not_mem_nil, fun _ => ⟨none, rfl⟩⟩
    | some token =>
      show (∃ w, some <$> token.render zone = .ok w) ↔ ∀ t ∈ [token], _
      rw [List.forall_mem_singleton]
      constructor
      · rintro ⟨w, hw⟩
        obtain ⟨shown, hshown, -⟩ := Except.map_eq_ok.1 hw
        exact ⟨shown, hshown⟩
      · rintro ⟨shown, hshown⟩
        exact ⟨some shown, Except.map_eq_ok.2 ⟨shown, hshown, rfl⟩⟩
  | exdate =>
    constructor
    · rintro ⟨w, hw⟩ token mem
      exact Except.exists_of_mapM hw mem
    · exact Except.exists_mapM_eq_ok
  | freq | interval | count | byMonth | byMonthDay | byDay =>
    exact ⟨fun _ _ mem => absurd mem List.not_mem_nil, fun _ => ⟨v, rfl⟩⟩

/-- A part that is present is still present when it is rendered. -/
theorem present_of_renderPart {w : key.Value} (h : renderPart zone key v = .ok w)
    (present : v ≠ ({} : Draft).part key) : w ≠ ({} : Draft).part key := by
  -- A part is shown with as many tokens as it has
  cases key with
  | ending =>
    cases v with
    | none => exact absurd rfl present
    | some token =>
      obtain ⟨shown, -, rfl⟩ := Except.map_eq_ok.1 h
      exact Option.some_ne_none shown
  | exdate =>
    rintro rfl
    exact present (List.forall₂_nil_right_iff.1 (Except.mapM_eq_ok.1 h))
  | freq | interval | count | byMonth | byMonthDay | byDay =>
    injection h with h
    rwa [← h]

/-! ## Spelled segments -/

section Segments

variable {draft : Draft} {entries : List (Key × List Char)} {value : List Char}

/-- Whether a value is the spelling of a part that is present. -/
def IsSpelled (key : Key) (value : List Char) : Prop :=
  ∃ v : key.Value, v ≠ ({} : Draft).part key ∧ spellPart key v = value

/-- A spelled segment is refused for its value, or because its key was given before. -/
theorem readSegment_spelled_error (spelled : IsSpelled key value)
    (h : readSegment zone draft (segment (key, value)) = .error failure) :
    failure.OfValue ∨ key ∈ draft.keyOrder ∧
      failure = .rule ⟨.duplicateKey, some key.name, some (String.ofList value)⟩ := by
  obtain ⟨v, present, rfl⟩ := spelled
  by_cases given : key ∈ draft.keyOrder
  · rw [readSegment_again given] at h
    injection h with h
    exact .inr ⟨given, h.symm⟩
  · rw [readSegment_segment given (spellPart_ne_nil present), Except.map_eq_error] at h
    exact .inl (ofValue_of_readPart present h)

/-- Spelled segments are refused for a value, or because two of them have the same key. -/
theorem foldlM_readSegment_spelled_error (spelled : ∀ entry ∈ entries, IsSpelled entry.1 entry.2)
    (h : (entries.map segment).foldlM (readSegment zone) {} = .error failure) :
    failure.OfValue ∨ ∃ entry ∈ entries, 1 < (entries.map Prod.fst).count entry.1 ∧
      failure = .rule ⟨.duplicateKey, some entry.1.name, some (String.ofList entry.2)⟩ := by
  obtain ⟨before, piece, after, draft, pieces, read, h⟩ := Except.exists_of_foldlM_error h
  obtain ⟨front, back, rfl, rfl, hback⟩ := List.map_eq_append_iff.1 pieces
  obtain ⟨entry, rest, rfl, rfl, -⟩ := List.map_eq_cons_iff.1 hback
  have mem : entry ∈ front ++ entry :: rest := by simp
  rcases readSegment_spelled_error (spelled entry mem) h with value | ⟨given, duplicate⟩
  · exact .inl value
  · -- The segments before it have been read, and their keys are those that were given before
    obtain ⟨entries', same, gathers⟩ := foldlM_readSegment_eq_ok.1 read
    rw [gathers.keys, ← List.map_injective_iff.2 segment_injective same] at given
    have earlier := List.count_pos_iff.2 (show entry.1 ∈ front.map Prod.fst from given)
    refine .inr ⟨entry, mem, ?_, duplicate⟩
    rw [List.map_append, List.count_append, List.map_cons, List.count_cons_self]
    omega

end Segments

end RuleText

namespace Fields

open RuleText (Draft readSegment segment spellPart)

variable {zone reader : Zone} {f : Fields} {key : Key} {text : String}

/-! ## Lists of keys -/

/-- Whether no part that is present is named more than once. -/
def NamesOnce (f : Fields) : Prop := ∀ key, f.has key = true → f.keyOrder.count key ≤ 1

/-- A key is listed as often as it is named, and at least once, if its part is present. -/
theorem count_orderedKeys (f : Fields) (key : Key) :
    f.orderedKeys.count key = if f.has key = true then max 1 (f.keyOrder.count key) else 0 := by
  by_cases present : f.has key = true
  · have given : (f.keyOrder.filter f.has).count key = f.keyOrder.count key :=
      List.count_filter present
    rw [if_pos present, orderedKeys]
    simp only [List.count_append, given]
    by_cases named : key ∈ f.keyOrder
    · -- What is named already is not listed once more
      have pos := List.count_pos_iff.2 named
      have others : (Key.canonical.filter fun other =>
          !(f.keyOrder.filter f.has).contains other && f.has other).count key = 0 := by
        apply List.count_eq_zero.2
        simp [named, present]
      omega
    · have others : (Key.canonical.filter fun other =>
          !(f.keyOrder.filter f.has).contains other && f.has other).count key = 1 := by
        rw [List.count_filter (by simp [named, present])]
        cases key <;> rfl
      have none := List.count_eq_zero.2 named
      omega
  · rw [if_neg present]
    exact List.count_eq_zero.2 (mt mem_orderedKeys.1 present)

/-- Keys that are listed once are named once. -/
theorem namesOnce_of_nodup (h : f.orderedKeys.Nodup) : f.NamesOnce := by
  intro key present
  have once := List.nodup_iff_count_le_one.1 h key
  rw [count_orderedKeys, if_pos present] at once
  omega

/-- A key has a value if its part is present. -/
theorem isSome_value? (f : Fields) (key : Key) : (f.value? key).isSome = f.has key := by
  have guarded (b : Bool) (value : PartValue) :
      (if b = true then some value else none).isSome = b := by
    cases b <;> rfl
  cases key with
  | freq => rfl
  | interval | count | ending => exact Option.isSome_map
  | byMonth | byMonthDay | byDay | exdate => exact guarded _ _

/-- The snapshot has the listed keys in their order, each once. -/
theorem map_fst_snapshot (f : Fields) : f.snapshot.map Prod.fst = f.orderedKeys.eraseDups := by
  have valued : ∀ key ∈ f.orderedKeys.eraseDups,
      ((f.value? key).map fun value => (key, value)).map Prod.fst = some key := by
    intro key mem
    have present := mem_orderedKeys.1 (List.mem_eraseDups.1 mem)
    rw [← isSome_value?] at present
    obtain ⟨value, hvalue⟩ := Option.isSome_iff_exists.1 present
    rw [hvalue]
    rfl
  rw [snapshot, List.map_filterMap, List.filterMap_congr valued, List.filterMap_some]

/-! ## Segments of a text -/

variable {value : Key → List Char}

/-- The text is composed of the values in the order of the keys. -/
theorem write_of_values (values : ∀ key ∈ f.orderedKeys, f.writeValue zone key = .ok (value key)) :
    f.write zone = .ok (RuleText.compose value f.orderedKeys) := by
  have pieces : f.orderedKeys.mapM (f.writeSegment zone) =
      .ok (f.orderedKeys.map fun key => segment (key, value key)) := by
    rw [Except.mapM_eq_ok, List.forall₂_map_right_iff, List.forall₂_same]
    intro key mem
    exact Except.map_eq_ok.2 ⟨value key, values key mem, rfl⟩
  rw [write, writeChars, pieces]
  rfl

/-- What is written has a segment for each listed key, with the value that is written for it. -/
theorem exists_of_write (h : f.write zone = .ok text) : ∃ value : Key → List Char,
    (∀ key ∈ f.orderedKeys, f.writeValue zone key = .ok (value key)) ∧
      text = RuleText.compose value f.orderedKeys := by
  obtain ⟨chars, hchars, -⟩ := Except.map_eq_ok.1 h
  obtain ⟨pieces, hpieces, -⟩ := Except.map_eq_ok.1 hchars
  have written : ∀ key ∈ f.orderedKeys, ∃ value, f.writeValue zone key = .ok value := by
    intro key mem
    obtain ⟨piece, hpiece⟩ := Except.exists_of_mapM hpieces mem
    obtain ⟨value, hvalue, -⟩ := Except.map_eq_ok.1 hpiece
    exact ⟨value, hvalue⟩
  choose! value values using written
  rw [write_of_values values] at h
  injection h with h
  exact ⟨value, values, h.symm⟩

/-- A text whose numbers are not too long is written if the tokens can be shown on the clocks that
they are spelled on. -/
theorem exists_write_iff
    (short : ∀ n ∈ f.numerals, (Decimal.write n).length ≤ Text.numeralLimit) :
    (∃ text, f.write zone = .ok text) ↔
      ∀ token ∈ f.ending.toList ++ f.exdates, ∃ shown, token.render zone = .ok shown := by
  rw [← forall_tokens_iff]
  simp only [← RuleText.exists_renderPart_iff]
  constructor
  · rintro ⟨text, h⟩ key
    by_cases listed : key ∈ f.orderedKeys
    · obtain ⟨value, values, -⟩ := exists_of_write h
      have rendered := values key listed
      rw [RuleText.writeValue_eq zone fun n hn => short n (mem_numerals hn)] at rendered
      obtain ⟨shown, hshown, -⟩ := Except.map_eq_ok.1 (orFail_eq_ok.1 rendered)
      exact ⟨shown, hshown⟩
    · -- A part that is absent has no tokens to show
      rw [mem_orderedKeys, Bool.not_eq_true, RuleText.has_eq_false_iff] at listed
      rw [listed]
      cases key <;> exact ⟨_, rfl⟩
  · -- With every token shown each value is spelled
    intro rendered
    choose shown hshown using rendered
    have values : ∀ key ∈ f.orderedKeys,
        f.writeValue zone key = .ok (spellPart key (shown key)) := by
      intro key _
      rw [RuleText.writeValue_eq zone fun n hn => short n (mem_numerals hn), hshown]
      rfl
    exact ⟨_, write_of_values values⟩

/-- A written text has the listed keys, with spellings of their parts. -/
theorem exists_entries_of_write (h : f.write zone = .ok text) :
    ∃ entries : List (Key × List Char),
      Text.split ';' text.toList = entries.map segment ∧ entries.map Prod.fst = f.orderedKeys ∧
        ∀ entry ∈ entries, RuleText.IsSpelled entry.1 entry.2 := by
  obtain ⟨value, values, rfl⟩ := exists_of_write h
  have spelled : ∀ key ∈ f.orderedKeys, RuleText.IsSpelled key (value key) := by
    intro key mem
    have rendered := values key mem
    rw [RuleText.writeValue_eq zone (RuleText.short_of_writeValue rendered)] at rendered
    obtain ⟨shown, hshown, same⟩ := Except.map_eq_ok.1 (orFail_eq_ok.1 rendered)
    refine ⟨shown, RuleText.present_of_renderPart hshown ?_, same⟩
    rw [ne_eq, ← RuleText.has_eq_false_iff, mem_orderedKeys.1 mem]
    decide
  refine ⟨f.orderedKeys.map fun key => (key, value key), ?_, ?_, ?_⟩
  · -- The spellings have no semicolon in them
    rw [RuleText.compose, String.toList_ofList, Text.split_join, List.map_map]
    · rfl
    · simpa using f.orderedKeys_ne_nil
    · refine List.forall_mem_map.2 fun key mem => ?_
      obtain ⟨shown, -, same⟩ := spelled key mem
      rw [← same]
      exact RuleText.not_mem_segment (RuleText.isValue_spellPart key shown)
  · simp [Function.comp_def]
  · exact List.forall_mem_map.2 spelled

/-! ## Written, then read -/

/-- How a text with the listed keys is read: as parts with these keys in this order, and only if no
key is there twice. Otherwise it is refused for a value, or for a key that is named more than once,
but never for a key that is missing. -/
def ReadsListed (f : Fields) (reader : Zone) (text : String) : Prop :=
  match Fields.read reader text with
  | .ok g => f.NamesOnce ∧ g.keyOrder = f.orderedKeys
  | .error failure => failure.OfValue ∨ ∃ key value, f.has key = true ∧
      1 < f.keyOrder.count key ∧ failure = .rule ⟨.duplicateKey, some key.name, some value⟩

/-- Segments with the listed keys that have been read go together. -/
theorem finish_of_gathers {entries : List (Key × List Char)} {draft : Draft}
    (keys : entries.map Prod.fst = f.orderedKeys)
    (gathers : RuleText.Gathers zone {} entries draft) (text : List Char) :
    ∃ g : Fields, RuleText.finish text draft = .ok g ∧ g.keyOrder = f.orderedKeys := by
  have listed : ∀ key, draft.part key ≠ ({} : Draft).part key → f.has key = true := by
    intro key present
    rw [← mem_orderedKeys, ← keys]
    by_contra missing
    exact present (gathers.others key missing)
  -- Only a missing frequency or days named in two ways could be refused
  cases hfinish : RuleText.finish text draft with
  | ok g =>
    have order := gathers.keys
    rw [RuleText.finish_eq_ok.1 hfinish, keys] at order
    exact ⟨g, rfl, order⟩
  | error failure =>
    rcases RuleText.finish_error hfinish with ⟨missing, -⟩ | ⟨days, weekdays, -⟩
    · -- The frequency is always listed
      have given : Key.freq ∈ entries.map Prod.fst := by
        rw [keys]
        exact mem_orderedKeys.2 rfl
      obtain ⟨⟨key, value⟩, mem, rfl⟩ := List.mem_map.1 given
      obtain ⟨freq, -, same⟩ := Except.map_eq_ok.1 (gathers.read _ mem)
      exact absurd (same.trans missing) (Option.some_ne_none freq)
    · have hdays := listed .byMonthDay days
      have hweekdays := listed .byDay weekdays
      rcases f.dayFilters with none | none
      · rw [has, none] at hdays
        injection hdays
      · rw [has, none] at hweekdays
        injection hweekdays

/-- A written text is read in every zone as the listed keys tell. -/
theorem readsListed (h : f.write zone = .ok text) (reader : Zone) : f.ReadsListed reader text := by
  obtain ⟨entries, pieces, keys, spelled⟩ := exists_entries_of_write h
  have content : Text.hasContent text.toList = true := by
    apply RuleText.hasContent_of_freq pieces
    rw [keys]
    exact mem_orderedKeys.2 rfl
  unfold ReadsListed
  cases loop : (Text.split ';' text.toList).foldlM (readSegment reader) {} with
  | ok draft =>
    obtain ⟨entries', same, gathers⟩ := RuleText.foldlM_readSegment_eq_ok.1 loop
    rw [pieces] at same
    obtain rfl := List.map_injective_iff.2 RuleText.segment_injective same
    obtain ⟨g, finished, order⟩ := finish_of_gathers keys gathers text.toList
    have read : Fields.read reader text = .ok g := by
      unfold Fields.read RuleText.read
      rw [content, loop]
      exact finished
    rw [read]
    refine ⟨namesOnce_of_nodup ?_, order⟩
    rw [← keys]
    exact gathers.distinct
  | error failure =>
    rw [read_of_loop_error content loop]
    rw [pieces] at loop
    rcases RuleText.foldlM_readSegment_spelled_error spelled loop with value | again
    · exact .inl value
    · obtain ⟨entry, mem, twice, duplicate⟩ := again
      have present : f.has entry.1 = true := by
        rw [← mem_orderedKeys, ← keys]
        exact List.mem_map_of_mem mem
      rw [keys, count_orderedKeys, if_pos present] at twice
      exact .inr ⟨entry.1, _, present, by omega, duplicate⟩

/-- The keys of a rule are those of its parts that are present: first those that are named, in the
order in which they are named and as often as they are, and then the others in canonical order. The
snapshot has each of them once, in this order. A text is written if all numbers and tokens can be,
and has a segment for each time that a key is listed. It is read again with the same keys unless one
of them is there twice. -/
theorem keys_listed (f : Fields) :
    f.orderedKeys = f.keyOrder.filter f.has ++
        Key.canonical.filter (fun key => !f.keyOrder.contains key && f.has key) ∧
      (∀ key, f.orderedKeys.count key =
        if f.has key = true then max 1 (f.keyOrder.count key) else 0) ∧
      f.snapshot.map Prod.fst = f.orderedKeys.eraseDups ∧
      ∀ zone : Zone,
        ((∀ n ∈ f.numerals, (Decimal.write n).length ≤ Text.numeralLimit) →
          ((∃ text, f.write zone = .ok text) ↔
            ∀ token ∈ f.ending.toList ++ f.exdates, ∃ shown, token.render zone = .ok shown)) ∧
        ∀ text, f.write zone = .ok text →
          RuleText.HasKeys text f.orderedKeys ∧ ∀ reader, f.ReadsListed reader text := by
  refine ⟨?_, f.count_orderedKeys, f.map_fst_snapshot, fun zone => ⟨exists_write_iff, ?_⟩⟩
  · unfold orderedKeys
    simp only
    congr 1
    apply List.filter_congr
    intro key _
    by_cases present : f.has key = true
    · simp [present]
    · simp [present]
  · intro text h
    obtain ⟨entries, pieces, keys, -⟩ := exists_entries_of_write h
    exact ⟨⟨entries, pieces, keys.symm⟩, readsListed h⟩

/-- Every day, with the key of the frequency named twice. -/
def dailyTwice : Fields where
  freq := .daily
  interval := none
  count := none
  ending := none
  byMonth := .empty
  byMonthDay := []
  byDay := []
  exdates := []
  keyOrder := [.freq, .freq]
  dayFilters := noDayFilters

/-- The frequency is listed and written twice, which is refused, though the snapshot has it once. -/
theorem dailyTwice_listed_twice :
    dailyTwice.orderedKeys = [.freq, .freq] ∧ dailyTwice.snapshot.map Prod.fst = [.freq] ∧
      dailyTwice.write (.region .utc) = .ok "FREQ=DAILY;FREQ=DAILY" ∧
      RuleText.HasKeys "FREQ=DAILY;FREQ=DAILY" [.freq, .freq] ∧
      Fields.read (.region .utc) "FREQ=DAILY;FREQ=DAILY" =
        .error (.rule ⟨.duplicateKey, some "FREQ", some "DAILY"⟩) := by
  obtain ⟨ordered, -, once, texts⟩ := keys_listed dailyTwice
  have written : dailyTwice.write (.region .utc) = .ok "FREQ=DAILY;FREQ=DAILY" := by
    decide +kernel
  have keys := ((texts (.region .utc)).2 _ written).1
  exact ⟨ordered, once, written, keys, by decide +kernel⟩

end Fields

end Recurrence
