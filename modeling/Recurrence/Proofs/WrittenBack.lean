import Recurrence.Proofs.PartValues

/-!
# Rule text, read and written back

Every rule text that is read can be written again, key by key in the order in which the keys were
given. It comes back character for character, with three exceptions: a line break after an integer
or a weekday entry, digits of other scripts in a date, and zeros before a year.

* `RuleText.Gathers.orderedKeys_eq`: the keys that are written for a rule that has been read.
* `Fields.write_eq_text_iff`: when the text comes back.
-/

namespace Recurrence

namespace RuleText

variable {zone : Zone} {f : Fields} {text : List Char} {entries : List (Key × List Char)}

/-! ## Keys -/

/-- The parts that segments have given are those that are present. -/
theorem Gathers.has_iff (h : Gathers zone {} entries f.draft) {key : Key} :
    f.has key = true ↔ key ∈ f.keyOrder := by
  have keys : f.keyOrder = entries.map Prod.fst := h.keys
  constructor
  · intro present
    by_contra missing
    rw [keys] at missing
    rw [has_eq_false_iff.2 (h.others key missing)] at present
    injection present
  · intro given
    rw [keys] at given
    obtain ⟨entry, hentry, rfl⟩ := List.mem_map.1 given
    exact has_of_readPart (h.read entry hentry)

/-- A rule that has been read is written in the order of its keys. -/
theorem Gathers.orderedKeys_eq (h : Gathers zone {} entries f.draft) :
    f.orderedKeys = f.keyOrder := by
  have given : f.keyOrder.filter f.has = f.keyOrder :=
    List.filter_eq_self.2 fun key hkey => h.has_iff.2 hkey
  have others : (Key.canonical.filter fun key =>
      !f.keyOrder.contains key && f.has key) = [] := by
    refine List.filter_eq_nil_iff.2 fun key _ => ?_
    by_cases hkey : key ∈ f.keyOrder
    · simp [hkey]
    · simp [mt h.has_iff.1 hkey]
  rw [Fields.orderedKeys]
  simp only [given, others, List.append_nil]

/-! ## Segments -/

/-- A segment is plain if its value is. -/
theorem isPlain_segment {entry : Key × List Char} :
    Text.IsPlain (segment entry) ↔ Text.IsPlain entry.2 := by
  have name : Text.IsPlain entry.1.name.toList := by
    intro c hc
    have letter := entry.1.name_spec.2 c hc
    refine ⟨Text.toNat_lt_of_isAlphanum letter, ?_⟩
    rintro rfl
    exact absurd letter (by decide)
  unfold segment Text.IsPlain at *
  rw [List.forall_mem_append, List.forall_mem_cons]
  constructor
  · exact fun h => h.2.2
  · exact fun h => ⟨name, by decide, h⟩

/-- What is written for a rule that has been read. -/
theorem Gathers.writeChars_eq (h : Gathers zone {} entries f.draft) :
    f.writeChars zone = .ok (spell f) := by
  have keys : f.keyOrder = entries.map Prod.fst := h.keys
  refine Except.map_eq_ok.2 ⟨_, ?_, rfl⟩
  rw [h.orderedKeys_eq, Except.mapM_eq_ok, List.forall₂_map_right_iff, List.forall₂_same, keys]
  refine List.forall_mem_map.2 fun entry hentry => ?_
  have read := h.read entry hentry
  rw [writeSegment_eq zone (short_of_readPart read), render_of_readPart read]
  rfl

/-- The tokens of a part that has been read show the readings that are written for them. -/
theorem render_of_mem_tokens {key : Key} {value : List Char} {v : key.Value}
    (h : readPart zone key value = .ok v) {token : DateToken}
    (mem : token ∈ tokens key v) : token.render zone = .ok token := by
  have rendered := render_of_readPart h
  cases key with
  | ending =>
    cases v with
    | none => exact absurd mem List.not_mem_nil
    | some read =>
      obtain ⟨shown, hshown, same⟩ := Except.map_eq_ok.1 rendered
      injection same with same
      rw [List.mem_singleton.1 mem, hshown, same]
  | exdate => exact List.forall₂_same.1 (Except.mapM_eq_ok.1 rendered) token mem
  | freq | interval | count | byMonth | byMonthDay | byDay => exact absurd mem List.not_mem_nil

/-- A rule is written as it stood exactly if each value is. -/
theorem Gathers.spell_eq_iff (h : Gathers zone {} entries f.draft)
    (pieces : Text.split ';' text = entries.map segment) :
    spell f = text ↔ ∀ entry ∈ entries, spellPart entry.1 (f.draft.part entry.1) = entry.2 := by
  have keys : f.keyOrder = entries.map Prod.fst := h.keys
  have ne : entries ≠ [] := by
    rintro rfl
    exact Text.split_ne_nil _ _ pieces
  have split : ∀ piece ∈ entries.map segment, ';' ∉ piece := by
    rw [← pieces]
    exact fun _ => Text.not_mem_of_mem_split
  have spelled : ∀ piece ∈ entries.map fun entry =>
      segment (entry.1, spellPart entry.1 (f.draft.part entry.1)), ';' ∉ piece :=
    List.forall_mem_map.2 fun entry _ => not_mem_segment (isValue_spellPart _ _)
  have joined : spell f = Text.join ';' (entries.map fun entry =>
      segment (entry.1, spellPart entry.1 (f.draft.part entry.1))) := by
    rw [spell, h.orderedKeys_eq, keys, List.map_map]
    rfl
  -- Neither side has a semicolon inside a segment, so segments are compared one by one
  rw [joined, ← Text.join_split ';' text, pieces,
    Text.join_inj (by simpa using ne) (by simpa using ne) spelled split, List.map_inj_left]
  refine forall₂_congr fun entry _ => ?_
  simp [segment]

end RuleText

namespace Fields

open RuleText (tokens)

variable {zone : Zone} {f : Fields} {text : String}

/-- The tokens of all parts are the end and the exclusions. -/
theorem forall_tokens_iff {p : DateToken → Prop} :
    (∀ key, ∀ token ∈ tokens key (f.draft.part key), p token) ↔
      ∀ token ∈ f.ending.toList ++ f.exdates, p token := by
  rw [List.forall_mem_append]
  constructor
  · exact fun h => ⟨h .ending, h .exdate⟩
  · intro ⟨ending, exdates⟩ key
    cases key with
    | ending => exact ending
    | exdate => exact exdates
    | freq | interval | count | byMonth | byMonthDay | byDay =>
      exact fun _ h => absurd h List.not_mem_nil

/-- What holds of the tokens of all segments holds of the tokens of the rule. -/
theorem forall_tokens_iff_of_gathers {entries : List (Key × List Char)}
    (gathers : RuleText.Gathers zone {} entries f.draft) {p : DateToken → Prop} :
    (∀ entry ∈ entries, ∀ token ∈ tokens entry.1 (f.draft.part entry.1), p token) ↔
      ∀ token ∈ f.ending.toList ++ f.exdates, p token := by
  rw [← forall_tokens_iff]
  constructor
  · intro each key
    by_cases given : key ∈ entries.map Prod.fst
    · obtain ⟨entry, hentry, rfl⟩ := List.mem_map.1 given
      exact each entry hentry
    · -- The part of a key that is not given has no tokens
      have absent := gathers.others key given
      intro token htoken
      rw [absent] at htoken
      cases key <;> exact absurd htoken List.not_mem_nil
  · exact fun all entry _ => all entry.1

/-- The tokens of a rule that has been read show the readings that are written for them. -/
theorem render_of_mem (h : Fields.read zone text = .ok f) :
    ∀ token ∈ f.ending.toList ++ f.exdates, token.render zone = .ok token := by
  obtain ⟨entries, -, gathers⟩ := read_eq_ok.1 h
  exact (forall_tokens_iff_of_gathers gathers).1 fun entry hentry _ =>
    RuleText.render_of_mem_tokens (gathers.read entry hentry)

/-- A rule that has been read is written with its tokens by their own readings. -/
theorem write_of_read (h : Fields.read zone text = .ok f) :
    f.write zone = .ok (String.ofList (RuleText.spell f)) := by
  obtain ⟨entries, -, gathers⟩ := read_eq_ok.1 h
  rw [write, gathers.writeChars_eq]
  rfl

/-- Every rule text that is read is written again. It comes back as it stood exactly if it consists
of ASCII characters without a line break and all its dates have years of four digits. -/
theorem write_eq_text_iff (h : Fields.read zone text = .ok f) :
    ∃ written, f.write zone = .ok written ∧
      (written = text ↔ (∀ c ∈ text.toList, c.toNat < 128 ∧ c ≠ '\n') ∧
        ∀ token ∈ f.ending.toList ++ f.exdates, 1000 ≤ token.moment.date.year) := by
  obtain ⟨entries, pieces, gathers⟩ := read_eq_ok.1 h
  refine ⟨String.ofList (RuleText.spell f), write_of_read h, ?_⟩
  · have plain : Text.IsPlain text.toList ↔ ∀ entry ∈ entries, Text.IsPlain entry.2 := by
      rw [← Text.join_split ';' text.toList, pieces, Text.isPlain_join (by decide),
        List.forall_mem_map]
      exact forall₂_congr fun entry _ => RuleText.isPlain_segment
    have dated : (∀ entry ∈ entries, ∀ token ∈ tokens entry.1 (f.draft.part entry.1),
        1000 ≤ token.moment.date.year) ↔
          ∀ token ∈ f.ending.toList ++ f.exdates, 1000 ≤ token.moment.date.year :=
      forall_tokens_iff_of_gathers gathers
    -- From the whole text to its segments, from those to their values
    calc String.ofList (RuleText.spell f) = text
        ↔ RuleText.spell f = text.toList := by
          rw [← String.toList_inj, String.toList_ofList]
      _ ↔ ∀ entry ∈ entries, RuleText.spellPart entry.1 (f.draft.part entry.1) = entry.2 :=
          gathers.spell_eq_iff pieces
      _ ↔ ∀ entry ∈ entries, Text.IsPlain entry.2 ∧
            ∀ token ∈ tokens entry.1 (f.draft.part entry.1), 1000 ≤ token.moment.date.year :=
          forall₂_congr fun entry hentry => RuleText.spellPart_eq_iff (gathers.read entry hentry)
      _ ↔ _ := by
          rw [forall₂_and, ← plain, dated]
          rfl

/-- The line break after a number is accepted, and it is not written. -/
theorem threeDays_loses_line_break :
    ∃ f written, Fields.read (.region .utc) "FREQ=DAILY;COUNT=3\n" = .ok f ∧
      f.write (.region .utc) = .ok written ∧ written ≠ "FREQ=DAILY;COUNT=3\n" := by
  have accepted : (Fields.read (.region .utc) "FREQ=DAILY;COUNT=3\n").isOk = true := by
    decide +kernel
  match h : Fields.read (.region .utc) "FREQ=DAILY;COUNT=3\n" with
  | .error _ =>
    rw [h] at accepted
    injection accepted
  | .ok f =>
    obtain ⟨written, hwritten, same⟩ := write_eq_text_iff h
    refine ⟨f, written, rfl, hwritten, ?_⟩
    intro back
    exact ((same.1 back).1 '\n' (by decide)).2 rfl

end Fields

end Recurrence
