import Recurrence.Proofs.Segments

/-!
# Values of rule text, read and written

The value of a key is spelled by its part alone, once the tokens of the part show the readings that
are to be written.

* `RuleText.spellPart`, `RuleText.writeValue_eq`: the spelling of a part.
* `RuleText.spellPart_eq_iff`: when a value that is read is written back as it stood.
* `RuleText.readPart_spellPart`: a spelled part reads back.
-/

namespace Recurrence

/-! ## Lists of items -/

namespace Text

/-- Items with commas between them. -/
def IsValue (text : List Char) : Prop := ∀ c ∈ text, (c.isAlphanum = true ∨ c = '-') ∨ c = ','

/-- What can stand in a list can stand in a value. -/
theorem IsItem.isValue {text : List Char} (h : IsItem text) : IsValue text :=
  fun c hc => .inl (h c hc)

/-- A list of such texts can stand in a value. -/
theorem isValue_join {items : List (List Char)} (h : ∀ item ∈ items, IsItem item) :
    IsValue (join ',' items) :=
  (forall_mem_join (p := fun c => (c.isAlphanum = true ∨ c = '-') ∨ c = ',') (.inr rfl)).2
    fun item hitem => (h item hitem).isValue

/-- A value of a part has no line break and no character beyond ASCII. -/
theorem IsValue.isPlain {text : List Char} (h : IsValue text) : IsPlain text := by
  intro c hc
  rcases h c hc with (alphanum | rfl) | rfl
  · refine ⟨toNat_lt_of_isAlphanum alphanum, ?_⟩
    rintro rfl
    exact absurd alphanum (by decide)
  · decide
  · decide

/-- A joined text is plain if all pieces are. -/
theorem isPlain_join {separator : Char} (plain : separator.toNat < 128 ∧ separator ≠ '\n')
    {pieces : List (List Char)} :
    IsPlain (join separator pieces) ↔ ∀ piece ∈ pieces, IsPlain piece :=
  forall_mem_join (p := fun c => c.toNat < 128 ∧ c ≠ '\n') plain

end Text

namespace RuleText

section Items

variable {α : Type} {key : String} {value : List Char} {vs : List α}
  {read : List Char → Except Failure α} {spell : α → List Char}

/-- If each item that is read is spelled as it stood exactly when it was plain and its value good,
then the same holds of a list of items. -/
theorem join_spell_eq_iff {good : α → Prop} (item : ∀ v, Text.IsItem (spell v))
    (spec : ∀ token v, read token = .ok v → (spell v = token ↔ Text.IsPlain token ∧ good v))
    (h : (readItems key value >>= fun tokens => tokens.mapM read) = .ok vs) :
    Text.join ',' (vs.map spell) = value ↔ Text.IsPlain value ∧ ∀ v ∈ vs, good v := by
  obtain ⟨tokens, htokens, hvs⟩ := Except.bind_eq_ok.1 h
  obtain ⟨rfl, -⟩ := readItems_eq_ok.1 htokens
  have pairs := Except.mapM_eq_ok.1 hvs
  -- Item by item the spelling is what was read just if that is plain and good
  have each : vs.map spell = Text.split ',' value ↔
      (∀ token ∈ Text.split ',' value, Text.IsPlain token) ∧ ∀ v ∈ vs, good v := by
    clear h htokens hvs
    generalize Text.split ',' value = tokens at pairs
    induction pairs with
    | nil => simp
    | cons hread _ ih =>
      rw [List.map_cons, List.cons.injEq, ih, spec _ _ hread, List.forall_mem_cons,
        List.forall_mem_cons]
      tauto
  have ne : Text.split ',' value ≠ [] := Text.split_ne_nil _ _
  have ne' : vs.map spell ≠ [] := by
    intro empty
    rw [List.map_eq_nil_iff.1 empty] at pairs
    exact ne (List.forall₂_nil_right_iff.1 pairs)
  -- No item has a comma in it, so the joined texts may be compared item by item
  have comma : ∀ piece ∈ vs.map spell, ',' ∉ piece := by
    intro piece hp
    obtain ⟨v, -, rfl⟩ := List.mem_map.1 hp
    exact (item v).not_mem rfl (by decide)
  have joined := Text.join_split ',' value
  have plain : Text.IsPlain value ↔ ∀ token ∈ Text.split ',' value, Text.IsPlain token := by
    rw [← Text.isPlain_join (show ','.toNat < 128 ∧ ',' ≠ '\n' by decide), joined]
  rw [plain, ← each, ← Text.join_inj ne' ne comma fun _ => Text.not_mem_of_mem_split, joined]

/-- If each item is read in its spelling, and a line break may follow, then a list is written as it
stood exactly if it was plain. -/
theorem join_eq_iff_isPlain (item : ∀ v, Text.IsItem (spell v))
    (spec : ∀ token v, read token = .ok v → dropFinalBreak token = spell v)
    (h : (readItems key value >>= fun tokens => tokens.mapM read) = .ok vs) :
    Text.join ',' (vs.map spell) = value ↔ Text.IsPlain value := by
  have each token v (hread : read token = .ok v) :
      spell v = token ↔ Text.IsPlain token ∧ True := by
    rw [and_true]
    exact eq_token_iff (item v) (spec token v hread)
  rw [join_spell_eq_iff item each h]
  simp

/-- Spelled items are read one by one. -/
theorem readItems_join {items : List (List Char)} (ne : items ≠ [])
    (h : ∀ item ∈ items, Text.IsItem item ∧ item ≠ []) :
    readItems key (Text.join ',' items) = .ok items := by
  refine readItems_eq_ok.2 ⟨?_, fun empty => (h [] empty).2 rfl⟩
  exact (Text.split_join ne fun item hitem => (h item hitem).1.not_mem rfl (by decide)).symm

/-- What is read from a value has at least one member. -/
theorem ne_nil_of_readItems
    (h : (readItems key value >>= fun tokens => tokens.mapM read) = .ok vs) : vs ≠ [] := by
  obtain ⟨tokens, htokens, hvs⟩ := Except.bind_eq_ok.1 h
  obtain ⟨rfl, -⟩ := readItems_eq_ok.1 htokens
  rintro rfl
  exact Text.split_ne_nil _ _ (List.forall₂_nil_right_iff.1 (Except.mapM_eq_ok.1 hvs))

end Items

/-! ## Spelled parts -/

/-- The spelling of a part, its tokens by their own readings. -/
def spellPart : (key : Key) → key.Value → List Char
  | .freq, v => (v.map fun freq : Frequency => freq.name.toList).getD []
  | .interval, v => (v.map fun n : Positive => Decimal.write n.val).getD []
  | .count, v => (v.map fun n : Positive => Decimal.write n.val).getD []
  | .ending, v => (v.map DateToken.spelling).getD []
  | .byMonth, v => Text.join ',' (v.val.map fun n => Decimal.write n.val)
  | .byMonthDay, v => Text.join ',' (v.map fun n : MonthDay => Decimal.write n.val)
  | .byDay, v => Text.join ',' (v.map DayEntry.write)
  | .exdate, v => Text.join ',' (v.map DateToken.spelling)

/-- The tokens of a part. -/
def tokens : (key : Key) → key.Value → List DateToken
  | .ending, v => v.toList
  | .exdate, v => v
  | .freq, _ | .interval, _ | .count, _ | .byMonth, _ | .byMonthDay, _ | .byDay, _ => []

/-- A part whose tokens show the readings that are written for them. -/
def renderPart (zone : Zone) : (key : Key) → key.Value → Except CalendarFault key.Value
  | .ending, none => .ok none
  | .ending, some token => some <$> token.render zone
  | .exdate, v => v.mapM (DateToken.render zone)
  | .freq, v => .ok v
  | .interval, v => .ok v
  | .count, v => .ok v
  | .byMonth, v => .ok v
  | .byMonthDay, v => .ok v
  | .byDay, v => .ok v

/-- A part with the tokens that the spellings of its tokens are read as. -/
def rereadPart (zone : Zone) : (key : Key) → key.Value → key.Value
  | .ending, v => v.map (DateToken.reread zone)
  | .exdate, v => v.map (DateToken.reread zone)
  | .freq, v => v
  | .interval, v => v
  | .count, v => v
  | .byMonth, v => v
  | .byMonthDay, v => v
  | .byDay, v => v

/-- The numbers of a part that have no bound. -/
def numerals : (key : Key) → key.Value → List Nat
  | .interval, v => v.toList.map fun n : Positive => n.val
  | .count, v => v.toList.map fun n : Positive => n.val
  | .byDay, v => v.map fun entry : DayEntry => entry.ordinal.natAbs
  | .freq, _ | .ending, _ | .byMonth, _ | .byMonthDay, _ | .exdate, _ => []

variable {zone : Zone} {f : Fields} {key : Key} {value : List Char} {v : key.Value}

/-- A number is spelled unless it has too many digits. -/
theorem spellNumber_eq_ok {n : Nat} {spelling text : List Char} :
    spellNumber n spelling = .ok text ↔
      (Decimal.write n).length ≤ Text.numeralLimit ∧ spelling = text := by
  unfold spellNumber
  split <;> simp [*]

/-- So is a positive integer that is given, and nothing if none is. -/
theorem spellPositive_eq_ok {given : Option Positive} {text : List Char} :
    spellPositive given = .ok text ↔
      (∀ n ∈ given.toList.map (·.val), (Decimal.write n).length ≤ Text.numeralLimit) ∧
        (given.map fun n => Decimal.write n.val).getD [] = text := by
  cases given with
  | none => exact ⟨fun h => ⟨nofun, Except.ok.inj h⟩, fun h => congrArg Except.ok h.2⟩
  | some n =>
    rw [spellPositive, spellNumber_eq_ok, Option.toList_some, List.map_singleton,
      List.forall_mem_singleton]
    rfl

/-- The value of a key is the spelling of its part, if no number of the part is too long and its
tokens can be shown. -/
theorem writeValue_eq (zone : Zone)
    (short : ∀ n ∈ numerals key (f.draft.part key), (Decimal.write n).length ≤ Text.numeralLimit) :
    f.writeValue zone key = orFail (spellPart key <$> renderPart zone key (f.draft.part key)) := by
  cases key with
  | interval | count => exact spellPositive_eq_ok.2 ⟨short, rfl⟩
  -- A token is shown before it is spelled
  | ending =>
    simp only [Fields.writeValue, Fields.draft, Draft.part]
    cases f.ending with
    | none => rfl
    | some token =>
      simp only [DateToken.write_eq, renderPart]
      exact congrArg orFail (Functor.map_map some (spellPart .ending) _).symm
  | byDay =>
    refine Except.map_eq_ok.2 ⟨f.byDay.map DayEntry.write, ?_, rfl⟩
    rw [Except.mapM_eq_ok, List.forall₂_map_right_iff, List.forall₂_same]
    exact fun entry mem => spellNumber_eq_ok.2 ⟨short _ (List.mem_map_of_mem mem), rfl⟩
  | exdate =>
    simp only [Fields.writeValue, Fields.draft, Draft.part, renderPart]
    rw [funext (DateToken.write_eq zone), Except.mapM_map]
    exact congrArg orFail (Functor.map_map (List.map DateToken.spelling) (Text.join ',') _)
  | freq | byMonth | byMonthDay => rfl

/-- No number of a part that is written is too long. -/
theorem short_of_writeValue (h : f.writeValue zone key = .ok value) :
    ∀ n ∈ numerals key (f.draft.part key), (Decimal.write n).length ≤ Text.numeralLimit := by
  cases key with
  | interval | count => exact (spellPositive_eq_ok.1 h).1
  | byDay =>
    obtain ⟨spelled, hspelled, -⟩ := Except.map_eq_ok.1 h
    refine List.forall_mem_map.2 fun entry mem => ?_
    obtain ⟨text, written⟩ := Except.exists_of_mapM hspelled mem
    exact (spellNumber_eq_ok.1 written).1
  | freq | ending | byMonth | byMonthDay | exdate =>
    exact fun _ mem => absurd mem List.not_mem_nil

/-- The spelling of a part can stand in a value. -/
theorem isValue_spellPart (key : Key) (v : key.Value) : Text.IsValue (spellPart key v) := by
  -- Names and numbers stand alone, lists are joined by commas
  cases key with
  | freq =>
    cases v with
    | none => exact fun _ h => absurd h List.not_mem_nil
    | some freq =>
      have letters : freq.name.toList.all Char.isAlphanum = true := by
        cases freq <;> decide
      exact fun c hc => .inl (.inl (List.all_eq_true.1 letters c hc))
  | interval | count =>
    cases v with
    | none => exact fun _ h => absurd h List.not_mem_nil
    | some n => exact (Decimal.isItem_write n.val).isValue
  | ending =>
    cases v with
    | none => exact fun _ h => absurd h List.not_mem_nil
    | some token => exact token.isItem_spelling.isValue
  | byMonth =>
    refine Text.isValue_join (List.forall_mem_map.2 ?_)
    exact fun n _ => Decimal.isItem_write n.val
  | byMonthDay =>
    refine Text.isValue_join (List.forall_mem_map.2 ?_)
    exact fun n _ => Decimal.isItem_write n.val
  | byDay => exact Text.isValue_join (List.forall_mem_map.2 fun entry _ => entry.isItem_write)
  | exdate => exact Text.isValue_join (List.forall_mem_map.2 fun token _ => token.isItem_spelling)

/-- The spelling of all present parts, their tokens by their own readings. -/
def spell (f : Fields) : List Char :=
  Text.join ';' (f.orderedKeys.map fun key => segment (key, spellPart key (f.draft.part key)))

/-- A segment is the spelling of its part behind the name of its key. -/
theorem writeSegment_eq (zone : Zone)
    (short : ∀ n ∈ numerals key (f.draft.part key), (Decimal.write n).length ≤ Text.numeralLimit) :
    f.writeSegment zone key = orFail ((fun v => segment (key, spellPart key v)) <$>
      renderPart zone key (f.draft.part key)) := by
  rw [Fields.writeSegment, writeValue_eq zone short]
  cases renderPart zone key (f.draft.part key) <;> rfl

/-- No segment has a semicolon in it. -/
theorem not_mem_segment {key : Key} {value : List Char} (h : Text.IsValue value) :
    ';' ∉ segment (key, value) := by
  unfold segment
  simp only [List.mem_append, List.mem_cons, not_or]
  refine ⟨?_, by decide, ?_⟩
  · intro hc
    exact absurd (key.name_spec.2 _ hc) (by decide)
  · intro hc
    exact absurd (h _ hc) (by decide)

/-! ## Read, then written -/

/-- The tokens of a part that is read show their own readings. -/
theorem render_of_readPart (h : readPart zone key value = .ok v) :
    renderPart zone key v = .ok v := by
  -- Only the parts with tokens are shown
  cases key with
  | ending =>
    obtain ⟨token, htoken, rfl⟩ := Except.map_eq_ok.1 h
    show some <$> token.render zone = _
    rw [DateToken.render_of_read htoken]
    rfl
  | exdate =>
    obtain ⟨tokens, -, hv⟩ := Except.bind_eq_ok.1 h
    refine Except.mapM_eq_ok.2 (List.forall₂_same.2 fun token htoken => ?_)
    obtain ⟨text, -, hread⟩ := (Except.mem_mapM hv).1 htoken
    exact DateToken.render_of_read hread
  | freq | interval | count | byMonth | byMonthDay | byDay => rfl

/-- No number that is read is too long to be written. -/
theorem short_of_readPart (h : readPart zone key value = .ok v) :
    ∀ n ∈ numerals key v, (Decimal.write n).length ≤ Text.numeralLimit := by
  -- Every number without a bound is read by its digits
  cases key with
  | interval | count =>
    obtain ⟨n, hn, rfl⟩ := Except.map_eq_ok.1 h
    have read := (readInteger_eq_ok.1 (readPositive_eq_ok.1 hn)).2
    rw [Int.natAbs_natCast] at read
    exact List.forall_mem_singleton.2 read
  | byDay =>
    obtain ⟨tokens, -, hv⟩ := Except.bind_eq_ok.1 h
    refine List.forall_mem_map.2 fun entry mem => ?_
    obtain ⟨token, -, hread⟩ := (Except.mem_mapM hv).1 mem
    exact (readDayEntry_eq_ok.1 hread).2
  | freq | ending | byMonth | byMonthDay | exdate =>
    exact fun _ mem => absurd mem List.not_mem_nil

/-- A positive integer is written as it stood, if no line break follows it. -/
theorem write_eq_iff_of_readPositive {name : String} {n : Positive}
    (h : readPositive name value = .ok n) :
    Decimal.write n.val = value ↔ Text.IsPlain value := by
  have spelled := (readInteger_eq_ok.1 (readPositive_eq_ok.1 h)).1
  rw [Decimal.writeInt_natCast] at spelled
  exact eq_token_iff (Decimal.isItem_write _) spelled

/-- The frequency of a name is the one that is written so. -/
theorem readFrequency_eq_ok {name : String} {freq : Frequency} :
    readFrequency name value = .ok freq ↔ value = freq.name.toList := by
  have known : Frequency.ofName? value = some freq ↔ value = freq.name.toList := by
    constructor
    · intro h
      have found := List.find?_some h
      exact (beq_iff_eq.1 found).symm
    · rintro rfl
      cases freq <;> rfl
  rw [← known, readFrequency]
  cases Frequency.ofName? value <;> simp [refuse]

theorem spellPart_eq_iff (h : readPart zone key value = .ok v) :
    spellPart key v = value ↔
      Text.IsPlain value ∧ ∀ token ∈ tokens key v, 1000 ≤ token.moment.date.year := by
  -- Of all parts only the two with tokens have a say in the years
  have plain_only (same : spellPart key v = value ↔ Text.IsPlain value)
      (no_tokens : tokens key v = []) : spellPart key v = value ↔
        Text.IsPlain value ∧ ∀ token ∈ tokens key v, 1000 ≤ token.moment.date.year := by
    rw [same, no_tokens]
    simp
  -- Names and numbers are compared as a whole, lists item by item
  cases key with
  | freq =>
    obtain ⟨freq, hfreq, rfl⟩ := Except.map_eq_ok.1 h
    refine plain_only ?_ rfl
    have same := readFrequency_eq_ok.1 hfreq
    rw [same]
    exact ⟨fun _ => (isValue_spellPart .freq (some freq)).isPlain, fun _ => rfl⟩
  | interval | count =>
    obtain ⟨n, hn, rfl⟩ := Except.map_eq_ok.1 h
    exact plain_only (write_eq_iff_of_readPositive hn) rfl
  | ending =>
    obtain ⟨token, htoken, rfl⟩ := Except.map_eq_ok.1 h
    show token.spelling = value ↔ _ ∧ ∀ t ∈ [token], _
    rw [List.forall_mem_singleton]
    exact DateToken.spelling_eq_iff htoken
  | byMonth =>
    refine plain_only ?_ rfl
    refine join_eq_iff_isPlain (fun n => Decimal.isItem_write n.val) ?_ (readMonths_eq_ok.1 h)
    intro token n hn
    rw [(readInteger_eq_ok.1 (readMonth_eq_ok.1 hn)).1, Decimal.writeInt_natCast]
  | byMonthDay =>
    refine plain_only ?_ rfl
    refine join_eq_iff_isPlain (fun n : MonthDay => Decimal.isItem_write n.val) ?_ h
    intro token n hn
    rw [(readInteger_eq_ok.1 (readMonthDay_eq_ok.1 hn)).1, Decimal.writeInt_natCast]
  | byDay =>
    refine plain_only ?_ rfl
    refine join_eq_iff_isPlain DayEntry.isItem_write ?_ h
    exact fun token entry hentry => (readDayEntry_eq_ok.1 hentry).1
  | exdate =>
    exact join_spell_eq_iff DateToken.isItem_spelling
      (fun token t ht => DateToken.spelling_eq_iff ht) h

/-- A part that is read is present. -/
theorem has_of_readPart (h : readPart zone key value = .ok (f.draft.part key)) :
    f.has key = true := by
  -- What is read is a value, and a list that is read has an item
  cases key with
  | freq => rfl
  | interval =>
    obtain ⟨n, -, same⟩ := Except.map_eq_ok.1 h
    have same : some n = f.interval := same
    simp [Fields.has, ← same]
  | count =>
    obtain ⟨n, -, same⟩ := Except.map_eq_ok.1 h
    have same : some n = f.count := same
    simp [Fields.has, ← same]
  | ending =>
    obtain ⟨token, -, same⟩ := Except.map_eq_ok.1 h
    have same : some token = f.ending := same
    simp [Fields.has, ← same]
  | byMonth =>
    have ne : f.byMonth.val ≠ [] := ne_nil_of_readItems (readMonths_eq_ok.1 h)
    simpa [Fields.has] using ne
  | byMonthDay =>
    have ne : f.byMonthDay ≠ [] := ne_nil_of_readItems h
    simpa [Fields.has] using ne
  | byDay =>
    have ne : f.byDay ≠ [] := ne_nil_of_readItems h
    simpa [Fields.has] using ne
  | exdate =>
    have ne : f.exdates ≠ [] := ne_nil_of_readItems h
    simpa [Fields.has] using ne

/-- A part is present exactly if it is not that of the empty draft. -/
theorem has_eq_false_iff : f.has key = false ↔ f.draft.part key = ({} : Draft).part key := by
  -- An empty draft has no values and only empty lists
  cases key with
  | freq =>
    show true = false ↔ some f.freq = none
    simp
  | interval =>
    show f.interval.isSome = false ↔ f.interval = none
    simp
  | count =>
    show f.count.isSome = false ↔ f.count = none
    simp
  | ending =>
    show f.ending.isSome = false ↔ f.ending = none
    simp
  | byMonth =>
    show (!f.byMonth.val.isEmpty) = false ↔ f.byMonth = .empty
    simp [Subtype.ext_iff, MonthList.empty]
  | byMonthDay =>
    show (!f.byMonthDay.isEmpty) = false ↔ f.byMonthDay = []
    simp
  | byDay =>
    show (!f.byDay.isEmpty) = false ↔ f.byDay = []
    simp
  | exdate =>
    show (!f.exdates.isEmpty) = false ↔ f.exdates = []
    simp

/-! ## Written, then read -/

/-- The spelling of a positive integer is read as that, unless it is too long. -/
theorem readPositive_write (name : String) {n : Positive}
    (h : (Decimal.write n.val).length ≤ Text.numeralLimit) :
    readPositive name (Decimal.write n.val) = .ok n := by
  rw [readPositive_eq_ok, readInteger_eq_ok, Decimal.writeInt_natCast]
  exact ⟨dropFinalBreak_of_isItem (Decimal.isItem_write _), h⟩

/-- A number of two digits is short enough. -/
theorem readInteger_write_small (name : String) {n : Nat} (h : n < 100) :
    readInteger name (Decimal.write n) = .ok n := by
  have short := Decimal.length_write_le (k := 2) (by decide) h
  have room : 2 ≤ Text.numeralLimit := by decide
  rw [readInteger_eq_ok, Decimal.writeInt_natCast, Int.natAbs_natCast]
  exact ⟨dropFinalBreak_of_isItem (Decimal.isItem_write _), by omega⟩

/-- Joined spellings are the items of a value. -/
theorem readItems_spelled {α : Type} (name : String) {vs : List α} {spell : α → List Char}
    (ne : vs ≠ []) (item : ∀ v, Text.IsItem (spell v)) (given : ∀ v, spell v ≠ []) :
    readItems name (Text.join ',' (vs.map spell)) = .ok (vs.map spell) := by
  apply readItems_join
  · simpa using ne
  · exact List.forall_mem_map.2 fun v _ => ⟨item v, given v⟩

/-- Spelled items are read back one by one. -/
theorem readItems_join_spell {α : Type} (name : String) (reread : α → α) {vs : List α}
    {read : List Char → Except Failure α} {spell : α → List Char} (ne : vs ≠ [])
    (item : ∀ v, Text.IsItem (spell v)) (given : ∀ v, spell v ≠ [])
    (spec : ∀ v ∈ vs, read (spell v) = .ok (reread v)) :
    (readItems name (Text.join ',' (vs.map spell)) >>= fun tokens => tokens.mapM read) =
      .ok (vs.map reread) := by
  refine Except.bind_eq_ok.2 ⟨_, readItems_spelled name ne item given, ?_⟩
  rw [Except.mapM_eq_ok, List.forall₂_map_left_iff, List.forall₂_map_right_iff]
  exact List.forall₂_same.2 spec

/-- The spelling of a part that is present reads back, its tokens in the zones that their marks
tell. -/
theorem readPart_spellPart (present : v ≠ ({} : Draft).part key)
    (short : ∀ n ∈ numerals key v, (Decimal.write n).length ≤ Text.numeralLimit)
    (readable : ∀ token ∈ tokens key v, token.IsReadable) :
    readPart zone key (spellPart key v) = .ok (rereadPart zone key v) := by
  -- Values are read alone, and lists item by item
  cases key with
  | freq =>
    cases v with
    | none => exact absurd rfl present
    | some freq => exact Except.map_eq_ok.2 ⟨freq, readFrequency_eq_ok.2 rfl, rfl⟩
  | interval | count =>
    cases v with
    | none => exact absurd rfl present
    | some n =>
      exact Except.map_eq_ok.2 ⟨n, readPositive_write _ (short n.val (by simp [numerals])), rfl⟩
  | ending =>
    cases v with
    | none => exact absurd rfl present
    | some token =>
      have read := DateToken.read_spelling zone (some Key.ending.name)
        (readable token (by simp [tokens]))
      exact Except.map_eq_ok.2 ⟨_, read, rfl⟩
  | byMonth =>
    -- A month has at most two digits, so no limit on digits matters
    have ne : v.val ≠ [] := fun empty => present (Subtype.ext empty)
    have each (n : MonthNumber) : readMonth Key.byMonth.name (Decimal.write n.val) = .ok n :=
      readMonth_eq_ok.2 (readInteger_write_small _ (by have := n.property; omega))
    have read := readItems_join_spell Key.byMonth.name id ne
      (fun n => Decimal.isItem_write n.val) (fun n => Decimal.write_ne_nil n.val)
      fun n _ => each n
    rw [List.map_id] at read
    exact readMonths_eq_ok.2 read
  | byMonthDay =>
    change List MonthDay at v
    have each (n : MonthDay) : readMonthDay Key.byMonthDay.name (Decimal.write n.val) = .ok n :=
      readMonthDay_eq_ok.2 (readInteger_write_small _ (by have := n.property; omega))
    have read := readItems_join_spell Key.byMonthDay.name id present
      (fun n => Decimal.isItem_write n.val) (fun n => Decimal.write_ne_nil n.val)
      fun n _ => each n
    rw [List.map_id] at read
    exact read
  | byDay =>
    change List DayEntry at v
    have each (entry : DayEntry) (hentry : entry ∈ v) :
        readDayEntry Key.byDay.name entry.write = .ok entry := by
      refine readDayEntry_eq_ok.2 ⟨dropFinalBreak_of_isItem entry.isItem_write, ?_⟩
      exact short _ (List.mem_map_of_mem hentry)
    have read := readItems_join_spell Key.byDay.name id present DayEntry.isItem_write
      DayEntry.write_ne_nil each
    rw [List.map_id] at read
    exact read
  | exdate =>
    exact readItems_join_spell Key.exdate.name (DateToken.reread zone) present
      DateToken.isItem_spelling DateToken.spelling_ne_nil
      fun token htoken => DateToken.read_spelling zone _ (readable token htoken)

end RuleText

end Recurrence
