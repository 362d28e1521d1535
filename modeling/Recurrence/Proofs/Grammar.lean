import Recurrence.Proofs.Refusals

/-!
# The grammar of rule text

What rule text is and what it denotes, apart from how it is read: segments between semicolons, each
a key and a value, and values that are names, numbers, tokens or lists of them. Of the texts of
printable ASCII characters, the reader takes the rule texts and no others.

* `RuleText.Spells`: the values of a key, and what they denote.
* `RuleText.WellFormed`, `RuleText.Denotes`: whole texts, and the parts that they denote.
* `Fields.read_iff_denotes`: what is read is what is denoted.
-/

namespace Recurrence

/-! ## Pieces -/

namespace Text

variable {separator : Char} {pieces : List (List Char)} {piece text : List Char}

/-- A text that consists of pieces, at least one, with a separator between each two and nowhere
else. -/
structure Joins (separator : Char) (pieces : List (List Char)) (text : List Char) : Prop where
  given : pieces ≠ []
  apart : ∀ piece ∈ pieces, separator ∉ piece
  joined : join separator pieces = text

/-- There is one way only to take a text to pieces. -/
theorem joins_iff : Joins separator pieces text ↔ split separator text = pieces := by
  constructor
  · intro h
    rw [← h.joined, split_join h.given h.apart]
  · rintro rfl
    exact ⟨split_ne_nil _ _, fun _ => not_mem_of_mem_split, join_split _ _⟩

/-- A text whose items, with commas between them, spell values one by one. -/
def Lists {α : Type} (spells : List Char → α → Prop) (text : List Char) (vs : List α) : Prop :=
  ∃ items, Joins ',' items text ∧ List.Forall₂ spells items vs

/-- A list that is spelled has an item. -/
theorem Lists.ne_nil {α : Type} {spells : List Char → α → Prop} {vs : List α}
    (h : Lists spells text vs) : vs ≠ [] := by
  obtain ⟨items, pieces, pairs⟩ := h
  rintro rfl
  exact pieces.given (List.forall₂_nil_right_iff.1 pairs)

/-- A text without more digits in a row than a numeral may have. -/
def HasShortNumerals (text : List Char) : Prop :=
  ∀ digits, digits <:+: text → (∀ c ∈ digits, c.isDigit = true) → digits.length ≤ numeralLimit

/-- A text without a line break and without numbers that are too long to be read. -/
structure IsLegible (text : List Char) : Prop where
  unbroken : '\n' ∉ text
  short : HasShortNumerals text

/-- A piece of a legible text is legible. -/
theorem IsLegible.mono (h : IsLegible text) (inside : piece <:+: text) : IsLegible piece :=
  ⟨fun mem => h.unbroken (inside.mem mem),
    fun digits within => h.short digits (within.trans inside)⟩

/-- A legible text has no line break to drop. -/
theorem IsLegible.dropFinalBreak_eq (h : IsLegible text) :
    RuleText.dropFinalBreak text = text :=
  (RuleText.dropFinalBreak_eq_iff h.unbroken).2 (.inl rfl)

end Text

/-! ## Numbers -/

/-- Digits that spell a number: ASCII digits, the first of which is not zero. -/
structure Decimal.Spells (text : List Char) (n : Nat) : Prop where
  ascii : ∀ c ∈ text, c.isDigit = true
  leading : ∃ c ∈ text.head?, c ≠ '0'
  value : Decimal.value (text.map digitValue) = n

namespace Decimal

variable {text : List Char} {n : Nat}

/-- A numeral counts if it has digits only and does not begin with zero. -/
theorem isCounting_iff_leading : RuleText.isCounting text = true ↔
    (∀ c ∈ text, c.isDigit = true) ∧ ∃ c ∈ text.head?, c ≠ '0' := by
  cases text with
  | nil => simp [RuleText.isCounting]
  | cons c rest =>
    simp only [RuleText.isCounting_cons, Bool.and_eq_true, bne_iff_ne, ne_eq, List.all_eq_true,
      List.forall_mem_cons, List.head?_cons, Option.mem_some_iff, exists_eq_left']
    tauto

/-- The numerals that spell a number are what is written for it, if it is positive. -/
theorem spells_iff : Spells text n ↔ 0 < n ∧ text = write n := by
  constructor
  · intro ⟨ascii, leading, value⟩
    obtain ⟨m, pos, rfl⟩ := RuleText.isCounting_iff.1 (isCounting_iff_leading.2 ⟨ascii, leading⟩)
    rw [write_value] at value
    rw [← value]
    exact ⟨pos, rfl⟩
  · rintro ⟨pos, rfl⟩
    obtain ⟨ascii, leading⟩ := isCounting_iff_leading.1 (RuleText.isCounting_write pos)
    exact ⟨ascii, leading, write_value n⟩

/-- No numeral is empty. -/
theorem Spells.ne_nil (h : Spells text n) : text ≠ [] := by
  obtain ⟨c, hc, -⟩ := h.leading
  rintro rfl
  exact absurd hc (by simp)

end Decimal

/-- A weekday code, or an ordinal and a weekday code. -/
inductive DayEntry.Spells : List Char → DayEntry → Prop
  | every (w : Weekday) : Spells w.code.toList ⟨0, w⟩
  | fromStart {digits : List Char} {n : Nat} (h : Decimal.Spells digits n) (w : Weekday) :
      Spells (digits ++ w.code.toList) ⟨n, w⟩
  | fromEnd {digits : List Char} {n : Nat} (h : Decimal.Spells digits n) (w : Weekday) :
      Spells ('-' :: (digits ++ w.code.toList)) ⟨-n, w⟩

/-- The texts that spell an entry are what is written for it. -/
theorem DayEntry.spells_iff {text : List Char} {entry : DayEntry} :
    Spells text entry ↔ text = entry.write := by
  constructor
  · intro h
    cases h with
    | every w => rfl
    | fromStart h w =>
      obtain ⟨pos, rfl⟩ := Decimal.spells_iff.1 h
      exact (write_natCast pos w).symm
    | fromEnd h w =>
      obtain ⟨pos, rfl⟩ := Decimal.spells_iff.1 h
      exact (write_neg pos w).symm
  · rintro rfl
    obtain ⟨ordinal, w⟩ := entry
    -- An ordinal is none, or it counts from the start or from the end
    obtain rfl | ⟨m, pos, rfl | rfl⟩ := Decimal.zero_or_signed ordinal
    · exact .every w
    · rw [write_natCast pos]
      exact .fromStart (Decimal.spells_iff.2 ⟨pos, rfl⟩) w
    · rw [write_neg pos]
      exact .fromEnd (Decimal.spells_iff.2 ⟨pos, rfl⟩) w

/-! ## Values -/

namespace RuleText

variable {zone : Zone} {key : Key} {text value : List Char} {v : key.Value}

/-- The values of a key, and what they denote. -/
def Spells (zone : Zone) : (key : Key) → List Char → key.Value → Prop
  | .freq, value, v => ∃ freq : Frequency, value = freq.name.toList ∧ v = some freq
  | .interval, value, v => ∃ n : Positive, Decimal.Spells value n.val ∧ v = some n
  | .count, value, v => ∃ n : Positive, Decimal.Spells value n.val ∧ v = some n
  | .ending, value, v =>
    ∃ token, DateToken.read zone (some Key.ending.name) value = .ok token ∧ v = some token
  | .byMonth, value, v =>
    Text.Lists (fun item (n : MonthNumber) => Decimal.Spells item n.val) value v.val
  | .byMonthDay, value, v =>
    Text.Lists (fun item (n : MonthDay) => Decimal.Spells item n.val) value v
  | .byDay, value, v => Text.Lists DayEntry.Spells value v
  | .exdate, value, v =>
    Text.Lists (fun item token => DateToken.read zone (some Key.exdate.name) item = .ok token)
      value v

/-- A legible token is read as a positive number if it spells it. -/
theorem readInteger_iff_spells (legible : Text.IsLegible text) {name : String} {n : Nat}
    (pos : 0 < n) : readInteger name text = .ok n ↔ Decimal.Spells text n := by
  rw [readInteger_eq_ok, legible.dropFinalBreak_eq, Decimal.writeInt_natCast, Int.natAbs_natCast,
    Decimal.spells_iff]
  constructor
  · exact fun h => ⟨pos, h.1⟩
  · intro ⟨_, same⟩
    have short := legible.short text List.infix_rfl
    rw [same] at short ⊢
    exact ⟨rfl, short fun _ hc => Decimal.isDigit_of_mem_write hc⟩

/-- A legible token is read as an entry if it spells it. -/
theorem readDayEntry_iff_spells (legible : Text.IsLegible text) {name : String} {entry : DayEntry} :
    readDayEntry name text = .ok entry ↔ DayEntry.Spells text entry := by
  rw [readDayEntry_eq_ok, legible.dropFinalBreak_eq, DayEntry.spells_iff]
  refine ⟨And.left, fun same => ⟨same, ?_⟩⟩
  -- The digits of the ordinal are a part of the text, if there is one
  have short {m : Nat} (inside : Decimal.write m <:+: text) :
      (Decimal.write m).length ≤ Text.numeralLimit :=
    legible.short _ inside fun _ hc => Decimal.isDigit_of_mem_write hc
  obtain ⟨ordinal, w⟩ := entry
  obtain rfl | ⟨m, pos, rfl | rfl⟩ := Decimal.zero_or_signed ordinal
  · rw [Int.natAbs_zero, Decimal.write_zero]
    decide
  · rw [DayEntry.write_natCast pos] at same
    rw [Int.natAbs_natCast]
    exact short (same ▸ (List.prefix_append _ _).isInfix)
  · rw [DayEntry.write_neg pos] at same
    rw [Int.natAbs_neg, Int.natAbs_natCast]
    exact short (same ▸ ((List.prefix_append _ _).isInfix.trans (List.suffix_cons _ _).isInfix))

/-- Items that are read as they are spelled make up lists that are read as they are spelled. -/
theorem readItems_iff_lists {α : Type} {name : String} {read : List Char → Except Failure α}
    {spells : List Char → α → Prop} {vs : List α} (legible : Text.IsLegible value)
    (spec : ∀ item, Text.IsLegible item → ∀ v, read item = .ok v ↔ spells item v)
    (given : ∀ v, ¬spells [] v) :
    (readItems name value >>= fun tokens => tokens.mapM read) = .ok vs ↔
      Text.Lists spells value vs := by
  have each : List.Forall₂ (fun item v => read item = .ok v) (Text.split ',' value) vs ↔
      List.Forall₂ spells (Text.split ',' value) vs :=
    List.forall₂_congr_of_mem fun item mem =>
      spec item (legible.mono (Text.isInfix_of_mem_split mem))
  rw [Except.bind_eq_ok]
  constructor
  · intro ⟨items, hitems, hread⟩
    obtain ⟨rfl, -⟩ := readItems_eq_ok.1 hitems
    exact ⟨_, Text.joins_iff.2 rfl, each.1 (Except.mapM_eq_ok.1 hread)⟩
  · intro ⟨items, pieces, pairs⟩
    obtain rfl := Text.joins_iff.1 pieces
    -- The reader looks for empty items before it reads any, but no item that is spelled is empty
    have nonempty : ∀ item ∈ Text.split ',' value, item ≠ [] :=
      ((List.forall₂_and_left _ _).1 (pairs.imp fun item v h =>
        (⟨fun empty => given v (empty ▸ h), h⟩ : item ≠ [] ∧ spells item v))).1
    exact ⟨_, readItems_eq_ok.2 ⟨rfl, fun empty => nonempty [] empty rfl⟩,
      Except.mapM_eq_ok.2 (each.2 pairs)⟩

/-- A part of at most one member is read as what its text is read as. -/
theorem map_some_eq_ok {α : Type} {x : Except Failure α} {v : Option α} :
    some <$> x = .ok v ↔ ∃ a, x = .ok a ∧ v = some a := by
  rw [Except.map_eq_ok]
  exact exists_congr fun a => and_congr_right fun _ => eq_comm

/-- A legible value is read as a positive integer if it spells it. -/
theorem readPositive_iff_spells (legible : Text.IsLegible value) {name : String} {n : Positive} :
    readPositive name value = .ok n ↔ Decimal.Spells value n.val :=
  readPositive_eq_ok.trans (readInteger_iff_spells legible n.property)

/-- A value is read as what it denotes. -/
theorem readPart_iff_spells (legible : Text.IsLegible value) :
    readPart zone key value = .ok v ↔ Spells zone key value v := by
  have undated {name : Option String} (token : DateToken) :
      ¬DateToken.read zone name [] = .ok token := fun h => by injection h
  -- Values are read alone, and lists item by item
  cases key with
  | freq =>
    refine map_some_eq_ok.trans (exists_congr fun freq => and_congr_left fun _ => ?_)
    exact readFrequency_eq_ok
  | interval | count =>
    refine map_some_eq_ok.trans (exists_congr fun n => and_congr_left fun _ => ?_)
    exact readPositive_iff_spells legible
  | ending => exact map_some_eq_ok
  | byMonth =>
    refine readMonths_eq_ok.trans (readItems_iff_lists legible ?_ fun _ h => h.ne_nil rfl)
    intro item legible n
    exact readMonth_eq_ok.trans (readInteger_iff_spells legible n.property.1)
  | byMonthDay =>
    refine readItems_iff_lists legible ?_ fun _ h => h.ne_nil rfl
    intro item legible n
    exact readMonthDay_eq_ok.trans (readInteger_iff_spells legible n.property.1)
  | byDay =>
    refine readItems_iff_lists legible (fun item legible _ => readDayEntry_iff_spells legible) ?_
    exact fun entry h => entry.write_ne_nil (DayEntry.spells_iff.1 h).symm
  | exdate => exact readItems_iff_lists legible (fun _ _ _ => Iff.rfl) undated

/-- No part is read from an empty value. -/
theorem readPart_nil (zone : Zone) (key : Key) (v : key.Value) :
    readPart zone key [] ≠ .ok v := by
  cases key <;> exact fun h => by injection h

/-! ## Whole texts -/

/-- Rule text: segments between semicolons, each with a key of its own and a value of that key. The
frequency is given, and days of the month and weekdays are not both given. -/
def WellFormed (zone : Zone) (text : List Char) : Prop :=
  ∃ entries : List (Key × List Char), Text.Joins ';' (entries.map segment) text ∧
    (entries.map Prod.fst).Nodup ∧ .freq ∈ entries.map Prod.fst ∧
    ¬(.byMonthDay ∈ entries.map Prod.fst ∧ .byDay ∈ entries.map Prod.fst) ∧
    ∀ entry ∈ entries, ∃ v, Spells zone entry.1 entry.2 v

/-- The parts that a text denotes: those that its values spell, in their order, and no others. -/
def Denotes (zone : Zone) (text : List Char) (f : Fields) : Prop :=
  ∃ entries : List (Key × List Char), Text.Joins ';' (entries.map segment) text ∧
    (entries.map Prod.fst).Nodup ∧ f.keyOrder = entries.map Prod.fst ∧
    (∀ entry ∈ entries, Spells zone entry.1 entry.2 (f.draft.part entry.1)) ∧
    ∀ key ∉ entries.map Prod.fst, f.draft.part key = ({} : Draft).part key

variable {entries : List (Key × List Char)} {f : Fields}

/-- The segments of a text are parts of it. -/
theorem legible_of_mem (legible : Text.IsLegible text)
    (pieces : Text.Joins ';' (entries.map segment) text) {entry : Key × List Char}
    (mem : entry ∈ entries) : Text.IsLegible entry.2 := by
  have inside : segment entry <:+: text := by
    rw [← pieces.joined]
    exact Text.isInfix_join (List.mem_map_of_mem mem)
  have value : entry.2 <:+: segment entry :=
    ((List.suffix_cons '=' entry.2).trans (List.suffix_append _ _)).isInfix
  exact legible.mono (value.trans inside)

/-- Parts are gathered from entries exactly if they are what the entries spell. -/
theorem gathers_iff_spells (legible : ∀ entry ∈ entries, Text.IsLegible entry.2) {draft : Draft} :
    Gathers zone {} entries draft ↔ (entries.map Prod.fst).Nodup ∧
      draft.keyOrder = entries.map Prod.fst ∧
      (∀ entry ∈ entries, Spells zone entry.1 entry.2 (draft.part entry.1)) ∧
      ∀ key ∉ entries.map Prod.fst, draft.part key = ({} : Draft).part key := by
  constructor
  · intro h
    refine ⟨h.distinct, h.keys, fun entry mem => ?_, h.others⟩
    exact (readPart_iff_spells (legible entry mem)).1 (h.read entry mem)
  · intro ⟨distinct, keys, spelled, others⟩
    have read : ∀ entry ∈ entries, readPart zone entry.1 entry.2 = .ok (draft.part entry.1) :=
      fun entry mem => (readPart_iff_spells (legible entry mem)).2 (spelled entry mem)
    refine ⟨fun entry mem empty => ?_, keys, distinct, fun _ _ => List.not_mem_nil, read, others⟩
    exact readPart_nil zone entry.1 _ (empty ▸ read entry mem)

/-- Values of different keys can be gathered. -/
theorem exists_gathers {draft : Draft} (distinct : (entries.map Prod.fst).Nodup)
    (new : ∀ entry ∈ entries, entry.1 ∉ draft.keyOrder)
    (spelled : ∀ entry ∈ entries, ∃ v, readPart zone entry.1 entry.2 = .ok v) :
    ∃ result, Gathers zone draft entries result := by
  induction entries generalizing draft with
  | nil => exact ⟨draft, gathers_nil.2 rfl⟩
  | cons entry entries ih =>
    obtain ⟨key, value⟩ := entry
    obtain ⟨fresh, distinct⟩ := List.nodup_cons.1 distinct
    obtain ⟨new_key, new⟩ := List.forall_mem_cons.1 new
    obtain ⟨⟨v, read⟩, spelled⟩ := List.forall_mem_cons.1 spelled
    have given : value ≠ [] := fun empty => readPart_nil zone key v (empty ▸ read)
    -- The other keys are new to the longer draft too, since no key is given twice
    have newer : ∀ entry ∈ entries, entry.1 ∉ (draft.add key v).keyOrder := by
      intro entry mem old
      rcases List.mem_append.1 old with old | same
      · exact new entry mem old
      · exact fresh (List.mem_map.2 ⟨entry, mem, List.mem_singleton.1 same⟩)
    obtain ⟨result, h⟩ := ih distinct newer spelled
    exact ⟨result, gathers_cons.2 ⟨new_key, given, v, read, h⟩⟩

/-- A legible text is well formed if it denotes something. -/
theorem wellFormed_iff_exists_denotes (legible : Text.IsLegible text) :
    WellFormed zone text ↔ ∃ f, Denotes zone text f := by
  constructor
  · intro ⟨entries, pieces, distinct, freq, exclusive, spelled⟩
    have legible : ∀ entry ∈ entries, Text.IsLegible entry.2 :=
      fun _ mem => legible_of_mem legible pieces mem
    -- Each value spells a part, so it is read as that part
    have read : ∀ entry ∈ entries, ∃ v, readPart zone entry.1 entry.2 = .ok v := by
      intro entry mem
      obtain ⟨v, h⟩ := spelled entry mem
      exact ⟨v, (readPart_iff_spells (legible entry mem)).2 h⟩
    obtain ⟨draft, h⟩ : ∃ draft, Gathers zone {} entries draft :=
      exists_gathers distinct (fun _ _ => List.not_mem_nil) read
    -- All parts have been gathered, so only their combination could still be refused
    cases hfinish : finish text draft with
    | ok f =>
      obtain rfl := finish_eq_ok.1 hfinish
      exact ⟨f, entries, pieces, (gathers_iff_spells legible).1 h⟩
    | error failure =>
      exfalso
      rcases finish_error hfinish with ⟨missing, -⟩ | ⟨days, weekdays, -⟩
      · obtain ⟨⟨key, value⟩, mem, rfl⟩ := List.mem_map.1 freq
        obtain ⟨freq, -, given⟩ := map_some_eq_ok.1 (h.read _ mem)
        exact absurd (missing.symm.trans given) nofun
      · exact exclusive ⟨by_contra fun absent => days (h.others .byMonthDay absent),
          by_contra fun absent => weekdays (h.others .byDay absent)⟩
  · intro ⟨f, entries, pieces, distinct, keys, spelled, others⟩
    refine ⟨entries, pieces, distinct, ?_, ?_, fun entry mem => ⟨_, spelled entry mem⟩⟩
    · -- The parts have a frequency, and a key that is not given has none
      by_contra absent
      exact absurd (others .freq absent) nofun
    · intro ⟨days, weekdays⟩
      obtain ⟨⟨key, value⟩, day, rfl⟩ := List.mem_map.1 days
      obtain ⟨⟨key, value⟩, weekday, rfl⟩ := List.mem_map.1 weekdays
      rcases f.dayFilters with none | none
      · exact Text.Lists.ne_nil (spelled _ day) none
      · exact Text.Lists.ne_nil (spelled _ weekday) none

end RuleText

namespace Fields

variable {zone : Zone} {text : String}

/-- A text of printable ASCII characters is read as given parts exactly if it denotes them. So it is
read exactly if it is rule text, and on any other text reading ends in a fault of rule text. -/
theorem read_iff_denotes (printable : ∀ c ∈ text.toList, 32 ≤ c.toNat ∧ c.toNat ≤ 126)
    (short : Text.HasShortNumerals text.toList) :
    (∀ f, Fields.read zone text = .ok f ↔ RuleText.Denotes zone text.toList f) ∧
      ((∃ f, Fields.read zone text = .ok f) ↔ RuleText.WellFormed zone text.toList) ∧
      (¬RuleText.WellFormed zone text.toList →
        ∃ fault, Fields.read zone text = .error (.rule fault)) := by
  have legible : Text.IsLegible text.toList :=
    ⟨fun mem => absurd (printable _ mem).1 (by decide), short⟩
  have denoted (f : Fields) :
      Fields.read zone text = .ok f ↔ RuleText.Denotes zone text.toList f := by
    refine read_eq_ok.trans (exists_congr fun entries => ?_)
    rw [Text.joins_iff]
    refine and_congr_right fun pieces => RuleText.gathers_iff_spells fun entry mem => ?_
    exact RuleText.legible_of_mem legible (Text.joins_iff.2 pieces) mem
  have accepted : (∃ f, Fields.read zone text = .ok f) ↔
      RuleText.WellFormed zone text.toList :=
    (exists_congr denoted).trans (RuleText.wellFormed_iff_exists_denotes legible).symm
  refine ⟨denoted, accepted, fun malformed => ?_⟩
  -- What is refused has a fault, for short numerals are never too long
  cases h : Fields.read zone text with
  | ok f => exact absurd (accepted.1 ⟨f, h⟩) malformed
  | error failure =>
    rcases RuleText.read_error h with ⟨fault, rfl⟩ | ⟨digits, inside, ascii, long⟩
    · exact ⟨fault, rfl⟩
    · exact absurd long (Nat.not_lt.2 (short digits inside ascii))

/-- The last Friday and all Mondays of a month, up to the tenth of them. -/
def fridaysAndMondays : Fields where
  freq := .monthly
  interval := none
  count := some ⟨10, Nat.succ_pos 9⟩
  ending := none
  byMonth := .empty
  byMonthDay := []
  byDay := [⟨-1, .friday⟩, ⟨0, .monday⟩]
  exdates := []
  keyOrder := [.count, .freq, .byDay]
  dayFilters := .inl rfl

/-- Ten times the last Friday and every Monday of a month. -/
theorem fridaysAndMondays_denoted :
    RuleText.Denotes (.region .utc) "COUNT=10;FREQ=MONTHLY;BYDAY=-1FR,MO".toList
      fridaysAndMondays := by
  have read : Fields.read (.region .utc) "COUNT=10;FREQ=MONTHLY;BYDAY=-1FR,MO" =
      .ok fridaysAndMondays := by decide +kernel
  have printable : ("COUNT=10;FREQ=MONTHLY;BYDAY=-1FR,MO".toList.all fun c =>
      decide (32 ≤ c.toNat ∧ c.toNat ≤ 126)) = true := by decide +kernel
  have short : Text.HasShortNumerals "COUNT=10;FREQ=MONTHLY;BYDAY=-1FR,MO".toList :=
    fun digits inside _ => Nat.le_trans inside.length_le (by decide +kernel)
  have all_printable c mem := of_decide_eq_true (List.all_eq_true.1 printable c mem)
  exact ((read_iff_denotes all_printable short).1 _).1 read

end Fields

end Recurrence
