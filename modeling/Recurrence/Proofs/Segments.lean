import Recurrence.Proofs.DateTokens

/-!
# Segments of rule text

Rule text gives one part of a rule after the other. Whatever the key, a segment adds its value to
the draft and leaves the other parts alone, so an accepted text and the parts that are read from it
determine each other key by key.

* `Key.Value`, `RuleText.readPart`: the value of a key, and how it is read on its own.
* `RuleText.readSegment_eq_ok`: what one segment does.
* `RuleText.foldlM_readSegment_eq_ok`: what all segments do.
* `Fields.read_eq_ok`: the texts that are read as given parts.
-/

namespace Recurrence

/-! ## Pieces of a text -/

namespace Text

variable {separator : Char} {pieces : List (List Char)}

/-- The characters of a piece are characters of the joined text. -/
theorem mem_join_of_mem {piece : List Char} (hp : piece ∈ pieces) {c : Char} (hc : c ∈ piece) :
    c ∈ join separator pieces := by
  induction pieces with
  | nil => exact absurd hp List.not_mem_nil
  | cons first rest ih =>
    cases rest with
    | nil =>
      rw [List.mem_singleton.1 hp] at hc
      exact hc
    | cons next rest =>
      rw [join, List.mem_append, List.mem_cons]
      rcases List.mem_cons.1 hp with rfl | hp
      · exact .inl hc
      · exact .inr (.inr (ih hp))

/-- What holds of the separator holds of a joined text exactly if it holds of each piece. -/
theorem forall_mem_join {p : Char → Prop} (h : p separator) :
    (∀ c ∈ join separator pieces, p c) ↔ ∀ piece ∈ pieces, ∀ c ∈ piece, p c := by
  constructor
  · exact fun all piece hp c hc => all c (mem_join_of_mem hp hc)
  · intro all
    -- What is not in a piece is a separator
    induction pieces with
    | nil => simp [join]
    | cons first rest ih =>
      cases rest with
      | nil => exact all first List.mem_cons_self
      | cons next rest =>
        rw [join, List.forall_mem_append, List.forall_mem_cons]
        exact ⟨all first List.mem_cons_self, h,
          ih fun piece hp => all piece (List.mem_cons_of_mem _ hp)⟩

/-- Pieces without the separator can be told from the joined text. -/
theorem join_inj {others : List (List Char)} (ne : pieces ≠ []) (ne' : others ≠ [])
    (h : ∀ piece ∈ pieces, separator ∉ piece) (h' : ∀ piece ∈ others, separator ∉ piece) :
    join separator pieces = join separator others ↔ pieces = others := by
  constructor
  · intro same
    rw [← split_join ne h, same, split_join ne' h']
  · rintro rfl
    rfl

/-- No piece has a separator in it. -/
theorem not_mem_of_mem_split {text piece : List Char} (h : piece ∈ split separator text) :
    separator ∉ piece := by
  induction text generalizing piece with
  | nil =>
    rw [List.mem_singleton.1 h]
    exact List.not_mem_nil
  | cons c text ih =>
    rw [split] at h
    split at h
    · rcases List.mem_cons.1 h with rfl | h
      · exact List.not_mem_nil
      · exact ih h
    · -- The character is none, and it is put at the front of the first piece
      rename_i other
      split at h
      · rename_i hs
        exact absurd hs (split_ne_nil separator text)
      · rename_i first rest hs
        rcases List.mem_cons.1 h with rfl | h
        · rw [List.mem_cons, not_or]
          exact ⟨fun same => other same.symm, ih (by rw [hs]; exact List.mem_cons_self)⟩
        · exact ih (by rw [hs]; exact List.mem_cons_of_mem _ h)

end Text

/-! ## Parts by key -/

namespace Key

/-- The values that the part of a key can have. -/
def Value : Key → Type
  | freq => Option Frequency
  | interval => Option Positive
  | count => Option Positive
  | ending => Option DateToken
  | byMonth => MonthList
  | byMonthDay => List MonthDay
  | byDay => List DayEntry
  | exdate => List DateToken

/-- The key of a name is the one that is written so. -/
theorem ofName?_eq_some {name : List Char} {key : Key} :
    ofName? name = some key ↔ name = key.name.toList := by
  constructor
  · intro h
    have found := List.find?_some h
    exact (beq_iff_eq.1 found).symm
  · rintro rfl
    cases key <;> rfl

/-- The letters of a key end before the equals sign. -/
theorem name_spec (key : Key) :
    key.name.toList ≠ [] ∧ ∀ c ∈ key.name.toList, c.isAlphanum = true := by
  have letters : key.name.toList.all Char.isAlphanum = true := by
    cases key <;> decide
  refine ⟨?_, List.all_eq_true.1 letters⟩
  cases key <;> decide

end Key

namespace RuleText

variable {zone : Zone} {draft result : Draft} {key other : Key} {value : List Char}

namespace Draft

/-- The part of a key. -/
def part (draft : Draft) : (key : Key) → key.Value
  | .freq => draft.freq
  | .interval => draft.interval
  | .count => draft.count
  | .ending => draft.ending
  | .byMonth => draft.byMonth
  | .byMonthDay => draft.byMonthDay
  | .byDay => draft.byDay
  | .exdate => draft.exdates

/-- A draft with another part for a key. -/
def withPart (draft : Draft) : (key : Key) → key.Value → Draft
  | .freq, v => { draft with freq := v }
  | .interval, v => { draft with interval := v }
  | .count, v => { draft with count := v }
  | .ending, v => { draft with ending := v }
  | .byMonth, v => { draft with byMonth := v }
  | .byMonthDay, v => { draft with byMonthDay := v }
  | .byDay, v => { draft with byDay := v }
  | .exdate, v => { draft with exdates := v }

/-- A draft with the part of one more key. -/
def add (draft : Draft) (key : Key) (v : key.Value) : Draft :=
  { draft.withPart key v with keyOrder := draft.keyOrder ++ [key] }

/-- A part that is set changes no order of keys. -/
@[simp] theorem keyOrder_withPart (draft : Draft) (key : Key) (v : key.Value) :
    (draft.withPart key v).keyOrder = draft.keyOrder := by
  cases key <;> rfl

/-- A part that is added has its key put last. -/
@[simp] theorem keyOrder_add (draft : Draft) (key : Key) (v : key.Value) :
    (draft.add key v).keyOrder = draft.keyOrder ++ [key] := rfl

/-- A part that is added is there. -/
@[simp] theorem part_add_self (draft : Draft) (key : Key) (v : key.Value) :
    (draft.add key v).part key = v := by
  cases key <;> rfl

/-- The others stay as they were. -/
theorem part_add_of_ne (h : other ≠ key) (v : key.Value) :
    (draft.add key v).part other = draft.part other := by
  cases key <;> cases other <;> first | rfl | exact absurd rfl h

/-- Drafts are equal by their parts and the order of their keys. -/
theorem eq_of_part (keys : draft.keyOrder = result.keyOrder)
    (parts : ∀ key, draft.part key = result.part key) : draft = result := by
  obtain ⟨freq, interval, count, ending, byMonth, byMonthDay, byDay, exdates, keyOrder⟩ := draft
  obtain ⟨freq', interval', count', ending', byMonth', byMonthDay', byDay', exdates', keyOrder'⟩ :=
    result
  have h₁ : freq = freq' := parts .freq
  have h₂ : interval = interval' := parts .interval
  have h₃ : count = count' := parts .count
  have h₄ : ending = ending' := parts .ending
  have h₅ : byMonth = byMonth' := parts .byMonth
  have h₆ : byMonthDay = byMonthDay' := parts .byMonthDay
  have h₇ : byDay = byDay' := parts .byDay
  have h₈ : exdates = exdates' := parts .exdate
  have h₉ : keyOrder = keyOrder' := keys
  rw [h₁, h₂, h₃, h₄, h₅, h₆, h₇, h₈, h₉]

end Draft

/-! ## One segment -/

/-- The part that a text gives for a key. -/
def readPart (zone : Zone) : (key : Key) → List Char → Except Failure key.Value
  | .freq, value => some <$> readFrequency Key.freq.name value
  | .interval, value => some <$> readPositive Key.interval.name value
  | .count, value => some <$> readPositive Key.count.name value
  | .ending, value => some <$> DateToken.read zone (some Key.ending.name) value
  | .byMonth, value => readMonths Key.byMonth.name value
  | .byMonthDay, value => readMonthDays Key.byMonthDay.name value
  | .byDay, value => readDayEntries Key.byDay.name value
  | .exdate, value => readDateTokens zone Key.exdate.name value

/-- A value is read as a part, and then set. -/
theorem readValue_eq (zone : Zone) (draft : Draft) (key : Key) (value : List Char) :
    readValue zone draft key value = draft.withPart key <$> readPart zone key value := by
  cases key with
  | freq => exact (Functor.map_map some (draft.withPart .freq) _).symm
  | interval => exact (Functor.map_map some (draft.withPart .interval) _).symm
  | count => exact (Functor.map_map some (draft.withPart .count) _).symm
  | ending => exact (Functor.map_map some (draft.withPart .ending) _).symm
  | byMonth | byMonthDay | byDay | exdate => rfl

/-- The segment of a key and its value. -/
def segment (entry : Key × List Char) : List Char := entry.1.name.toList ++ '=' :: entry.2

/-- The name of a segment is what stands before its first equals sign. -/
theorem span_segment (key : Key) (value : List Char) :
    (segment (key, value)).span (· != '=') = (key.name.toList, '=' :: value) := by
  have name : ∀ c ∈ key.name.toList, (c != '=') = true := by
    intro c hc
    have letter := key.name_spec.2 c hc
    apply bne_iff_ne.2
    rintro rfl
    exact absurd letter (by decide)
  rw [segment, List.span_eq_takeWhile_dropWhile, List.takeWhile_append_of_pos name,
    List.dropWhile_append_of_pos name]
  simp

/-- A segment tells its key and its value apart, for no name has a sign in it. -/
theorem segment_injective : Function.Injective segment := by
  rintro ⟨key, value⟩ ⟨other, value'⟩ same
  have parts := span_segment key value
  rw [same, span_segment] at parts
  injection parts with name rest
  have found := Key.ofName?_eq_some.2 name
  rw [Key.ofName?_eq_some.2 rfl] at found
  injection found with keys
  injection rest with _ values
  rw [keys, values]

/-- The segment of a key that was given before is refused, whatever its value. -/
theorem readSegment_again (again : key ∈ draft.keyOrder) (value : List Char) :
    readSegment zone draft (segment (key, value)) = refuse .duplicateKey key.name value := by
  have named : Key.ofName? key.name.toList = some key := Key.ofName?_eq_some.2 rfl
  have ne := key.name_spec.1
  unfold readSegment
  rw [span_segment]
  simp only [named, if_pos again]

/-- The segment of a key that is new adds the part that its value gives. -/
theorem readSegment_segment (new : key ∉ draft.keyOrder) (given : value ≠ []) :
    readSegment zone draft (segment (key, value)) = draft.add key <$> readPart zone key value := by
  have named : Key.ofName? key.name.toList = some key := Key.ofName?_eq_some.2 rfl
  have ne := key.name_spec.1
  have value_given : ¬value.isEmpty = true := by simpa using given
  unfold readSegment
  rw [span_segment]
  simp only [named, if_neg new, if_neg value_given, readValue_eq, Functor.map_map,
    Draft.keyOrder_withPart]
  rfl

/-- A segment is read if it has a new key and a value, and the value is read as a part. -/
theorem readSegment_eq_ok {text : List Char} :
    readSegment zone draft text = .ok result ↔
      ∃ key value v, text = segment (key, value) ∧ key ∉ draft.keyOrder ∧ value ≠ [] ∧
        readPart zone key value = .ok v ∧ result = draft.add key v := by
  constructor
  · intro h
    unfold readSegment at h
    -- The name ends before the first equals sign
    have parts : text.takeWhile (· != '=') ++ text.dropWhile (· != '=') = text :=
      List.takeWhile_append_dropWhile
    simp only [List.span_eq_takeWhile_dropWhile] at h
    split at h
    · injection h
    · injection h
    · rename_i equals value hrest _
      have sign := List.head?_dropWhile_not (· != '=') text
      rw [hrest] at sign parts
      have sign : equals = '=' := by simpa using sign
      split at h
      · injection h
      · rename_i key hkey
        split at h
        · injection h
        · rename_i new
          split at h
          · injection h
          · rename_i given
            -- All that could be refused but the value has been ruled out
            rw [readValue_eq, Functor.map_map] at h
            obtain ⟨v, read, h⟩ := Except.map_eq_ok.1 h
            refine ⟨key, value, v, ?_, new, ?_, read, ?_⟩
            · rw [← parts, sign, Key.ofName?_eq_some.1 hkey, segment]
            · simpa using given
            · rw [← h, Draft.add, Draft.keyOrder_withPart]
  · rintro ⟨key, value, v, rfl, new, given, read, rfl⟩
    rw [readSegment_segment new given, read]
    rfl

/-! ## All segments -/

/-- What keys and values add to a draft: each gives a value for a key that was not given before,
and the parts of all other keys stay as they are. -/
structure Gathers (zone : Zone) (draft : Draft) (entries : List (Key × List Char))
    (result : Draft) : Prop where
  given : ∀ entry ∈ entries, entry.2 ≠ []
  keys : result.keyOrder = draft.keyOrder ++ entries.map Prod.fst
  distinct : (entries.map Prod.fst).Nodup
  new : ∀ entry ∈ entries, entry.1 ∉ draft.keyOrder
  read : ∀ entry ∈ entries, readPart zone entry.1 entry.2 = .ok (result.part entry.1)
  others : ∀ key ∉ entries.map Prod.fst, result.part key = draft.part key

variable {entries : List (Key × List Char)}

/-- Without segments nothing is gathered. -/
theorem gathers_nil : Gathers zone draft [] result ↔ result = draft := by
  constructor
  · intro h
    exact Draft.eq_of_part (by simpa using h.keys) fun key => h.others key List.not_mem_nil
  · rintro rfl
    exact ⟨by simp, by simp, List.nodup_nil, by simp, by simp, fun _ _ => rfl⟩

/-- Parts are gathered by adding the first one and gathering the others. -/
theorem gathers_cons : Gathers zone draft ((key, value) :: entries) result ↔
    key ∉ draft.keyOrder ∧ value ≠ [] ∧
      ∃ v, readPart zone key value = .ok v ∧ Gathers zone (draft.add key v) entries result := by
  constructor
  · intro h
    have distinct := List.nodup_cons.1 h.distinct
    -- The part of the key in the end is the one that its own segment gives
    refine ⟨h.new _ List.mem_cons_self, h.given _ List.mem_cons_self, result.part key,
      h.read _ List.mem_cons_self, ?_⟩
    constructor
    · exact fun entry he => h.given entry (List.mem_cons_of_mem _ he)
    · rw [h.keys, Draft.keyOrder_add, List.append_assoc]
      rfl
    · exact distinct.2
    · intro entry he
      rw [Draft.keyOrder_add, List.mem_append, List.mem_singleton, not_or]
      refine ⟨h.new entry (List.mem_cons_of_mem _ he), ?_⟩
      intro same
      exact distinct.1 (List.mem_map.2 ⟨entry, he, same⟩)
    · exact fun entry he => h.read entry (List.mem_cons_of_mem _ he)
    · intro other hother
      by_cases same : other = key
      · subst same
        rw [Draft.part_add_self]
      · rw [Draft.part_add_of_ne same]
        exact h.others other (by simp [same, hother])
  · intro ⟨new, given, v, read, h⟩
    have fresh : key ∉ entries.map Prod.fst := by
      intro again
      obtain ⟨entry, he, same⟩ := List.mem_map.1 again
      exact h.new entry he (by simp [same])
    -- No other segment has the key, so its part stays as it was added
    have kept : result.part key = v := by
      rw [h.others key fresh, Draft.part_add_self]
    constructor
    · exact List.forall_mem_cons.2 ⟨given, h.given⟩
    · rw [h.keys, Draft.keyOrder_add, List.append_assoc]
      rfl
    · exact List.nodup_cons.2 ⟨fresh, h.distinct⟩
    · refine List.forall_mem_cons.2 ⟨new, fun entry he old => h.new entry he ?_⟩
      simp [old]
    · exact List.forall_mem_cons.2 ⟨by rw [read, kept], h.read⟩
    · intro other hother
      simp only [List.map_cons, List.mem_cons, not_or] at hother
      rw [h.others other hother.2, Draft.part_add_of_ne hother.1]

/-- Texts are read one after another if they are segments whose parts are gathered. -/
theorem foldlM_readSegment_eq_ok {texts : List (List Char)} :
    texts.foldlM (readSegment zone) draft = .ok result ↔
      ∃ entries, texts = entries.map segment ∧ Gathers zone draft entries result := by
  induction texts generalizing draft with
  | nil =>
    rw [List.foldlM_nil]
    constructor
    · intro h
      injection h with h
      exact ⟨[], rfl, gathers_nil.2 h.symm⟩
    · intro ⟨entries, none_left, h⟩
      obtain rfl := List.map_eq_nil_iff.1 none_left.symm
      rw [gathers_nil.1 h]
      rfl
  | cons text texts ih =>
    rw [List.foldlM_cons, Except.bind_eq_ok]
    constructor
    · -- The first text is a segment, and the others are gathered after it
      intro ⟨next, hnext, hrest⟩
      obtain ⟨key, value, v, rfl, new, given, read, rfl⟩ := readSegment_eq_ok.1 hnext
      obtain ⟨entries, rfl, h⟩ := ih.1 hrest
      exact ⟨(key, value) :: entries, rfl, gathers_cons.2 ⟨new, given, v, read, h⟩⟩
    · intro ⟨entries, same, h⟩
      obtain ⟨⟨key, value⟩, entries, rfl, rfl, rfl⟩ := List.map_eq_cons_iff.1 same.symm
      obtain ⟨new, given, v, read, h⟩ := gathers_cons.1 h
      exact ⟨_, readSegment_eq_ok.2 ⟨key, value, v, rfl, new, given, read, rfl⟩,
        ih.2 ⟨entries, rfl, h⟩⟩

/-- A text that gives a frequency has content, since the letters of a key are no blanks. -/
theorem hasContent_of_freq {text : List Char} {entries : List (Key × List Char)}
    (pieces : Text.split ';' text = entries.map segment)
    (given : Key.freq ∈ entries.map Prod.fst) : Text.hasContent text = true := by
  obtain ⟨⟨key, value⟩, hentry, hkey⟩ := List.mem_map.1 given
  have hkey : key = .freq := hkey
  have letter : 'F' ∈ segment (key, value) := by
    rw [hkey]
    show 'F' ∈ Key.freq.name.toList ++ _
    exact List.mem_append_left _ (by decide)
  rw [Text.hasContent, List.any_eq_true, ← Text.join_split ';' text, pieces]
  exact ⟨'F', Text.mem_join_of_mem (List.mem_map_of_mem hentry) letter, rfl⟩

end RuleText

/-! ## Whole texts -/

namespace Fields

open RuleText (Draft)

/-- The parts as a draft. -/
def draft (f : Fields) : Draft :=
  ⟨some f.freq, f.interval, f.count, f.ending, f.byMonth, f.byMonthDay, f.byDay, f.exdates,
    f.keyOrder⟩

end Fields

namespace RuleText

/-- What has been gathered is a rule if it is the draft of one. -/
theorem finish_eq_ok {text : List Char} {draft : Draft} {f : Fields} :
    finish text draft = .ok f ↔ draft = f.draft := by
  obtain ⟨freq, interval, count, ending, byMonth, byMonthDay, byDay, exdates, keyOrder⟩ := draft
  constructor
  · -- It has a frequency, and it does not name days in two ways
    intro h
    unfold finish at h
    split at h
    · injection h
    · rename_i freq' hfreq
      split at h
      · injection h with h
        rw [← h]
        simp only at hfreq
        rw [hfreq]
        rfl
      · injection h
  · intro h
    injection h
    subst_vars
    simp [finish, f.dayFilters]

end RuleText

namespace Fields

/-- A text is read as given parts exactly if its segments give the parts one by one, each in a
spelling that the reader of its key takes for it, and no others are present. -/
theorem read_eq_ok {zone : Zone} {text : String} {f : Fields} :
    Fields.read zone text = .ok f ↔
      ∃ entries, Text.split ';' text.toList = entries.map RuleText.segment ∧
        RuleText.Gathers zone {} entries f.draft := by
  unfold Fields.read RuleText.read
  constructor
  · intro h
    split at h
    · injection h
    · obtain ⟨draft, hdraft, hfinish⟩ := Except.bind_eq_ok.1 h
      rw [RuleText.finish_eq_ok] at hfinish
      rw [hfinish] at hdraft
      exact RuleText.foldlM_readSegment_eq_ok.1 hdraft
  · -- A draft of a rule has a frequency, so the text is not blank
    intro ⟨entries, pieces, h⟩
    have present : Key.freq ∈ entries.map Prod.fst := by
      by_contra missing
      have := h.others .freq missing
      injection this
    have content := RuleText.hasContent_of_freq pieces present
    rw [content]
    exact Except.bind_eq_ok.2
      ⟨f.draft, RuleText.foldlM_readSegment_eq_ok.2 ⟨entries, pieces, h⟩,
        RuleText.finish_eq_ok.2 rfl⟩

end Fields

end Recurrence
