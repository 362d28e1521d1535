import Recurrence.Proofs.Rejections

/-!
# Refused rule texts

A text that is not read fails at its first segment that is refused, with a fault that names the key
of the segment. There is one other failure: a number with more digits than numerals may have is not
even looked at.

* `Failure.Refuses`, `Failure.Blames`: what a failure may say of a piece of text.
* `RuleText.RefusesValue.blames`, `RuleText.Rejects.blames`: the failures of values and segments.
* `Fields.read_refused`: the failures of whole texts.
-/

namespace Recurrence

/-! ## Failures -/

/-- Whether numbers can stand in the values of a key. The digits of date tokens make up none. -/
def Key.isNumeric : Key → Bool
  | interval | count | byMonth | byMonthDay | byDay => true
  | freq | ending | exdate => false

/-- A failure refuses a piece of text that belongs to a key: by a fault of rule text with that key,
or, where there may be numbers, because the piece has more digits in a row than a numeral may
have. -/
inductive Failure.Refuses : Option String → List Char → Failure → Prop
  | fault (key : Option String) (text : List Char) (cause : RuleCause) (token : Option String) :
      Refuses key text (.rule ⟨cause, key, token⟩)
  | numeral {key : Key} {digits text : List Char} (numeric : key.isNumeric = true)
      (inside : digits <:+: text) (ascii : ∀ c ∈ digits, c.isDigit = true)
      (long : Text.numeralLimit < digits.length) :
      Refuses (some key.name) text (.numeralTooLong digits.length)

namespace Failure.Refuses

variable {key : Option String} {piece text : List Char} {failure : Failure}

/-- What refuses a piece refuses the text around it. -/
theorem mono (h : failure.Refuses key piece) (inside : piece <:+: text) :
    failure.Refuses key text := by
  cases h with
  | fault _ _ cause token => exact .fault key text cause token
  | numeral numeric within ascii long => exact .numeral numeric (within.trans inside) ascii long

/-- A text is refused by a fault of the rule, or for a numeral in it that is too long. -/
theorem rule_or_numeral (h : failure.Refuses key text) :
    (∃ fault, failure = .rule fault) ∨ ∃ digits, digits <:+: text ∧
      (∀ c ∈ digits, c.isDigit = true) ∧ Text.numeralLimit < digits.length := by
  cases h with
  | fault _ _ cause token => exact .inl ⟨_, rfl⟩
  | numeral _ inside ascii long => exact .inr ⟨_, inside, ascii, long⟩

end Failure.Refuses

/-- Whether the piece of text that a failure quotes, if it quotes any, is a part of a text. -/
def Failure.Quotes (text : List Char) (failure : Failure) : Prop :=
  ∀ fault, failure = .rule fault → ∀ token ∈ fault.token, token.toList <:+: text

/-- Whether a failure refuses a piece of text that belongs to a key, and quotes no other text. -/
structure Failure.Blames (key : Option String) (text : List Char) (failure : Failure) : Prop where
  refused : failure.Refuses key text
  quoted : failure.Quotes text

namespace Failure.Blames

variable {key : Option String} {piece text : List Char} {failure : Failure}

/-- What blames a piece blames the text around it. -/
theorem mono (h : failure.Blames key piece) (inside : piece <:+: text) :
    failure.Blames key text :=
  ⟨h.refused.mono inside, fun fault same token quoted => (h.quoted fault same token quoted).trans
    inside⟩

/-- A fault with the key blames a text that it quotes a part of, or nothing at all. -/
theorem rule {cause : RuleCause} {token : Option String}
    (quoted : ∀ quote ∈ token, quote.toList <:+: text) :
    (Failure.rule ⟨cause, key, token⟩).Blames key text := by
  refine ⟨.fault key text cause token, ?_⟩
  intro fault same
  injection same with same
  rw [← same]
  exact quoted

/-- A fault that quotes a piece blames the text around it. -/
theorem quote {cause : RuleCause} (inside : piece <:+: text) :
    (Failure.rule ⟨cause, key, some (String.ofList piece)⟩).Blames key text := by
  apply rule
  intro quote same
  rw [← Option.some.inj same, String.toList_ofList]
  exact inside

end Failure.Blames

namespace Text

variable {separator : Char} {piece : List Char}

/-- A piece stands inside the joined text. -/
theorem isInfix_join {pieces : List (List Char)} (h : piece ∈ pieces) :
    piece <:+: join separator pieces := by
  induction pieces with
  | nil => exact absurd h List.not_mem_nil
  | cons first rest ih =>
    cases rest with
    | nil =>
      rw [List.mem_singleton.1 h]
      exact List.infix_refl first
    | cons next rest =>
      rw [join]
      rcases List.mem_cons.1 h with rfl | h
      · exact (List.prefix_append piece _).isInfix
      · have behind := (List.suffix_cons separator (join separator (next :: rest))).isInfix
        exact (ih h).trans (behind.trans (List.suffix_append first _).isInfix)

/-- The pieces of a text are parts of it. -/
theorem isInfix_of_mem_split {text : List Char} (h : piece ∈ split separator text) :
    piece <:+: text := by
  rw [← join_split separator text]
  exact isInfix_join h

end Text

namespace RuleText

variable {key : Key} {token value digits : List Char} {failure : Failure}

/-! ## Values -/

/-- A refusal blames the token that it is about. -/
theorem blames_of_refuse {α : Type} {cause : RuleCause} {key : String}
    (h : (refuse cause key token : Except Failure α) = .error failure) :
    failure.Blames (some key) token := by
  injection h with h
  rw [← h]
  exact .quote (List.infix_refl token)

/-- Without its last line break a token stands inside the token. -/
theorem dropFinalBreak_infix (token : List Char) : dropFinalBreak token <:+: token := by
  unfold dropFinalBreak
  split
  · exact (List.dropLast_prefix token).isInfix
  · exact List.infix_refl token

/-- A numeral that counts has digits only. -/
theorem isDigit_of_isCounting (h : isCounting digits = true) : ∀ c ∈ digits, c.isDigit = true := by
  obtain ⟨m, -, rfl⟩ := isCounting_iff.1 h
  exact fun c hc => Decimal.isDigit_of_mem_write hc

section Numeric

variable (numeric : key.isNumeric = true)
include numeric

/-- Too many digits are blamed. -/
theorem readDigits_error (ascii : ∀ c ∈ digits, c.isDigit = true)
    (h : readDigits digits = .error failure) : failure.Blames (some key.name) digits := by
  unfold readDigits at h
  split at h
  · rename_i long
    injection h with h
    rw [← h]
    refine ⟨.numeral numeric (List.infix_refl digits) ascii long, ?_⟩
    intro fault rule
    injection rule
  · injection h

/-- A token that is no integer is blamed. -/
theorem readInteger_error (h : readInteger key.name token = .error failure) :
    failure.Blames (some key.name) token := by
  -- The digits of an integer are read only if they make up all of it but its sign
  have digits_error {digits : List Char} {sign : Int → Int} (inside : digits <:+: token)
      (h : (if isCounting digits then
          sign <$> (readDigits digits >>= fun n => pure (n : Int))
        else refuse .notInteger key.name token) = .error failure) :
      failure.Blames (some key.name) token := by
    split at h
    · rename_i counting
      rcases Except.bind_eq_error.1 (Except.map_eq_error.1 h) with h | ⟨n, -, h⟩
      · exact (readDigits_error numeric (isDigit_of_isCounting counting) h).mono inside
      · injection h
    · exact blames_of_refuse h
  have inside := dropFinalBreak_infix token
  unfold readInteger at h
  split at h
  · injection h
  · rename_i digits negative
    rw [negative] at inside
    exact digits_error ((List.suffix_cons '-' digits).isInfix.trans inside) h
  · exact digits_error inside h

/-- A check of an integer that names the key when it fails keeps to what reading it may say. -/
theorem readInteger_bind_error {α : Type} {check : Int → Except Failure α}
    (h : readInteger key.name token >>= check = .error failure)
    (checked : ∀ n, check n = .error failure → failure.Blames (some key.name) token) :
    failure.Blames (some key.name) token := by
  rcases Except.bind_eq_error.1 h with h | ⟨n, -, h⟩
  · exact readInteger_error numeric h
  · exact checked n h

/-- A token that is no positive integer is blamed. -/
theorem readPositive_error (h : readPositive key.name token = .error failure) :
    failure.Blames (some key.name) token := by
  refine readInteger_bind_error numeric h fun n h => ?_
  split at h
  · injection h
  · exact blames_of_refuse h

/-- A token that is no month is blamed. -/
theorem readMonth_error (h : readMonth key.name token = .error failure) :
    failure.Blames (some key.name) token := by
  refine readInteger_bind_error numeric h fun n h => ?_
  split at h
  · injection h
  · exact blames_of_refuse h

/-- A token that is no day of the month is blamed. -/
theorem readMonthDay_error (h : readMonthDay key.name token = .error failure) :
    failure.Blames (some key.name) token := by
  refine readInteger_bind_error numeric h fun n h => ?_
  split at h
  · injection h
  · exact blames_of_refuse h

/-- An entry that is refused behind its sign is blamed as a whole. -/
theorem readUnsignedEntry_error {negative : Bool} {unsigned : List Char}
    (inside : unsigned <:+: token)
    (h : readUnsignedEntry key.name token negative unsigned = .error failure) :
    failure.Blames (some key.name) token := by
  unfold readUnsignedEntry at h
  simp only at h
  split at h
  · exact blames_of_refuse h
  · split at h
    · exact blames_of_refuse h
    · split at h
      · split at h
        · exact blames_of_refuse h
        · injection h
      · -- The ordinal is read when all else has been found in order
        rcases Except.bind_eq_error.1 h with h | ⟨n, -, h⟩
        · have ascii : ∀ c ∈ unsigned.takeWhile Char.isDigit, c.isDigit = true :=
            List.all_eq_true.1 List.all_takeWhile
          exact (readDigits_error numeric ascii h).mono
            ((List.takeWhile_prefix _).isInfix.trans inside)
        · injection h

/-- A token that is no entry is blamed. -/
theorem readDayEntry_error (h : readDayEntry key.name token = .error failure) :
    failure.Blames (some key.name) token := by
  have inside := dropFinalBreak_infix token
  -- The sign is no part of what is looked at further, which lies within the token all the same
  by_cases minus : ∃ rest, dropFinalBreak token = '-' :: rest
  · obtain ⟨rest, minus⟩ := minus
    rw [minus] at inside
    rw [readDayEntry_minus minus] at h
    exact readUnsignedEntry_error numeric ((List.suffix_cons '-' rest).isInfix.trans inside) h
  · rw [readDayEntry_unsigned (not_exists.1 minus)] at h
    exact readUnsignedEntry_error numeric inside h

end Numeric

/-- An item is refused as a part of its list. -/
theorem RefusesItem.blames {zone : Zone} {before : List (List Char)} {item : List Char}
    (h : RefusesItem zone before item key failure) : failure.Blames (some key.name) item := by
  cases h with
  | month h => exact readMonth_error rfl h
  | monthAgain => exact .quote (List.infix_refl item)
  | monthDay h => exact readMonthDay_error rfl h
  | dayEntry h => exact readDayEntry_error rfl h
  | exdate h =>
    obtain ⟨cause, piece, rfl, -, inside⟩ := DateToken.read_malformed h
    exact .quote inside.isInfix

/-- Whatever the key, its value is refused with it. -/
theorem RefusesValue.blames {zone : Zone} (h : RefusesValue zone key value failure) :
    failure.Blames (some key.name) value := by
  -- A value is refused as a whole, for an empty item, or for its first item that is refused
  cases h with
  | single single h =>
    cases key with
    | freq =>
      have h := Except.map_eq_error.1 h
      unfold readFrequency at h
      split at h
      · injection h
      · exact blames_of_refuse h
    | interval | count => exact readPositive_error rfl (Except.map_eq_error.1 h)
    | ending =>
      obtain ⟨cause, piece, rfl, -, inside⟩ := DateToken.read_malformed (Except.map_eq_error.1 h)
      exact .quote inside.isInfix
    | byMonth | byMonthDay | byDay | exdate => injection single
  | emptyItem => exact .quote (List.infix_refl value)
  | item list given h =>
    obtain ⟨before, item, after, pieces, refused, -⟩ := h
    have mem : item ∈ Text.split ',' value := by simp [pieces]
    exact refused.blames.mono (Text.isInfix_of_mem_split mem)

/-! ## Segments -/

/-- The key of a segment, known or not: what stands before its first equals sign, if that is
something and the sign is there. -/
def keyOf (text : List Char) : Option String :=
  if '=' ∈ text ∧ text.head? ≠ some '=' then some (String.ofList (text.takeWhile (· != '=')))
  else none

/-- The key of a segment is what stands before its first sign. -/
theorem keyOf_append {name : List Char} (ne : name ≠ []) (apart : '=' ∉ name)
    (value : List Char) : keyOf (name ++ '=' :: value) = some (String.ofList name) := by
  have letters : ∀ c ∈ name, (c != '=') = true := by
    intro c mem
    apply bne_iff_ne.2
    rintro rfl
    exact apart mem
  obtain ⟨c, rest, rfl⟩ := List.exists_cons_of_ne_nil ne
  have first : c ≠ '=' := by simpa using letters c List.mem_cons_self
  rw [keyOf, if_pos ⟨by simp, by simpa using first⟩, List.takeWhile_append_of_pos letters]
  simp

/-- A segment of a key has its name before the sign. -/
theorem keyOf_segment (key : Key) (value : List Char) :
    keyOf (segment (key, value)) = some key.name := by
  have apart : '=' ∉ key.name.toList := by
    intro mem
    exact absurd (key.name_spec.2 _ mem) (by decide)
  rw [segment, keyOf_append key.name_spec.1 apart, String.ofList_toList]

/-- A segment is refused with its key, if it has one. -/
theorem Rejects.blames {given : List Key} (h : Rejects zone given text failure) :
    failure.Blames (keyOf text) text := by
  have inside (front value : List Char) : value <:+: front ++ '=' :: value :=
    ((List.suffix_cons '=' value).trans (List.suffix_append front _)).isInfix
  -- One case for each way in which a segment is refused, in the order of the checks
  cases h with
  | noKeyValue h =>
    have none : keyOf text = none := if_neg fun ⟨mem, head⟩ => h.elim (absurd mem) head
    rw [none]
    exact .quote (List.infix_refl text)
  | @unknownKey name value ne apart unknown =>
    rw [keyOf_append ne apart]
    exact .quote (inside name value)
  | @duplicateKey key value again =>
    rw [keyOf_segment]
    exact .quote (inside key.name.toList value)
  | @missingValue key new =>
    rw [keyOf_segment]
    exact .rule fun _ none => by injection none
  | @value key value _ new ne h =>
    rw [keyOf_segment]
    exact h.blames.mono (inside key.name.toList value)

/-- What has been gathered is refused without a frequency, or if it names days in two ways. -/
theorem finish_error {text : List Char} (h : finish text draft = .error failure) :
    (draft.freq = none ∧ failure = .rule ⟨.noFrequency, some Key.freq.name, none⟩) ∨
      (draft.byMonthDay ≠ [] ∧ draft.byDay ≠ [] ∧
        failure = .rule ⟨.dayFilters, some Key.byMonthDay.name, some (String.ofList text)⟩) := by
  unfold finish at h
  split at h
  · rename_i missing
    injection h with h
    exact .inl ⟨missing, h.symm⟩
  · split at h
    · injection h
    · rename_i both
      injection h with h
      exact .inr ⟨fun none => both (.inl none), fun none => both (.inr none), h.symm⟩

/-! ## Whole texts -/

/-- If not all segments are read, the first that is refused is refused with its key. -/
theorem foldlM_readSegment_error {texts : List (List Char)}
    (h : texts.foldlM (readSegment zone) draft = .error failure) :
    ∃ before segment after draft', texts = before ++ segment :: after ∧
      before.foldlM (readSegment zone) draft = .ok draft' ∧
      readSegment zone draft' segment = .error failure ∧
      failure.Refuses (keyOf segment) segment := by
  obtain ⟨before, segment, after, draft', pieces, read, h⟩ := Except.exists_of_foldlM_error h
  exact ⟨before, segment, after, draft', pieces, read, h,
    (rejects_of_readSegment h).blames.refused⟩

/-- A text is refused by a fault of rule text, or because of a number in it. -/
theorem read_error (h : read zone text = .error failure) :
    (∃ fault, failure = .rule fault) ∨ ∃ digits, digits <:+: text ∧
      (∀ c ∈ digits, c.isDigit = true) ∧ Text.numeralLimit < digits.length := by
  unfold read at h
  split at h
  · injection h with h
    exact .inl ⟨_, h.symm⟩
  · rcases Except.bind_eq_error.1 h with h | ⟨draft, -, h⟩
    · obtain ⟨before, segment, after, -, pieces, -, -, refused⟩ := foldlM_readSegment_error h
      have mem : segment ∈ Text.split ';' text := by simp [pieces]
      exact (refused.mono (Text.isInfix_of_mem_split mem)).rule_or_numeral
    · rcases finish_error h with ⟨-, h⟩ | ⟨-, -, h⟩ <;> exact .inl ⟨_, h⟩

/-- A number with more digits than a numeral may have is not looked at. -/
theorem readInteger_tooLong (counting : isCounting digits = true)
    (long : Text.numeralLimit < digits.length) (key : String) :
    readInteger key digits = .error (.numeralTooLong digits.length) := by
  have ascii := isDigit_of_isCounting counting
  have kept : dropFinalBreak digits = digits :=
    dropFinalBreak_of_isItem (Text.isItem_of_isDigit ascii)
  unfold readInteger
  rw [kept]
  split
  · exact absurd long (by decide)
  · exact absurd (ascii '-' List.mem_cons_self) (by decide)
  · rw [if_pos counting, readDigits, if_pos long]
    rfl

end RuleText

namespace Fields

open RuleText (Draft readSegment keyOf segment)

variable {zone : Zone} {text : String} {failure : Failure}

/-- A text that is not read is blank, or its first segment that is refused is refused with its key,
or all segments are read and do not go together. The only failure without the key of what is wrong
is a number with more digits than a numeral may have. -/
theorem read_refused (h : Fields.read zone text = .error failure) :
    (Text.hasContent text.toList = false ∧ failure = .rule ⟨.emptyText, none, none⟩) ∨
      (∃ before segment after draft, Text.split ';' text.toList = before ++ segment :: after ∧
        before.foldlM (readSegment zone) {} = .ok draft ∧
        readSegment zone draft segment = .error failure ∧
        failure.Refuses (keyOf segment) segment) ∨
      ∃ draft : Draft, (Text.split ';' text.toList).foldlM (readSegment zone) {} = .ok draft ∧
        ((draft.freq = none ∧ failure = .rule ⟨.noFrequency, some Key.freq.name, none⟩) ∨
          (draft.byMonthDay ≠ [] ∧ draft.byDay ≠ [] ∧
            failure = .rule ⟨.dayFilters, some Key.byMonthDay.name, some text⟩)) := by
  unfold Fields.read RuleText.read at h
  split at h
  · rename_i blank
    injection h with h
    exact .inl ⟨by simpa using blank, h.symm⟩
  · right
    rcases Except.bind_eq_error.1 h with h | ⟨draft, hdraft, h⟩
    · exact .inl (RuleText.foldlM_readSegment_error h)
    · have finished := RuleText.finish_error h
      rw [String.ofList_toList] at finished
      exact .inr ⟨draft, hdraft, finished⟩

/-- A count of 4301 ones. -/
def longCount : String :=
  .ofList (Text.join ';'
    [segment (.freq, "DAILY".toList), segment (.count, List.replicate 4301 '1')])

/-- A count of 4301 digits is refused for its length, which is no fault of the rule. -/
theorem longCount_refused :
    Fields.read (.region .utc) longCount = .error (.numeralTooLong 4301) ∧
      ∃ piece ∈ Text.split ';' longCount.toList,
        (Failure.numeralTooLong 4301).Refuses (keyOf piece) piece := by
  have counting (n : Nat) : RuleText.isCounting (List.replicate (n + 1) '1') = true := by
    simp [List.replicate_succ, RuleText.isCounting_cons]
  -- The numeral counts, but it is longer than the limit
  have ones : RuleText.readInteger Key.count.name (List.replicate 4301 '1') =
      .error (.numeralTooLong 4301) := by
    have long : Text.numeralLimit < (List.replicate 4301 '1').length := by
      rw [List.length_replicate]
      decide
    rw [RuleText.readInteger_tooLong (counting 4300) long, List.length_replicate]
  have pieces : Text.split ';' longCount.toList =
      [segment (.freq, "DAILY".toList), segment (.count, List.replicate 4301 '1')] := by
    rw [longCount, String.toList_ofList]
    refine Text.split_join (List.cons_ne_nil _ _) ?_
    simp only [List.forall_mem_cons]
    refine ⟨?_, ?_, by simp⟩
    · exact RuleText.not_mem_segment (RuleText.isValue_spellPart .freq (some .daily))
    · refine RuleText.not_mem_segment (Text.IsItem.isValue (Text.isItem_of_isDigit ?_))
      exact RuleText.isDigit_of_isCounting (counting 4300)
  have content : Text.hasContent longCount.toList = true := by
    have letter : 'F' ∈ segment (.freq, "DAILY".toList) := by decide
    rw [Text.hasContent, List.any_eq_true, longCount, String.toList_ofList]
    exact ⟨'F', Text.mem_join_of_mem List.mem_cons_self letter, rfl⟩
  -- The frequency is read, and then the count is refused
  have refused : Fields.read (.region .utc) longCount = .error (.numeralTooLong 4301) := by
    unfold Fields.read RuleText.read
    rw [content, pieces]
    refine Except.bind_eq_error.2 (.inl ?_)
    have daily : readSegment (.region .utc) {} (segment (.freq, "DAILY".toList)) =
        .ok (({} : Draft).add .freq (some .daily)) :=
      RuleText.readSegment_segment List.not_mem_nil (by decide)
    refine Except.bind_eq_error.2 (.inr ⟨_, daily, Except.bind_eq_error.2 (.inl ?_)⟩)
    have given : List.replicate (4300 + 1) '1' ≠ [] := List.cons_ne_nil _ _
    rw [RuleText.readSegment_segment (by decide) given, RuleText.readPart, RuleText.readPositive,
      ones]
    rfl
  refine ⟨refused, ?_⟩
  rcases read_refused refused with ⟨-, h⟩ | ⟨before, piece, after, -, split, -, -, refused⟩ |
    ⟨-, -, ⟨-, h⟩ | ⟨-, -, h⟩⟩
  · injection h
  · exact ⟨piece, by simp [split], refused⟩
  · injection h
  · injection h

end Fields

end Recurrence
