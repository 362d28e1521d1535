import Mathlib.Data.List.Induction
import Mathlib.Data.List.TakeDrop
import Recurrence.Proofs.Lists
import Recurrence.Rule.Printer
import Recurrence.Rule.Reader

/-!
# Numerals and weekday codes of rule text

The recognisers of rule text take an integer or a weekday entry in one spelling only, the one that
the printer gives it, and let one line break follow.

* `RuleText.readInteger_eq_ok`: the tokens that are read as an integer.
* `RuleText.readDayEntry_eq_ok`: the tokens that are read as a weekday entry.
* `Text.IsItem`: the texts that can stand between the separators of rule text.
-/

namespace Recurrence

/-! ## Characters -/

namespace Text

/-- ASCII characters without the line break. -/
def IsPlain (text : List Char) : Prop := ∀ c ∈ text, c.toNat < 128 ∧ c ≠ '\n'

/-- ASCII letters and digits and the minus sign. -/
def IsItem (text : List Char) : Prop := ∀ c ∈ text, c.isAlphanum = true ∨ c = '-'

/-- A text can stand in a list if both of its parts can. -/
theorem isItem_append {a b : List Char} : IsItem (a ++ b) ↔ IsItem a ∧ IsItem b :=
  List.forall_mem_append

/-- So can a text whose first character and rest can. -/
theorem isItem_cons {c : Char} {text : List Char} :
    IsItem (c :: text) ↔ (c.isAlphanum = true ∨ c = '-') ∧ IsItem text :=
  List.forall_mem_cons

/-- Digits can stand in a list. -/
theorem isItem_of_isDigit {text : List Char} (h : ∀ c ∈ text, c.isDigit = true) : IsItem text := by
  intro c hc
  left
  simp [Char.isAlphanum, h c hc]

/-- Letters and digits are ASCII characters. -/
theorem toNat_lt_of_isAlphanum {c : Char} (h : c.isAlphanum = true) : c.toNat < 128 := by
  unfold Char.isAlphanum Char.isAlpha Char.isUpper Char.isLower Char.isDigit at h
  simp only [Bool.or_eq_true, Bool.and_eq_true, decide_eq_true_eq, ge_iff_le,
    UInt32.le_iff_toNat_le] at h
  have value : c.toNat = c.val.toNat := rfl
  have : 'Z'.val.toNat = 90 := rfl
  have : 'z'.val.toNat = 122 := rfl
  have : '9'.val.toNat = 57 := rfl
  omega

/-- What can stand in a list has no line break and no character beyond ASCII. -/
theorem IsItem.isPlain {text : List Char} (h : IsItem text) : IsPlain text := by
  intro c hc
  rcases h c hc with alphanum | rfl
  · refine ⟨toNat_lt_of_isAlphanum alphanum, ?_⟩
    rintro rfl
    exact absurd alphanum (by decide)
  · decide

/-- No separator of rule text can stand in an item. -/
theorem IsItem.not_mem {text : List Char} (h : IsItem text) {separator : Char}
    (other : separator.isAlphanum = false) (ne : separator ≠ '-') : separator ∉ text := by
  intro mem
  rcases h separator mem with alphanum | minus
  · rw [other] at alphanum
    injection alphanum
  · exact ne minus

end Text

/-! ## Digits -/

namespace Decimal

/-- A digit is below ten. -/
theorem digitValue_lt {c : Char} (h : c.isDigit = true) : digitValue c < 10 := by
  simp only [Char.isDigit, Bool.and_eq_true, decide_eq_true_eq, ge_iff_le,
    UInt32.le_iff_toNat_le] at h
  have value : c.toNat = c.val.toNat := rfl
  have : '9'.val.toNat = 57 := rfl
  unfold digitValue
  omega

/-- A digit is written as itself again. -/
theorem digitChar_digitValue {c : Char} (h : c.isDigit = true) : digitChar (digitValue c) = c := by
  have lt := digitValue_lt h
  simp only [Char.isDigit, Bool.and_eq_true, decide_eq_true_eq, ge_iff_le,
    UInt32.le_iff_toNat_le] at h
  have value : c.toNat = c.val.toNat := rfl
  have : '0'.val.toNat = 48 := rfl
  have sum : 48 + digitValue c % 10 = c.toNat := by
    unfold digitValue at lt ⊢
    omega
  rw [digitChar, sum, Char.ofNat_toNat]

/-- Only zero is written with the digit zero. -/
theorem digitChar_ne_zero {n : Nat} (pos : 0 < n) (lt : n < 10) : digitChar n ≠ '0' := by
  intro zero
  have value := digitValue_digitChar n
  rw [zero, Nat.mod_eq_of_lt lt] at value
  have : digitValue '0' = 0 := rfl
  omega

/-- A number below ten is one digit. -/
theorem write_of_lt {n : Nat} (h : n < 10) : write n = [digitChar n] := by
  rw [write, if_pos h]

/-- Zero is one digit. -/
theorem write_zero : write 0 = ['0'] := write_of_lt (by decide)

/-- No number is written with no digits. -/
theorem write_ne_nil (n : Nat) : write n ≠ [] := by
  rw [write]
  split <;> simp

/-- A number can stand in a list. -/
theorem isItem_write (n : Nat) : Text.IsItem (write n) :=
  Text.isItem_of_isDigit fun _ hc => isDigit_of_mem_write hc

/-- So can one with a sign. -/
theorem isItem_writeInt (n : Int) : Text.IsItem (writeInt n) := by
  unfold writeInt
  split
  · exact Text.isItem_cons.2 ⟨.inr rfl, isItem_write _⟩
  · exact isItem_write _

/-- Without a sign an integer is written as the number it is. -/
theorem writeInt_natCast (n : Nat) : writeInt n = write n := by
  rw [writeInt, if_neg (by omega), Int.natAbs_natCast]

/-- A negative integer is a sign before a number. -/
theorem writeInt_neg {n : Nat} (pos : 0 < n) : writeInt (-n) = '-' :: write n := by
  rw [writeInt, if_pos (by omega), Int.natAbs_neg, Int.natAbs_natCast]

/-- An integer is zero, or a positive number with a sign. -/
theorem zero_or_signed (n : Int) : n = 0 ∨ ∃ m : Nat, 0 < m ∧ (n = m ∨ n = -m) := by
  by_cases zero : n = 0
  · exact .inl zero
  · exact .inr ⟨n.natAbs, by omega, by omega⟩

end Decimal

namespace RuleText

open Decimal (digitValue digitChar)

/-! ## Natural numbers -/

/-- A numeral that counts begins with a digit other than zero, and digits follow. -/
theorem isCounting_cons (c : Char) (rest : List Char) :
    isCounting (c :: rest) = (c.isDigit && c != '0' && rest.all Char.isDigit) := rfl

/-- One more digit makes no numeral stop counting. -/
theorem isCounting_append_singleton {digits : List Char} (ne : digits ≠ []) (c : Char) :
    isCounting (digits ++ [c]) = (isCounting digits && c.isDigit) := by
  obtain ⟨d, rest, rfl⟩ := List.exists_cons_of_ne_nil ne
  simp only [List.cons_append, isCounting_cons, List.all_append, List.all_cons, List.all_nil,
    Bool.and_true, Bool.and_assoc]

/-- Digits without a leading zero are the spelling of a positive number. -/
theorem write_value_of_isCounting {digits : List Char} (h : isCounting digits = true) :
    0 < Decimal.value (digits.map digitValue) ∧
      Decimal.write (Decimal.value (digits.map digitValue)) = digits := by
  -- The spelling of a number ends with its last digit, so the induction is from the end
  induction digits using List.reverseRecOn with
  | nil => simp [isCounting] at h
  | append_singleton digits c ih =>
    rw [List.map_append, List.map_singleton, Decimal.value_append_singleton]
    by_cases single : digits = []
    · -- One digit alone is not zero, so the number is positive
      subst single
      simp only [List.nil_append, isCounting_cons, List.all_nil, Bool.and_true, Bool.and_eq_true,
        bne_iff_ne] at h
      have lt := Decimal.digitValue_lt h.1
      have char := Decimal.digitChar_digitValue h.1
      have pos : 0 < digitValue c := by
        apply Nat.pos_of_ne_zero
        intro zero
        rw [zero] at char
        exact h.2 char.symm
      have value : 10 * Decimal.value (List.map digitValue []) + digitValue c = digitValue c :=
        Nat.zero_add _
      rw [value, Decimal.write, if_pos lt, char]
      exact ⟨pos, rfl⟩
    · rw [isCounting_append_singleton single, Bool.and_eq_true] at h
      obtain ⟨pos, front⟩ := ih h.1
      have lt := Decimal.digitValue_lt h.2
      have big : ¬10 * Decimal.value (digits.map digitValue) + digitValue c < 10 := by omega
      have quotient : (10 * Decimal.value (digits.map digitValue) + digitValue c) / 10 =
          Decimal.value (digits.map digitValue) := by omega
      have remainder : (10 * Decimal.value (digits.map digitValue) + digitValue c) % 10 =
          digitValue c := by omega
      rw [Decimal.write, if_neg big, quotient, remainder, front, Decimal.digitChar_digitValue h.2]
      exact ⟨by omega, rfl⟩

/-- A positive number is a numeral that counts. -/
theorem isCounting_write {n : Nat} (pos : 0 < n) : isCounting (Decimal.write n) = true := by
  fun_induction Decimal.write n with
  | case1 n lt =>
    simp [isCounting, Decimal.isDigit_digitChar, Decimal.digitChar_ne_zero pos lt]
  | case2 n big ih =>
    rw [isCounting_append_singleton (Decimal.write_ne_nil _), ih (by omega),
      Decimal.isDigit_digitChar]
    rfl

/-- The numerals that count are the spellings of the positive numbers. -/
theorem isCounting_iff {digits : List Char} :
    isCounting digits = true ↔ ∃ n, 0 < n ∧ Decimal.write n = digits := by
  constructor
  · intro h
    exact ⟨_, write_value_of_isCounting h⟩
  · intro ⟨n, pos, h⟩
    rw [← h]
    exact isCounting_write pos

/-- Digits are refused only for their number. -/
theorem readDigits_eq_error {digits : List Char} {failure : Failure}
    (h : readDigits digits = .error failure) : failure = .numeralTooLong digits.length := by
  unfold readDigits at h
  split at h
  · injection h with h
    exact h.symm
  · injection h

/-- The spelling of a number is read as that number, unless it is too long. -/
theorem readDigits_write_eq_ok {n m : Nat} : readDigits (Decimal.write n) = .ok m ↔
    n = m ∧ (Decimal.write n).length ≤ Text.numeralLimit := by
  rw [readDigits, Decimal.write_value]
  by_cases long : Text.numeralLimit < (Decimal.write n).length
  · simp [long]
  · simp [if_neg long, Nat.le_of_not_lt long]

/-! ## Integers -/

/-- Without its last line break a token is a text if it is the text, or the text and a line break.
-/
theorem dropFinalBreak_eq_iff {token text : List Char} (h : '\n' ∉ text) :
    dropFinalBreak token = text ↔ token = text ∨ token = text ++ ['\n'] := by
  unfold dropFinalBreak
  split
  · rename_i last
    obtain ⟨front, rfl⟩ := List.getLast?_eq_some_iff.1 last
    rw [List.dropLast_concat, List.append_left_inj]
    constructor
    · exact .inr
    · intro same
      rcases same with rfl | same
      · simp at h
      · exact same
  · -- A token that ends otherwise is not cut, and a line break is no such end
    rename_i other
    constructor
    · exact .inl
    · intro same
      rcases same with same | rfl
      · exact same
      · simp at other

/-- What is written has no line break to drop. -/
theorem dropFinalBreak_of_isItem {text : List Char} (h : Text.IsItem text) :
    dropFinalBreak text = text :=
  (dropFinalBreak_eq_iff (h.not_mem rfl (by decide))).2 (.inl rfl)

/-- A token without a line break is what is written for it. -/
theorem eq_token_iff {token written : List Char} (item : Text.IsItem written)
    (h : dropFinalBreak token = written) : written = token ↔ Text.IsPlain token := by
  constructor
  · rintro rfl
    exact item.isPlain
  · intro plain
    rcases (dropFinalBreak_eq_iff (item.not_mem rfl (by decide))).1 h with same | break_follows
    · exact same.symm
    · have final : '\n' ∈ token := by simp [break_follows]
      exact absurd rfl (plain _ final).2

/-- Digits count exactly if they spell a positive number. They are read as that number if there are
not too many of them. -/
theorem readCounting_eq_ok {cause : RuleCause} {key : String} {token digits : List Char} {n : Int}
    {sign : Int → Int} :
    (if isCounting digits then sign <$> do let m ← readDigits digits; pure (m : Int)
      else refuse cause key token) = .ok n ↔
      ∃ m, 0 < m ∧ digits = Decimal.write m ∧ (Decimal.write m).length ≤ Text.numeralLimit ∧
        n = sign m := by
  constructor
  · -- The digits that count are the spelling of a number, which is read
    intro h
    split at h
    · rename_i counting
      obtain ⟨m, pos, rfl⟩ := isCounting_iff.1 counting
      obtain ⟨_, hk, rfl⟩ := Except.map_eq_ok.1 h
      obtain ⟨k, hk, value⟩ := Except.bind_eq_ok.1 hk
      injection value with value
      obtain ⟨rfl, short⟩ := readDigits_write_eq_ok.1 hk
      exact ⟨m, pos, rfl, short, value ▸ rfl⟩
    · injection h
  · intro ⟨m, pos, same, short, value⟩
    rw [same, if_pos (isCounting_write pos), readDigits_write_eq_ok.2 ⟨rfl, short⟩, value]
    rfl

/-- A token is read as an integer if it spells it, perhaps with a line break at the end, and with no
more digits than a numeral may have. -/
theorem readInteger_eq_ok {key : String} {token : List Char} {n : Int} :
    readInteger key token = .ok n ↔
      dropFinalBreak token = Decimal.writeInt n ∧
        (Decimal.write n.natAbs).length ≤ Text.numeralLimit := by
  unfold readInteger
  constructor
  · -- Zero, a sign before digits and digits alone are read apart
    intro h
    split at h
    · rename_i zero
      injection h with h
      rw [zero, ← h]
      exact ⟨Decimal.write_zero.symm, Decimal.write_zero ▸ by decide⟩
    · rename_i digits negative
      obtain ⟨m, pos, rfl, short, rfl⟩ := readCounting_eq_ok.1 h
      rw [negative, Decimal.writeInt_neg pos, Int.natAbs_neg, Int.natAbs_natCast]
      exact ⟨rfl, short⟩
    · obtain ⟨m, pos, same, short, rfl⟩ := readCounting_eq_ok.1 h
      rw [same, Decimal.writeInt_natCast, Int.natAbs_natCast]
      exact ⟨rfl, short⟩
  · intro ⟨same, short⟩
    rw [same]
    -- An integer is zero, or a positive number with or without a sign
    obtain rfl | ⟨m, pos, rfl | rfl⟩ := Decimal.zero_or_signed n
    · rw [show Decimal.writeInt 0 = ['0'] from Decimal.write_zero]
      rfl
    · rw [Decimal.writeInt_natCast]
      rw [Int.natAbs_natCast] at short
      have counting := isCounting_write pos
      -- A number that counts begins neither with zero nor with a sign
      split
      · rename_i zero
        rw [zero] at counting
        exact absurd counting (by decide)
      · rename_i negative
        rw [negative] at counting
        exact absurd counting (by simp [isCounting_cons])
      · exact readCounting_eq_ok.2 ⟨m, pos, rfl, short, rfl⟩
    · rw [Decimal.writeInt_neg pos]
      rw [Int.natAbs_neg, Int.natAbs_natCast] at short
      exact readCounting_eq_ok.2 ⟨m, pos, rfl, short, rfl⟩

/-- If one integer alone passes a check as some value, it is the one to be read. -/
theorem readInteger_bind_eq_ok {α : Type} {check : Int → Except Failure α} {v : α} {value : Int}
    (h : ∀ n, check n = .ok v ↔ n = value) {key : String} {token : List Char} :
    readInteger key token >>= check = .ok v ↔ readInteger key token = .ok value := by
  rw [Except.bind_eq_ok]
  constructor
  · intro ⟨n, read, passed⟩
    rw [read, (h n).1 passed]
  · intro read
    exact ⟨_, read, (h _).2 rfl⟩

/-- A positive integer is read as an integer. -/
theorem readPositive_eq_ok {key : String} {token : List Char} {positive : Positive} :
    readPositive key token = .ok positive ↔ readInteger key token = .ok positive.val := by
  refine readInteger_bind_eq_ok fun n => ?_
  rw [← Positive.ofInt?_eq_some]
  split <;> simp_all [refuse]

/-- The number of a month is read as an integer. -/
theorem readMonth_eq_ok {key : String} {token : List Char} {month : MonthNumber} :
    readMonth key token = .ok month ↔ readInteger key token = .ok month.val := by
  refine readInteger_bind_eq_ok fun n => ?_
  rw [← MonthNumber.ofInt?_eq_some]
  split <;> simp_all [refuse]

/-- A day of the month is read as an integer. -/
theorem readMonthDay_eq_ok {key : String} {token : List Char} {day : MonthDay} :
    readMonthDay key token = .ok day ↔ readInteger key token = .ok day.val := by
  refine readInteger_bind_eq_ok fun n => ?_
  rw [← MonthDay.ofInt?_eq_some]
  split <;> simp_all [refuse]

/-! ## Lists -/

/-- A list is read as the pieces between its commas, none of which may be empty. -/
theorem readItems_eq_ok {key : String} {value : List Char} {items : List (List Char)} :
    readItems key value = .ok items ↔ items = Text.split ',' value ∧ [] ∉ items := by
  unfold readItems
  simp only
  have empty : (Text.split ',' value).any List.isEmpty = true ↔ [] ∈ Text.split ',' value := by
    simp [List.any_eq_true]
  split
  · rename_i h
    constructor
    · intro refused
      injection refused
    · intro ⟨same, nonempty⟩
      rw [same] at nonempty
      exact absurd (empty.1 h) nonempty
  · rename_i h
    constructor
    · intro read
      injection read with read
      rw [← read]
      exact ⟨rfl, fun mem => h (empty.2 mem)⟩
    · intro ⟨same, _⟩
      rw [same]

/-- The months that are read from tokens are joined to those already read. -/
theorem readMonthsFrom_eq_ok {key : String} {tokens : List (List Char)}
    {months result : MonthList} :
    readMonthsFrom key months tokens = .ok result ↔
      ∃ read, tokens.mapM (readMonth key) = .ok read ∧ result.val = months.val ++ read := by
  induction tokens generalizing months with
  | nil =>
    rw [readMonthsFrom, List.mapM_nil]
    constructor
    · intro h
      injection h with h
      exact ⟨[], rfl, by rw [h, List.append_nil]⟩
    · intro ⟨read, empty, h⟩
      injection empty with empty
      rw [← empty, List.append_nil] at h
      rw [Subtype.ext h]
  | cons token tokens ih =>
    rw [readMonthsFrom, List.mapM_cons]
    constructor
    · -- Each month that is read is not yet among those before it
      intro h
      obtain ⟨month, hmonth, h⟩ := Except.bind_eq_ok.1 h
      split at h
      · injection h
      · obtain ⟨read, hread, h⟩ := ih.1 h
        refine ⟨month :: read, ?_, by rw [h, List.append_assoc, List.singleton_append]⟩
        rw [hmonth, hread]
        rfl
    · intro ⟨read, hread, h⟩
      obtain ⟨month, hmonth, hread⟩ := Except.bind_eq_ok.1 hread
      obtain ⟨rest, hrest, hread⟩ := Except.bind_eq_ok.1 hread
      injection hread with hread
      subst hread
      refine Except.bind_eq_ok.2 ⟨month, hmonth, ?_⟩
      -- The result repeats no month, so this one is new
      have new : month ∉ months.val := by
        intro old
        have distinct := result.property
        rw [h] at distinct
        exact (List.nodup_append.1 distinct).2.2 month old month List.mem_cons_self rfl
      rw [dif_neg new]
      exact ih.2 ⟨rest, hrest, by rw [h, List.append_assoc, List.singleton_append]⟩

/-- Months are read one by one, and none may come twice. -/
theorem readMonths_eq_ok {key : String} {value : List Char} {months : MonthList} :
    readMonths key value = .ok months ↔
      (readItems key value >>= fun tokens => tokens.mapM (readMonth key)) = .ok months.val := by
  rw [readMonths, Except.bind_eq_ok, Except.bind_eq_ok]
  refine exists_congr fun tokens => and_congr_right fun _ => ?_
  rw [readMonthsFrom_eq_ok]
  simp [MonthList.empty]

/-! ## Weekday entries -/

end RuleText

/-- The weekday of a code is the one that is written so. -/
theorem Weekday.ofCode?_eq_some {code : List Char} {w : Weekday} :
    ofCode? code = some w ↔ code = w.code.toList := by
  constructor
  · intro h
    have found := List.find?_some h
    exact (beq_iff_eq.1 found).symm
  · rintro rfl
    cases w <;> rfl

/-- An entry can stand in a list. -/
theorem DayEntry.isItem_write (entry : DayEntry) : Text.IsItem entry.write := by
  unfold DayEntry.write
  have code : Text.IsItem entry.weekday.code.toList := by
    have letters : entry.weekday.code.toList.all Char.isAlphanum = true := by
      cases entry.weekday <;> decide
    exact fun c hc => .inl (List.all_eq_true.1 letters c hc)
  split
  · exact code
  · exact Text.isItem_append.2 ⟨Decimal.isItem_writeInt _, code⟩

/-- An entry is written with at least its weekday. -/
theorem DayEntry.write_ne_nil (entry : DayEntry) : entry.write ≠ [] := by
  have code : entry.weekday.code.toList ≠ [] := by cases entry.weekday <;> decide
  exact List.append_ne_nil_of_right_ne_nil _ code

/-- A positive ordinal stands before the code. -/
theorem DayEntry.write_natCast {m : Nat} (pos : 0 < m) (w : Weekday) :
    write ⟨m, w⟩ = Decimal.write m ++ w.code.toList := by
  rw [write, if_neg (by simp only; omega), Decimal.writeInt_natCast]

/-- A negative one has its sign there too. -/
theorem DayEntry.write_neg {m : Nat} (pos : 0 < m) (w : Weekday) :
    write ⟨-m, w⟩ = '-' :: (Decimal.write m ++ w.code.toList) := by
  rw [write, if_neg (by simp only; omega), Decimal.writeInt_neg pos, List.cons_append]

namespace RuleText

/-- The ordinal of an entry ends where its code begins. -/
theorem span_code {digits : List Char} (h : ∀ c ∈ digits, c.isDigit = true) (w : Weekday) :
    (digits ++ w.code.toList).span Char.isDigit = (digits, w.code.toList) := by
  have no_digit : w.code.toList.takeWhile Char.isDigit = [] := by cases w <;> rfl
  have letters : w.code.toList.dropWhile Char.isDigit = w.code.toList := by cases w <;> rfl
  rw [List.span_eq_takeWhile_dropWhile, List.takeWhile_append_of_pos h,
    List.dropWhile_append_of_pos h, no_digit, letters, List.append_nil]

/-- An entry whose sign has been read already. -/
def readUnsignedEntry (key : String) (token : List Char) (negative : Bool)
    (unsigned : List Char) : Except Failure DayEntry :=
  let digits := unsigned.takeWhile Char.isDigit
  let code := unsigned.dropWhile Char.isDigit
  if !(digits.isEmpty || isCounting digits) || code.isEmpty || !code.all Char.isAlpha then
    refuse .malformedByDay key token
  else
    match Weekday.ofCode? code with
    | none => refuse .unknownWeekday key token
    | some weekday =>
      if digits.isEmpty then
        if negative then refuse .signWithoutOrdinal key token else .ok ⟨0, weekday⟩
      else do
        let n ← readDigits digits
        return ⟨if negative then -(n : Int) else n, weekday⟩

/-- A sign is read before the rest of an entry. -/
theorem readDayEntry_minus {key : String} {token rest : List Char}
    (h : dropFinalBreak token = '-' :: rest) :
    readDayEntry key token = readUnsignedEntry key token true rest := by
  unfold readDayEntry
  rw [h]
  simp only [List.span_eq_takeWhile_dropWhile]
  rfl

/-- Without a sign the whole entry is the rest. -/
theorem readDayEntry_unsigned {key : String} {token : List Char}
    (h : ∀ rest, dropFinalBreak token ≠ '-' :: rest) :
    readDayEntry key token = readUnsignedEntry key token false (dropFinalBreak token) := by
  unfold readDayEntry
  simp only [List.span_eq_takeWhile_dropWhile]
  rfl

/-- The digits of an ordinal end where the code begins, and all checks are passed. -/
theorem readUnsignedEntry_write {m : Nat} (pos : 0 < m) (key : String) (token : List Char)
    (negative : Bool) (w : Weekday) :
    readUnsignedEntry key token negative (Decimal.write m ++ w.code.toList) =
      (fun n : Nat => ⟨if negative then -(n : Int) else n, w⟩) <$>
        readDigits (Decimal.write m) := by
  have split := span_code (fun _ hc => Decimal.isDigit_of_mem_write (n := m) hc) w
  rw [List.span_eq_takeWhile_dropWhile] at split
  injection split with digits code
  have present : (Decimal.write m).isEmpty = false := by simp [Decimal.write_ne_nil]
  have letters : w.code.toList.isEmpty = false ∧ w.code.toList.all Char.isAlpha = true := by
    cases w <;> decide
  have known : Weekday.ofCode? w.code.toList = some w := Weekday.ofCode?_eq_some.2 rfl
  simp only [readUnsignedEntry, digits, code, isCounting_write pos, present, letters, known,
    Bool.or_true, Bool.not_true, Bool.or_self, Bool.false_eq_true, if_false]
  rfl

/-- Without an ordinal there is no sign, and an ordinal counts from one. -/
theorem readUnsignedEntry_eq_ok {key : String} {token : List Char} {negative : Bool}
    {unsigned : List Char} {ordinal : Int} {w : Weekday} :
    readUnsignedEntry key token negative unsigned = .ok ⟨ordinal, w⟩ ↔
      (negative = false ∧ ordinal = 0 ∧ unsigned = w.code.toList) ∨
        ∃ m : Nat, 0 < m ∧ (Decimal.write m).length ≤ Text.numeralLimit ∧
          ordinal = (if negative then -(m : Int) else m) ∧
            unsigned = Decimal.write m ++ w.code.toList := by
  constructor
  · intro h
    unfold readUnsignedEntry at h
    simp only at h
    have parts : unsigned.takeWhile Char.isDigit ++ unsigned.dropWhile Char.isDigit = unsigned :=
      List.takeWhile_append_dropWhile
    split at h
    · injection h
    · -- The form leaves open only whether there are digits before the code
      rename_i formed
      simp only [Bool.or_eq_true, Bool.not_eq_true', not_or, Bool.not_eq_false] at formed
      split at h
      · injection h
      · rename_i code
        have code := Weekday.ofCode?_eq_some.1 code
        -- Without digits there may be no sign either, for the ordinal is zero
        by_cases code_only : (unsigned.takeWhile Char.isDigit).isEmpty = true
        · left
          rw [if_pos code_only] at h
          split at h
          · injection h
          · rename_i positive
            injection h with h
            injection h with zero same
            rw [List.isEmpty_iff.1 code_only, List.nil_append, code, same] at parts
            exact ⟨Bool.not_eq_true _ ▸ positive, zero.symm, parts.symm⟩
        · right
          rw [if_neg code_only] at h
          obtain ⟨m, pos, digits⟩ := isCounting_iff.1 (formed.1.1.resolve_left code_only)
          rw [← digits] at h parts
          obtain ⟨n, hn, h⟩ := Except.bind_eq_ok.1 h
          obtain ⟨rfl, short⟩ := readDigits_write_eq_ok.1 hn
          injection h with h
          injection h with value same
          rw [code, same] at parts
          exact ⟨m, pos, short, value.symm, parts.symm⟩
  · rintro (⟨rfl, rfl, rfl⟩ | ⟨m, pos, short, rfl, rfl⟩)
    · cases w <;> rfl
    · rw [readUnsignedEntry_write pos, readDigits_write_eq_ok.2 ⟨rfl, short⟩]
      rfl

/-- Digits are no sign. -/
theorem write_append_ne_minus {m : Nat} {rest text : List Char} :
    Decimal.write m ++ text ≠ '-' :: rest := by
  intro h
  obtain ⟨d, digits, eq⟩ := List.exists_cons_of_ne_nil (Decimal.write_ne_nil m)
  have digit : d.isDigit = true := Decimal.isDigit_of_mem_write (n := m) (by simp [eq])
  rw [eq] at h
  injection h with h _
  rw [h] at digit
  exact absurd digit (by decide)

/-- A token is read as an entry if it spells it, perhaps with a line break at the end, and with no
longer an ordinal than a numeral may be. -/
theorem readDayEntry_eq_ok {key : String} {token : List Char} {entry : DayEntry} :
    readDayEntry key token = .ok entry ↔
      dropFinalBreak token = entry.write ∧
        (Decimal.write entry.ordinal.natAbs).length ≤ Text.numeralLimit := by
  obtain ⟨ordinal, w⟩ := entry
  by_cases minus : ∃ rest, dropFinalBreak token = '-' :: rest
  · -- After a sign there is an ordinal, and an entry with a negative one begins with its sign
    obtain ⟨rest, minus⟩ := minus
    rw [readDayEntry_minus minus, readUnsignedEntry_eq_ok, minus]
    constructor
    · intro h
      obtain ⟨absurd, -⟩ | ⟨m, pos, short, rfl, rfl⟩ := h
      · injection absurd
      · simp only [if_true, Int.natAbs_neg, Int.natAbs_natCast]
        exact ⟨(DayEntry.write_neg pos w).symm, short⟩
    · intro ⟨same, short⟩
      obtain rfl | ⟨m, pos, rfl | rfl⟩ := Decimal.zero_or_signed ordinal
      · cases w <;> (injection same with same; exact absurd same (by decide))
      · rw [DayEntry.write_natCast pos] at same
        exact absurd same.symm write_append_ne_minus
      · rw [DayEntry.write_neg pos] at same
        injection same with _ same
        rw [Int.natAbs_neg, Int.natAbs_natCast] at short
        exact .inr ⟨m, pos, short, rfl, same⟩
  · -- Without a sign the ordinal is positive, or there is none
    have unsigned := not_exists.1 minus
    rw [readDayEntry_unsigned unsigned, readUnsignedEntry_eq_ok]
    generalize dropFinalBreak token = body at unsigned ⊢
    constructor
    · intro h
      obtain ⟨-, rfl, rfl⟩ | ⟨m, pos, short, rfl, rfl⟩ := h
      · refine ⟨rfl, ?_⟩
        rw [Int.natAbs_zero, Decimal.write_zero]
        decide
      · exact ⟨(DayEntry.write_natCast pos w).symm, short⟩
    · intro ⟨same, short⟩
      obtain rfl | ⟨m, pos, rfl | rfl⟩ := Decimal.zero_or_signed ordinal
      · exact .inl ⟨rfl, rfl, same⟩
      · rw [DayEntry.write_natCast pos] at same
        exact .inr ⟨m, pos, short, rfl, same⟩
      · rw [DayEntry.write_neg pos] at same
        exact absurd same (unsigned _)

/-- What is written for an entry is refused only for the length of its ordinal. -/
theorem readDayEntry_write_error {key : String} {entry : DayEntry} {failure : Failure}
    (h : readDayEntry key entry.write = .error failure) : ∃ n, failure = .numeralTooLong n := by
  have kept := dropFinalBreak_of_isItem entry.isItem_write
  obtain ⟨ordinal, w⟩ := entry
  -- Without an ordinal nothing is wrong, and with one only its length can be
  obtain rfl | ⟨m, pos, rfl | rfl⟩ := Decimal.zero_or_signed ordinal
  · rw [readDayEntry_eq_ok.2 ⟨kept, by rw [Int.natAbs_zero, Decimal.write_zero]; decide⟩] at h
    injection h
  · rw [DayEntry.write_natCast pos] at h kept
    rw [readDayEntry_unsigned (by rw [kept]; exact fun _ => write_append_ne_minus), kept,
      readUnsignedEntry_write pos, Except.map_eq_error] at h
    exact ⟨_, readDigits_eq_error h⟩
  · rw [DayEntry.write_neg pos] at h kept
    rw [readDayEntry_minus kept, readUnsignedEntry_write pos, Except.map_eq_error] at h
    exact ⟨_, readDigits_eq_error h⟩

end RuleText

end Recurrence
