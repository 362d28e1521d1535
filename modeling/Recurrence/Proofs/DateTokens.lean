import Recurrence.Proofs.Numerals
import Recurrence.Proofs.WrittenMoments

/-!
# Date tokens, read and written

The reader of date tokens takes the parts of a date from a text without dividers. It takes digits
of other scripts too, and each part may have one digit or two. A text of the full length leaves no
choice: among ASCII texts, the readable ones are the spellings with all leading zeros.

* `DateToken.readReading_date`, `DateToken.readReading_timed`: the ASCII texts that are read.
* `DateToken.read_eq_ok`: the three shapes of a token.
* `DateToken.spelling_eq_iff`: when a token that is read is written back as it stood.
-/

namespace Recurrence

/-! ## Padded numbers -/

namespace Decimal

/-- A number of one digit more. -/
theorem writePadded_succ {k : Nat} (hk : 0 < k) (n : Nat) {d : Nat} (hd : d < 10) :
    writePadded (k + 1) (10 * n + d) = writePadded k n ++ [digitChar d] := by
  -- Zero has a digit of its own, which the last one takes the place of
  by_cases zero : n = 0
  · subst zero
    have length : k + 1 - 1 = k - 1 + 1 := by omega
    rw [Nat.mul_zero, Nat.zero_add, writePadded, writePadded, write_of_lt hd,
      write_of_lt (by decide), List.length_singleton, List.length_singleton, length,
      List.replicate_succ']
    rfl
  · have quotient : (10 * n + d) / 10 = n := by omega
    have remainder : (10 * n + d) % 10 = d := by omega
    have last : write (10 * n + d) = write n ++ [digitChar d] := by
      rw [write, if_neg (by omega), quotient, remainder]
    have length : k + 1 - ((write n).length + 1) = k - (write n).length := by omega
    rw [writePadded, writePadded, last, List.length_append, List.length_singleton, length,
      List.append_assoc]

/-- Digits are the spelling of their value, padded to their number. -/
theorem writePadded_value {digits : List Char} (ne : digits ≠ [])
    (h : ∀ c ∈ digits, c.isDigit = true) :
    writePadded digits.length (value (digits.map digitValue)) = digits := by
  -- The last digit is split off, as in the spelling of a number
  induction digits using List.reverseRecOn with
  | nil => exact absurd rfl ne
  | append_singleton digits c ih =>
    have last : c.isDigit = true := h c (by simp)
    have lt := digitValue_lt last
    rw [List.map_append, List.map_singleton, value_append_singleton, List.length_append,
      List.length_singleton]
    by_cases single : digits = []
    · subst single
      have value : 10 * value (List.map digitValue []) + digitValue c = digitValue c :=
        Nat.zero_add _
      rw [value, writePadded, write_of_lt lt, digitChar_digitValue last]
      rfl
    · rw [writePadded_succ (List.length_pos_iff.2 single) _ lt, digitChar_digitValue last,
        ih single fun d hd => h d (List.mem_append_left _ hd)]

/-- A number that fills its width has nothing to pad. -/
theorem writePadded_eq_write {k n : Nat} (h : k ≤ (write n).length) :
    writePadded k n = write n := by
  rw [writePadded, Nat.sub_eq_zero_of_le h, List.replicate_zero, List.nil_append]

/-- The years from 1000 on are those of four digits. -/
theorem length_write_four {n : Nat} (h : n < 10000) : 4 ≤ (write n).length ↔ 1000 ≤ n := by
  constructor
  · intro long
    by_cases small : n < 1000
    · have := length_write_le (k := 3) (by decide) small
      omega
    · omega
  · intro big
    have one : 1 ≤ (write (n / 10 / 10 / 10)).length :=
      List.length_pos_iff.2 (write_ne_nil _)
    rw [write, if_neg (by omega), write, if_neg (by omega), write, if_neg (by omega)]
    simp only [List.length_append, List.length_singleton]
    omega

end Decimal

/-- A time of day is made from its hour, minute, second and microsecond. -/
theorem TimeOfDay.of?_eq_some {hour minute second micro : Nat} {t : TimeOfDay} :
    of? hour minute second micro = some t ↔
      t.hour = hour ∧ t.minute = minute ∧ t.second = second ∧ t.micro = micro := by
  constructor
  · intro h
    unfold of? at h
    split at h
    · rename_i inside
      injection h with h
      subst h
      simp only [TimeOfDay.hour, TimeOfDay.minute, TimeOfDay.second, TimeOfDay.micro]
      omega
    · injection h
  · rintro ⟨rfl, rfl, rfl, rfl⟩
    exact Iso.of?_parts t

namespace DateToken

/-! ## Classes -/

/-- A property of all ASCII characters, checked one by one. -/
theorem ascii_forall {p : Char → Prop} (h : ∀ n < 128, p (Char.ofNat n)) {c : Char}
    (hc : c.toNat < 128) : p c := by
  have checked := h c.toNat hc
  rwa [Char.ofNat_toNat] at checked

/-- Among the ASCII characters, the decimal digits are those that one expects. -/
theorem anyDigit_of_ascii {c : Char} (h : c.toNat < 128) :
    anyDigit c = if c.isDigit then some (Decimal.digitValue c) else none :=
  ascii_forall (p := fun c => anyDigit c =
    if c.isDigit then some (Decimal.digitValue c) else none) (by decide +kernel) h

/-- Among the digits of all scripts those of ASCII have their usual values. -/
theorem anyDigit_of_isDigit {c : Char} (h : c.isDigit = true) :
    anyDigit c = some (Decimal.digitValue c) :=
  Text.digitValue?_ascii c h

/-- Whether a class takes no ASCII characters but digits, with their own values. -/
def IsNumeric (digit : DigitClass) : Prop :=
  ∀ c value, c.toNat < 128 → digit c = some value →
    c.isDigit = true ∧ value = Decimal.digitValue c

/-- Of the ASCII characters only digits are digits of a script. -/
theorem isNumeric_anyDigit : IsNumeric anyDigit := by
  intro c value ascii h
  rw [anyDigit_of_ascii ascii] at h
  split at h
  · rename_i digit
    injection h with h
    exact ⟨digit, h.symm⟩
  · injection h

/-- A class of ASCII digits has digits only. -/
theorem isNumeric_asciiDigit (least greatest : Nat) : IsNumeric (asciiDigit least greatest) := by
  intro c value _ h
  unfold asciiDigit at h
  split at h
  · rename_i inside
    simp only [Bool.and_eq_true] at inside
    injection h with h
    exact ⟨inside.1.1, h.symm⟩
  · injection h

/-! ## Sequences of classes -/

/-- What follows the digits is left over. -/
theorem readClasses_append {classes : List DigitClass} {front : List Char}
    (h : classes.length ≤ front.length) (acc : Nat) (rest : List Char) :
    readClasses classes acc (front ++ rest) =
      (readClasses classes acc front).map fun read => (read.1, read.2 ++ rest) := by
  induction classes generalizing front acc with
  | nil => rfl
  | cons digit classes ih =>
    cases front with
    | nil => simp at h
    | cons c front =>
      simp only [List.cons_append, readClasses]
      cases digit c with
      | none => rfl
      | some value => exact ih (Nat.le_of_succ_le_succ h) _

/-- What a sequence of classes takes from a text, and the number that it makes of it. -/
theorem exists_of_readClasses {classes : List DigitClass} {acc value : Nat} {text rest : List Char}
    (h : readClasses classes acc text = some (value, rest)) :
    ∃ front, text = front ++ rest ∧ front.length = classes.length ∧
      readClasses classes acc front = some (value, []) := by
  induction classes generalizing acc text with
  | nil =>
    injection h with h
    injection h with value rest
    exact ⟨[], rest, rfl, by rw [value]; rfl⟩
  -- One character is taken for each class
  | cons digit classes ih =>
    cases text with
    | nil => injection h
    | cons c text =>
      rw [readClasses] at h
      split at h
      · rename_i d hd
        obtain ⟨front, same, length, read⟩ := ih h
        refine ⟨c :: front, by rw [same]; rfl, congrArg (· + 1) length, ?_⟩
        simp only [readClasses, hd, read]
      · injection h

/-- ASCII characters that are read are digits, with their decimal value. -/
theorem value_of_readClasses {classes : List DigitClass} (h : ∀ digit ∈ classes, IsNumeric digit)
    {acc value : Nat} {front : List Char} (ascii : ∀ c ∈ front, c.toNat < 128)
    (read : readClasses classes acc front = some (value, [])) :
    (∀ c ∈ front, c.isDigit = true) ∧
      value = (front.map Decimal.digitValue).foldl (fun acc d => 10 * acc + d) acc := by
  induction classes generalizing acc front with
  | nil =>
    injection read with read
    injection read with value rest
    subst value rest
    simp
  -- Each digit goes behind the value of those before it
  | cons digit classes ih =>
    cases front with
    | nil => injection read
    | cons c front =>
      rw [readClasses] at read
      split at read
      · rename_i d hd
        obtain ⟨isDigit, rfl⟩ := h digit List.mem_cons_self c d (ascii c List.mem_cons_self) hd
        obtain ⟨digits, value⟩ := ih (fun _ hx => h _ (List.mem_cons_of_mem _ hx))
          (fun _ hx => ascii _ (List.mem_cons_of_mem _ hx)) read
        exact ⟨List.forall_mem_cons.2 ⟨isDigit, digits⟩, value⟩
      · injection read

/-- ASCII digits are taken by classes of digits. -/
theorem readClasses_digits {front : List Char} (h : ∀ c ∈ front, c.isDigit = true) (acc : Nat) :
    readClasses (List.replicate front.length anyDigit) acc front =
      some ((front.map Decimal.digitValue).foldl (fun acc d => 10 * acc + d) acc, []) := by
  induction front generalizing acc with
  | nil => rfl
  | cons c front ih =>
    rw [List.length_cons, List.replicate_succ, readClasses,
      anyDigit_of_isDigit (h c List.mem_cons_self)]
    exact ih (fun d hd => h d (List.mem_cons_of_mem _ hd)) _

/-! ## Parts -/

namespace Part

/-- Whether a part can take a text for a value. -/
def Takes (part : Part) (front : List Char) (value : Nat) : Prop :=
  ∃ classes ∈ part, front.length = classes.length ∧
    readClasses classes 0 front = some (value, [])

/-- Whether a part takes a text for a value before any shorter one. -/
def Prefers (part : Part) (front : List Char) (value : Nat) : Prop :=
  (∀ classes ∈ part, classes.length ≤ front.length) ∧
    (part.filterMap fun classes => readClasses classes 0 front).head? = some (value, [])

/-- Whether a part consists of digits, at most so many. -/
def IsNumeral (part : Part) (width : Nat) : Prop :=
  ∀ classes ∈ part, classes.length ≤ width ∧ ∀ digit ∈ classes, IsNumeric digit

variable {part : Part} {parts : List Part} {front rest left : List Char} {value width : Nat}
  {values : List Nat}

/-- A part takes no more characters than its numeral is wide. -/
theorem length_of_takes (h : part.IsNumeral width) (ht : part.Takes front value) :
    front.length ≤ width := by
  obtain ⟨classes, hc, length, -⟩ := ht
  rw [length]
  exact (h classes hc).1

/-- ASCII characters that a part takes are digits, with their decimal value. -/
theorem value_of_takes (h : part.IsNumeral width) (ht : part.Takes front value)
    (ascii : ∀ c ∈ front, c.toNat < 128) : (∀ c ∈ front, c.isDigit = true) ∧
      value = Decimal.value (front.map Decimal.digitValue) := by
  obtain ⟨classes, hc, -, read⟩ := ht
  exact value_of_readClasses (h classes hc).2 ascii read

/-- Parts take a text piece by piece. -/
theorem exists_of_mem_readParts {text : List Char}
    (h : (values, left) ∈ readParts (part :: parts) text) :
    ∃ front rest value later, text = front ++ rest ∧ part.Takes front value ∧
      (later, left) ∈ readParts parts rest ∧ values = value :: later := by
  simp only [readParts, List.mem_flatMap, List.mem_filterMap, List.mem_map, Prod.exists] at h
  obtain ⟨value, rest, ⟨classes, hclasses, read⟩, later, left', hlater, same⟩ := h
  injection same with hvalues hleft
  subst hvalues hleft
  obtain ⟨front, htext, length, taken⟩ := exists_of_readClasses read
  exact ⟨front, rest, value, later, htext, ⟨classes, hclasses, length, taken⟩, hlater, rfl⟩

/-- Without parts nothing is read. -/
theorem readParts_nil (h : (values, left) ∈ readParts [] rest) : values = [] ∧ left = rest := by
  simpa [readParts] using h

/-- The preferred value of a part comes first, whatever follows its text. -/
theorem head?_readParts (h : part.Prefers front value)
    (hrest : (readParts parts rest).head? = some (values, left)) :
    (readParts (part :: parts) (front ++ rest)).head? = some (value :: values, left) := by
  obtain ⟨short, first⟩ := h
  have longer : (part.filterMap fun classes => readClasses classes 0 (front ++ rest)) =
      (part.filterMap fun classes => readClasses classes 0 front).map
        fun read => (read.1, read.2 ++ rest) := by
    rw [List.map_filterMap]
    exact List.filterMap_congr fun classes hc => readClasses_append (short classes hc) 0 rest
  obtain ⟨others, hothers⟩ := List.head?_eq_some_iff.1 first
  obtain ⟨later, hlater⟩ := List.head?_eq_some_iff.1 hrest
  simp only [readParts, longer, hothers, List.map_cons, List.flatMap_cons, List.nil_append,
    hlater, List.cons_append, List.head?_cons]

end Part

/-- A year is a numeral of four digits. -/
theorem isNumeral_yearPart : yearPart.IsNumeral 4 := by
  simp [Part.IsNumeral, yearPart, isNumeric_anyDigit]

/-- A month is a numeral of at most two digits. -/
theorem isNumeral_monthPart : monthPart.IsNumeral 2 := by
  simp [Part.IsNumeral, monthPart, isNumeric_asciiDigit]

/-- So is a day. -/
theorem isNumeral_dayPart : dayPart.IsNumeral 2 := by
  simp [Part.IsNumeral, dayPart, isNumeric_asciiDigit, isNumeric_anyDigit]

/-- So is an hour. -/
theorem isNumeral_hourPart : hourPart.IsNumeral 2 := by
  simp [Part.IsNumeral, hourPart, isNumeric_asciiDigit, isNumeric_anyDigit]

/-- So is a minute. -/
theorem isNumeral_minutePart : minutePart.IsNumeral 2 := by
  simp [Part.IsNumeral, minutePart, isNumeric_asciiDigit, isNumeric_anyDigit]

/-- So is a second. -/
theorem isNumeral_secondPart : secondPart.IsNumeral 2 := by
  simp [Part.IsNumeral, secondPart, isNumeric_asciiDigit, isNumeric_anyDigit]

/-- Between date and time there is a letter only. -/
theorem takes_separatorPart {front : List Char} {value : Nat}
    (h : separatorPart.Takes front value) : front = ['T'] := by
  obtain ⟨classes, hclasses, length, read⟩ := h
  rw [List.mem_singleton.1 hclasses] at length read
  obtain ⟨c, rfl⟩ := List.length_eq_one_iff.1 length
  simp only [readClasses, literal] at read
  split at read
  · rename_i hd
    split at hd
    · rename_i same
      rw [beq_iff_eq.1 same]
    · injection hd
  · injection read

/-! ## Padded spellings -/

/-- The spelling of a date with all leading zeros. -/
def paddedDate (d : Date) : List Char :=
  Decimal.writePadded 4 d.year ++ (Decimal.writePadded 2 d.month ++ Decimal.writePadded 2 d.day)

/-- The spelling of a time of day, after the letter that divides it from the date. -/
def paddedTime (t : TimeOfDay) : List Char :=
  'T' :: (Decimal.writePadded 2 t.hour ++
    (Decimal.writePadded 2 t.minute ++ Decimal.writePadded 2 t.second))

/-- A piece of ASCII text of the full width is the padded spelling of what its part takes it
for. -/
theorem writePadded_of_takes {part : Part} {front : List Char} {value width : Nat}
    (pos : 0 < width) (h : part.IsNumeral width) (ht : part.Takes front value)
    (ascii : ∀ c ∈ front, c.toNat < 128) (full : front.length = width) :
    front = Decimal.writePadded width value := by
  obtain ⟨digits, rfl⟩ := Part.value_of_takes h ht ascii
  have ne : front ≠ [] := List.length_pos_iff.1 (by omega)
  rw [← full, Decimal.writePadded_value ne digits]

/-- The parts of a date take at most eight characters, and eight ASCII characters are the padded
spelling. -/
theorem exists_of_dateParts {more : List Part} {text : List Char} {values : List Nat}
    (h : (values, []) ∈ readParts (yearPart :: monthPart :: dayPart :: more) text) :
    ∃ front rest y m d later, text = front ++ rest ∧ (later, []) ∈ readParts more rest ∧
      values = y :: m :: d :: later ∧ front.length ≤ 8 ∧
      (front.length = 8 → (∀ c ∈ front, c.toNat < 128) →
        front = Decimal.writePadded 4 y ++ (Decimal.writePadded 2 m ++
          Decimal.writePadded 2 d)) := by
  obtain ⟨year, rest, y, later, rfl, hyear, hmonths, rfl⟩ := Part.exists_of_mem_readParts h
  obtain ⟨month, rest, m, later, rfl, hmonth, hdays, rfl⟩ := Part.exists_of_mem_readParts hmonths
  obtain ⟨day, rest, d, later, rfl, hday, hmore, rfl⟩ := Part.exists_of_mem_readParts hdays
  -- Eight characters are just enough for all parts at their full width
  have four := Part.length_of_takes isNumeral_yearPart hyear
  have two := Part.length_of_takes isNumeral_monthPart hmonth
  have two' := Part.length_of_takes isNumeral_dayPart hday
  refine ⟨year ++ (month ++ day), rest, y, m, d, later, ?_, hmore, rfl, ?_, ?_⟩
  · simp only [List.append_assoc]
  · simp only [List.length_append]
    omega
  · intro full ascii
    simp only [List.length_append, List.forall_mem_append] at full ascii
    rw [writePadded_of_takes (by decide) isNumeral_yearPart hyear ascii.1 (by omega),
      writePadded_of_takes (by decide) isNumeral_monthPart hmonth ascii.2.1 (by omega),
      writePadded_of_takes (by decide) isNumeral_dayPart hday ascii.2.2 (by omega)]

/-- So do the parts of a time of day, with the letter before them seven. -/
theorem exists_of_timeParts {text : List Char} {values : List Nat}
    (h : (values, []) ∈ readParts [separatorPart, hourPart, minutePart, secondPart] text) :
    ∃ x hour minute second, values = [x, hour, minute, second] ∧ text.length ≤ 7 ∧
      (text.length = 7 → (∀ c ∈ text, c.toNat < 128) →
        text = 'T' :: (Decimal.writePadded 2 hour ++ (Decimal.writePadded 2 minute ++
          Decimal.writePadded 2 second))) := by
  obtain ⟨mark, rest, x, later, rfl, hmark, hhours, rfl⟩ := Part.exists_of_mem_readParts h
  obtain ⟨hour, rest, ho, later, rfl, hhour, hminutes, rfl⟩ := Part.exists_of_mem_readParts hhours
  obtain ⟨minute, rest, mi, later, rfl, hminute, hseconds, rfl⟩ :=
    Part.exists_of_mem_readParts hminutes
  obtain ⟨second, rest, se, later, rfl, hsecond, hend, rfl⟩ :=
    Part.exists_of_mem_readParts hseconds
  obtain ⟨rfl, rfl⟩ := Part.readParts_nil hend
  have hmark := takes_separatorPart hmark
  subst hmark
  -- Seven characters are just enough for all parts at their full width
  have two := Part.length_of_takes isNumeral_hourPart hhour
  have two' := Part.length_of_takes isNumeral_minutePart hminute
  have two'' := Part.length_of_takes isNumeral_secondPart hsecond
  refine ⟨x, ho, mi, se, rfl, ?_, ?_⟩
  · simp only [List.length_append, List.length_singleton, List.length_nil]
    omega
  · intro full ascii
    simp only [List.length_append, List.length_singleton, List.length_nil,
      List.forall_mem_append] at full ascii
    rw [writePadded_of_takes (by decide) isNumeral_hourPart hhour ascii.2.1 (by omega),
      writePadded_of_takes (by decide) isNumeral_minutePart hminute ascii.2.2.1 (by omega),
      writePadded_of_takes (by decide) isNumeral_secondPart hsecond ascii.2.2.2.1 (by omega),
      List.append_nil]
    rfl

/-- A reading that is read comes from parts that take the whole text. -/
theorem exists_of_readReading {timed : Bool} {text : List Char} {r : Reading}
    (h : readReading timed text = .ok r) :
    ∃ values, (values, []) ∈ readParts (parts timed) text ∧ readingOf values = .ok r := by
  unfold readReading at h
  split at h
  · injection h
  · rename_i values rest others first
    split at h
    · rename_i complete
      refine ⟨values, ?_, h⟩
      rw [first, List.isEmpty_iff.1 complete]
      exact List.mem_cons_self
    · injection h

/-- The first way to read all parts up to the end of the text counts. -/
theorem readReading_of_head? {timed : Bool} {text : List Char} {values : List Nat}
    (h : (readParts (parts timed) text).head? = some (values, [])) :
    readReading timed text = readingOf values := by
  obtain ⟨others, hothers⟩ := List.head?_eq_some_iff.1 h
  simp only [readReading, hothers, List.isEmpty_nil, if_true]

/-! ## Preferred parts -/

/-- Two digits are the tens and the ones. -/
theorem writePadded_two {n : Nat} (h : n < 100) :
    Decimal.writePadded 2 n = [Decimal.digitChar (n / 10), Decimal.digitChar n] := by
  have first : Decimal.writePadded 1 (n / 10) = [Decimal.digitChar (n / 10)] := by
    rw [Decimal.writePadded, Decimal.write_of_lt (by omega)]
    rfl
  have last : Decimal.digitChar (n % 10) = Decimal.digitChar n := by
    rw [Decimal.digitChar, Decimal.digitChar, Nat.mod_mod]
  calc Decimal.writePadded 2 n = Decimal.writePadded 2 (10 * (n / 10) + n % 10) := by
        rw [Nat.div_add_mod]
    _ = Decimal.writePadded 1 (n / 10) ++ [Decimal.digitChar (n % 10)] :=
        Decimal.writePadded_succ (by decide) _ (Nat.mod_lt _ (by decide))
    _ = [Decimal.digitChar (n / 10), Decimal.digitChar n] := by
        rw [first, last]
        rfl

/-- A part of two digits prefers them if it does so for each number that it can stand for. -/
theorem prefers_of_forall {part : Part} (numeral : part.IsNumeral 2) (bound : Nat)
    (p : Nat → Prop) (first : ∀ n < bound, p n → (part.filterMap fun classes =>
      readClasses classes 0 [Decimal.digitChar (n / 10), Decimal.digitChar n]).head? =
        some (n, []))
    (small : bound ≤ 100) {n : Nat} (hn : n < bound) (hp : p n) :
    part.Prefers (Decimal.writePadded 2 n) n := by
  rw [Part.Prefers, writePadded_two (by omega)]
  exact ⟨fun classes hc => (numeral classes hc).1, first n hn hp⟩

/-- The year in four digits is read first as that year. -/
theorem prefers_yearPart (d : Date) : yearPart.Prefers (Decimal.writePadded 4 d.year) d.year := by
  have valid := d.valid.1
  have length : (Decimal.writePadded 4 d.year).length = 4 :=
    Decimal.length_writePadded (by decide) (by omega)
  have digits : readClasses [anyDigit, anyDigit, anyDigit, anyDigit] 0
      (Decimal.writePadded 4 d.year) = some (d.year, []) := by
    have read := readClasses_digits
      (fun _ hc => Decimal.isDigit_of_mem_writePadded (k := 4) (n := d.year) hc) 0
    rw [length, ← Decimal.value, Decimal.value_writePadded] at read
    exact read
  constructor
  · simp [yearPart, length]
  · simp [yearPart, digits]

/-- The month in two digits is read first as that month. -/
theorem prefers_monthPart (d : Date) :
    monthPart.Prefers (Decimal.writePadded 2 d.month) d.month := by
  have valid := d.valid.2.1
  exact prefers_of_forall isNumeral_monthPart 13 (1 ≤ ·) (by decide +kernel) (by decide)
    (by omega) valid.1

/-- The day in two digits is read first as that day. -/
theorem prefers_dayPart (d : Date) : dayPart.Prefers (Decimal.writePadded 2 d.day) d.day := by
  have valid := d.valid.2.2
  have last := monthLength_le (isLeapYear d.year) d.month
  exact prefers_of_forall isNumeral_dayPart 32 (1 ≤ ·) (by decide +kernel) (by decide)
    (by omega) valid.1

/-- The letter is read before anything else. -/
theorem prefers_separatorPart : separatorPart.Prefers ['T'] 0 := by
  unfold Part.Prefers
  decide

/-- The hour in two digits is read first as that hour. -/
theorem prefers_hourPart (t : TimeOfDay) :
    hourPart.Prefers (Decimal.writePadded 2 t.hour) t.hour := by
  have lt := t.lt
  exact prefers_of_forall isNumeral_hourPart 24 (fun _ => True) (by decide +kernel) (by decide)
    (by unfold TimeOfDay.hour ticksPerDay at *; omega) trivial

/-- The minute in two digits is read first as that minute. -/
theorem prefers_minutePart (t : TimeOfDay) :
    minutePart.Prefers (Decimal.writePadded 2 t.minute) t.minute :=
  prefers_of_forall isNumeral_minutePart 60 (fun _ => True) (by decide +kernel) (by decide)
    (by unfold TimeOfDay.minute; omega) trivial

/-- The second in two digits is read first as that second. -/
theorem prefers_secondPart (t : TimeOfDay) :
    secondPart.Prefers (Decimal.writePadded 2 t.second) t.second :=
  prefers_of_forall isNumeral_secondPart 60 (fun _ => True) (by decide +kernel) (by decide)
    (by unfold TimeOfDay.second; omega) trivial

/-- A padded date is read first as its year, month and day. -/
theorem head?_paddedDate (d : Date) {more : List Part} {rest left : List Char}
    {values : List Nat} (h : (readParts more rest).head? = some (values, left)) :
    (readParts (yearPart :: monthPart :: dayPart :: more) (paddedDate d ++ rest)).head? =
      some (d.year :: d.month :: d.day :: values, left) := by
  rw [paddedDate, List.append_assoc, List.append_assoc]
  exact Part.head?_readParts (prefers_yearPart d)
    (Part.head?_readParts (prefers_monthPart d) (Part.head?_readParts (prefers_dayPart d) h))

/-- A padded time is read first as its hour, minute and second. -/
theorem head?_paddedTime (t : TimeOfDay) :
    (readParts [separatorPart, hourPart, minutePart, secondPart] (paddedTime t)).head? =
      some ([0, t.hour, t.minute, t.second], []) := by
  have last := Part.head?_readParts (prefers_secondPart t)
    (show (readParts [] []).head? = some ([], []) from rfl)
  rw [List.append_nil] at last
  exact Part.head?_readParts prefers_separatorPart
    (Part.head?_readParts (prefers_hourPart t) (Part.head?_readParts (prefers_minutePart t) last))

/-! ## Readings -/

/-- Parts name a date exactly if there is a date with them, and the time is midnight. -/
theorem readingOf_date {y m d : Nat} {r : Reading} : readingOf [y, m, d] = .ok r ↔
    (r.date.year = y ∧ r.date.month = m ∧ r.date.day = d) ∧ r.time = .midnight := by
  rw [← Date.of?_eq_some]
  obtain ⟨date', time⟩ := r
  unfold readingOf
  simp only
  split
  · rename_i no_date
    simp [no_date]
  · rename_i date hdate
    simp [hdate, eq_comm]

/-- Seven values are a reading if they are its date and its time in whole seconds. -/
theorem readingOf_timed {y m d x hour minute second : Nat} {r : Reading} :
    readingOf [y, m, d, x, hour, minute, second] = .ok r ↔
      (r.date.year = y ∧ r.date.month = m ∧ r.date.day = d) ∧
        r.time.hour = hour ∧ r.time.minute = minute ∧ r.time.second = second ∧
          r.time.micro = 0 := by
  rw [← Date.of?_eq_some, ← TimeOfDay.of?_eq_some]
  obtain ⟨date', time'⟩ := r
  unfold readingOf
  simp only
  -- The date is made before the time of day
  split
  · rename_i no_date
    simp [no_date]
  · rename_i date hdate
    split
    · rename_i no_time
      simp [no_time]
    · rename_i time htime
      simp [hdate, htime]

/-- Among the ASCII texts of the length of a date, the padded spellings are read. -/
theorem readReading_date {text : List Char} (length : text.length = 8)
    (ascii : ∀ c ∈ text, c.toNat < 128) {r : Reading} :
    readReading false text = .ok r ↔ text = paddedDate r.date ∧ r.time = .midnight := by
  constructor
  · intro h
    obtain ⟨values, hdate, hvalues⟩ := exists_of_readReading h
    -- Eight characters leave no part a digit short
    obtain ⟨front, rest, y, m, d, later, rfl, hend, rfl, -, padded⟩ := exists_of_dateParts hdate
    obtain ⟨rfl, rfl⟩ := Part.readParts_nil hend
    obtain ⟨⟨rfl, rfl, rfl⟩, midnight⟩ := readingOf_date.1 hvalues
    rw [List.append_nil] at length ascii ⊢
    exact ⟨padded length ascii, midnight⟩
  · intro ⟨same, midnight⟩
    have head : (readParts (parts false) (paddedDate r.date ++ [])).head? =
        some ([r.date.year, r.date.month, r.date.day], []) :=
      head?_paddedDate r.date rfl
    rw [List.append_nil] at head
    rw [same, readReading_of_head? head]
    exact readingOf_date.2 ⟨⟨rfl, rfl, rfl⟩, midnight⟩

/-- A date and a time are read from fifteen ASCII characters if those are the padded ones. -/
theorem readReading_timed {text : List Char} (length : text.length = 15)
    (ascii : ∀ c ∈ text, c.toNat < 128) {r : Reading} :
    readReading true text = .ok r ↔ text = paddedDate r.date ++ paddedTime r.time ∧
      r.time.micro = 0 := by
  constructor
  · intro h
    obtain ⟨values, hdate, hvalues⟩ := exists_of_readReading h
    obtain ⟨front, rest, y, m, d, later, rfl, htime, rfl, short, padded⟩ :=
      exists_of_dateParts hdate
    obtain ⟨x, hour, minute, second, rfl, short', padded'⟩ := exists_of_timeParts htime
    obtain ⟨⟨rfl, rfl, rfl⟩, rfl, rfl, rfl, micro⟩ := readingOf_timed.1 hvalues
    -- Fifteen characters leave neither part a digit short
    rw [List.length_append] at length
    rw [List.forall_mem_append] at ascii
    refine ⟨?_, micro⟩
    rw [padded (by omega) ascii.1, padded' (by omega) ascii.2]
    rfl
  · intro ⟨same, micro⟩
    have head : (readParts (parts true) (paddedDate r.date ++ paddedTime r.time)).head? =
        some ([r.date.year, r.date.month, r.date.day, 0, r.time.hour, r.time.minute,
          r.time.second], []) :=
      head?_paddedDate r.date (head?_paddedTime r.time)
    rw [same, readReading_of_head? head]
    exact readingOf_timed.2 ⟨⟨rfl, rfl, rfl⟩, rfl, rfl, rfl, micro⟩

/-! ## Tokens -/

/-- The mark after a reading: the letter for UTC, or nothing. -/
def suffix (utc : Bool) : List Char := if utc then ['Z'] else []

/-- Whether a text has digits, or what stands for them, around the letter that divides the date
from the time. -/
def IsTimed (text : List Char) : Prop :=
  text.length = 15 ∧ text[8]? = some 'T' ∧
    ((text.take 8).all Text.isDigitLike && ((text.drop 9).take 6).all Text.isDigitLike) = true

section Shapes

variable {zone : Zone} {key : Option String} {text front : List Char} {token : DateToken}

/-- A text of eight characters is a date. -/
theorem read_date_eq_ok (date : text.length = 8) :
    read zone key text = .ok token ↔ text.all Text.isDigitLike = true ∧
      ∃ r, readReading false text = .ok r ∧ token = ⟨⟨r, zone, false⟩, true, false⟩ := by
  simp only [read, date, if_true]
  by_cases digits : text.all Text.isDigitLike = true
  · simp only [digits, Bool.not_true, Bool.false_eq_true, if_false, true_and]
    cases readReading false text with
    | error fault => simp [bind, Except.bind]
    | ok r =>
      show (Except.ok _ = _) ↔ _
      simp [eq_comm]
  · simp [digits]

/-- A reading with its mark belongs to the zone that the mark tells. -/
theorem read_timed_eq_ok {utc : Bool} (timed : IsTimed front) :
    read zone key (front ++ suffix utc) = .ok token ↔
      ∃ r, readReading true front = .ok r ∧
        token = ⟨⟨r, if utc then .zero else zone, false⟩, false, utc⟩ := by
  obtain ⟨length, divider, digits⟩ := timed
  -- The mark changes nothing about the first fifteen characters
  have start : (front ++ suffix utc).take 8 = front.take 8 :=
    List.take_append_of_le_length (by omega)
  have finish : ((front ++ suffix utc).drop 9).take 6 = (front.drop 9).take 6 := by
    rw [List.drop_append_of_le_length (by omega),
      List.take_append_of_le_length (by rw [List.length_drop]; omega)]
  have letter : (front ++ suffix utc)[8]? = some 'T' := by
    rw [List.getElem?_append_left (by omega), divider]
  have mark : (front ++ suffix utc).drop 15 = suffix utc := List.drop_left' length
  have body : (front ++ suffix utc).take 15 = front := List.take_left' length
  cases utc with
  | false =>
    have whole : (front ++ suffix false).length = 15 := by simp [suffix, length]
    simp only [read, whole, letter, start, finish, digits, mark]
    cases hread : readReading true front with
    | error fault => simp [suffix, hread, bind, Except.bind]
    | ok r => simp [suffix, hread, bind, Except.bind, pure, Except.pure, eq_comm]
  | true =>
    have whole : (front ++ suffix true).length = 16 := by simp [suffix, length]
    simp only [read, whole, letter, start, finish, digits, mark, body]
    cases hread : readReading true front with
    | error fault => simp [suffix, bind, Except.bind]
    | ok r => simp [suffix, bind, Except.bind, pure, Except.pure, eq_comm]

/-- A text that is no date is a reading with its mark. -/
theorem exists_timed_of_read (h : read zone key text = .ok token) (long : text.length ≠ 8) :
    ∃ front utc, text = front ++ suffix utc ∧ IsTimed front := by
  simp only [read, if_neg long] at h
  -- The checks come before the mark, and each of them has been passed
  split at h
  · injection h
  · split at h
    · injection h
    · rename_i divider
      split at h
      · injection h
      · rename_i digits
        split at h
        · rename_i nothing
          have short := List.drop_eq_nil_iff.1 nothing
          refine ⟨text, false, by simp [suffix], by omega, ?_, ?_⟩
          · simpa using divider
          · simpa using digits
        · rename_i mark
          have same : text = text.take 15 ++ suffix true := by
            rw [suffix, if_pos rfl, ← mark, List.take_append_drop]
          refine ⟨text.take 15, true, same, ?_, ?_, ?_⟩
          · rw [List.length_take]
            omega
          · simpa [List.getElem?_take] using divider
          · simpa [List.take_take, List.drop_take] using digits
        · injection h

/-- The three shapes of a token: a date, a reading of the zone and a reading of UTC. -/
theorem read_eq_ok :
    read zone key text = .ok token ↔
      (text.length = 8 ∧ text.all Text.isDigitLike = true ∧
        ∃ r, readReading false text = .ok r ∧ token = ⟨⟨r, zone, false⟩, true, false⟩) ∨
      ∃ front utc, text = front ++ suffix utc ∧ IsTimed front ∧
        ∃ r, readReading true front = .ok r ∧
          token = ⟨⟨r, if utc then .zero else zone, false⟩, false, utc⟩ := by
  constructor
  · intro h
    by_cases date : text.length = 8
    · exact .inl ⟨date, (read_date_eq_ok date).1 h⟩
    · obtain ⟨front, utc, rfl, timed⟩ := exists_timed_of_read h date
      exact .inr ⟨front, utc, rfl, timed, (read_timed_eq_ok timed).1 h⟩
  · intro h
    rcases h with ⟨date, h⟩ | ⟨front, utc, rfl, timed, h⟩
    · exact (read_date_eq_ok date).2 h
    · exact (read_timed_eq_ok timed).2 h

end Shapes


/-! ## Spellings -/

/-- A padded date has eight digits. -/
theorem length_paddedDate (d : Date) : (paddedDate d).length = 8 := by
  have hd := d.valid
  have hday := monthLength_le (isLeapYear d.year) d.month
  simp only [paddedDate, List.length_append,
    Decimal.length_writePadded (k := 4) (n := d.year) (by decide) (by omega),
    Decimal.length_writePadded (k := 2) (n := d.month) (by decide) (by omega),
    Decimal.length_writePadded (k := 2) (n := d.day) (by decide) (by omega)]

/-- A padded time has a letter and six digits. -/
theorem length_paddedTime (t : TimeOfDay) : (paddedTime t).length = 7 := by
  have ht := t.lt
  have hour : t.hour < 100 := by unfold TimeOfDay.hour ticksPerDay at *; omega
  have minute : t.minute < 100 := by unfold TimeOfDay.minute; omega
  have second : t.second < 100 := by unfold TimeOfDay.second; omega
  simp only [paddedTime, List.length_append, List.length_cons,
    Decimal.length_writePadded (k := 2) (by decide) hour,
    Decimal.length_writePadded (k := 2) (by decide) minute,
    Decimal.length_writePadded (k := 2) (by decide) second]

/-- A padded date has digits only. -/
theorem isDigit_of_mem_paddedDate {d : Date} {c : Char} (h : c ∈ paddedDate d) :
    c.isDigit = true := by
  simp only [paddedDate, List.mem_append] at h
  rcases h with h | h | h <;> exact Decimal.isDigit_of_mem_writePadded h

/-- ASCII digits are among the characters that look like digits. -/
theorem isDigitLike_of_isDigit {c : Char} (h : c.isDigit = true) : Text.isDigitLike c = true := by
  simp [Text.isDigitLike, Text.digitValue?_ascii c h]

/-- A padded date with a padded time has the shape of a token with a time of day. -/
theorem isTimed_padded (r : Reading) : IsTimed (paddedDate r.date ++ paddedTime r.time) := by
  have date := length_paddedDate r.date
  have time := length_paddedTime r.time
  refine ⟨by rw [List.length_append, date, time], ?_, ?_⟩
  · rw [List.getElem?_append_right (by omega), date]
    rfl
  · -- All but the letter are digits
    have front : (paddedDate r.date ++ paddedTime r.time).take 8 = paddedDate r.date :=
      List.take_left' date
    have back : (paddedDate r.date ++ paddedTime r.time).drop 9 = (paddedTime r.time).tail := by
      rw [List.drop_append, date, List.drop_eq_nil_of_le (by omega)]
      rfl
    have digits : ∀ c ∈ (paddedTime r.time).tail, c.isDigit = true := by
      intro c hc
      simp only [paddedTime, List.tail_cons, List.mem_append] at hc
      rcases hc with h | h | h <;> exact Decimal.isDigit_of_mem_writePadded h
    rw [front, back, Bool.and_eq_true, List.all_eq_true, List.all_eq_true]
    exact ⟨fun c hc => isDigitLike_of_isDigit (isDigit_of_mem_paddedDate hc),
      fun c hc => isDigitLike_of_isDigit (digits c (List.mem_of_mem_take hc))⟩

/-- What is written for a reading is its padded spelling, but for the zeros before the year. -/
theorem writeDate_eq (d : Date) : writeDate d =
    Decimal.write d.year ++ (Decimal.writePadded 2 d.month ++ Decimal.writePadded 2 d.day) := by
  rw [writeDate, List.append_assoc]

/-- A reading is written as its date, and then its padded time. -/
theorem writeReading_eq (r : Reading) : writeReading r = writeDate r.date ++ paddedTime r.time := by
  simp [writeReading, paddedTime]

/-- A date is written with the digits of its year and four others. -/
theorem length_writeDate (d : Date) :
    (writeDate d).length = (Decimal.write d.year).length + 4 := by
  have padded := length_paddedDate d
  have hd := d.valid
  rw [paddedDate, List.length_append,
    Decimal.length_writePadded (k := 4) (n := d.year) (by decide) (by omega)] at padded
  rw [writeDate_eq, List.length_append]
  omega

/-- From the year 1000 on there are no zeros before the year. -/
theorem writeDate_eq_paddedDate {d : Date} (h : 1000 ≤ d.year) : writeDate d = paddedDate d := by
  have four := (Decimal.length_write_four (show d.year < 10000 by have := d.valid; omega)).2 h
  rw [writeDate_eq, paddedDate, Decimal.writePadded_eq_write four]

/-- A date of eight digits has a year of four. -/
theorem year_of_length_writeDate {d : Date} (h : (writeDate d).length = 8) : 1000 ≤ d.year := by
  rw [length_writeDate] at h
  exact (Decimal.length_write_four (show d.year < 10000 by have := d.valid; omega)).1 (by omega)

/-- A padded number can stand in a list. -/
theorem isItem_writePadded (k n : Nat) : Text.IsItem (Decimal.writePadded k n) :=
  Text.isItem_of_isDigit fun _ hc => Decimal.isDigit_of_mem_writePadded hc

/-- So can a date. -/
theorem isItem_writeDate (d : Date) : Text.IsItem (writeDate d) := by
  rw [writeDate_eq]
  exact Text.isItem_append.2 ⟨Decimal.isItem_write _,
    Text.isItem_append.2 ⟨isItem_writePadded _ _, isItem_writePadded _ _⟩⟩

/-- So can a time of day. -/
theorem isItem_paddedTime (t : TimeOfDay) : Text.IsItem (paddedTime t) :=
  Text.isItem_cons.2 ⟨.inl rfl, Text.isItem_append.2 ⟨isItem_writePadded _ _,
    Text.isItem_append.2 ⟨isItem_writePadded _ _, isItem_writePadded _ _⟩⟩⟩

/-- The spelling of a token by its own reading. -/
def spelling (token : DateToken) : List Char :=
  if token.dateOnly then writeDate token.moment.date
  else writeReading token.moment.reading ++ suffix token.utc

/-- So can a whole token. -/
theorem isItem_spelling (token : DateToken) : Text.IsItem token.spelling := by
  have mark : Text.IsItem (suffix token.utc) := by
    cases token.utc
    · exact fun _ h => absurd h List.not_mem_nil
    · exact Text.isItem_cons.2 ⟨.inl rfl, fun _ h => absurd h List.not_mem_nil⟩
  unfold spelling
  split
  · exact isItem_writeDate _
  · rw [writeReading_eq]
    exact Text.isItem_append.2
      ⟨Text.isItem_append.2 ⟨isItem_writeDate _, isItem_paddedTime _⟩, mark⟩

/-- No token is written with nothing. -/
theorem spelling_ne_nil (token : DateToken) : token.spelling ≠ [] := by
  have length := length_writeDate token.moment.date
  unfold spelling
  split
  · intro empty
    rw [empty] at length
    exact absurd length (by simp)
  · rw [writeReading_eq]
    intro empty
    have short := congrArg List.length empty
    simp only [List.length_append, length_paddedTime, List.length_nil] at short
    omega

/-- A token with the reading that is written for it: that of UTC for a moment marked so, and that
of the zone for all else. -/
def render (zone : Zone) (token : DateToken) : Except CalendarFault DateToken :=
  (fun m => ⟨m, token.dateOnly, token.utc⟩) <$>
    if !token.dateOnly && token.utc then token.moment.inUtc else token.moment.inZone zone

/-- A token is written by the reading that its zone shows for it. -/
theorem write_eq (zone : Zone) (token : DateToken) :
    token.write zone = spelling <$> token.render zone := by
  obtain ⟨m, dateOnly, utc⟩ := token
  cases dateOnly <;> cases utc <;> simp [write, render, spelling, suffix]

/-- A token that has been read shows the reading that is written for it. -/
theorem render_of_read {zone : Zone} {key : Option String} {text : List Char} {token : DateToken}
    (h : read zone key text = .ok token) : token.render zone = .ok token := by
  rcases read_eq_ok.1 h with ⟨-, -, r, -, rfl⟩ | ⟨front, utc, -, -, r, -, rfl⟩
  · simp [render, Moment.inZone]
  · cases utc <;> simp [render, Moment.inUtc, Moment.inZone]

/-- A token that is read is written as it stood, exactly if it was plain text and its year has
four digits. -/
theorem spelling_eq_iff {zone : Zone} {key : Option String} {text : List Char} {token : DateToken}
    (h : read zone key text = .ok token) :
    token.spelling = text ↔ Text.IsPlain text ∧ 1000 ≤ token.moment.date.year := by
  have item := isItem_spelling token
  rcases read_eq_ok.1 h with
    ⟨length, -, r, hread, rfl⟩ | ⟨front, utc, rfl, ⟨length, -, -⟩, r, hread, rfl⟩
  · -- A token of a date alone is compared with its digits
    show writeDate r.date = text ↔ _ ∧ 1000 ≤ r.date.year
    constructor
    · intro same
      rw [same.symm] at length ⊢
      exact ⟨item.isPlain, year_of_length_writeDate length⟩
    · intro ⟨plain, year⟩
      have padded := ((readReading_date length fun c hc => (plain c hc).1).1 hread).1
      rw [padded, writeDate_eq_paddedDate year]
  · -- One with a time of day also with the letter and what follows
    show writeReading r ++ suffix utc = front ++ suffix utc ↔ _ ∧ 1000 ≤ r.date.year
    constructor
    · intro same
      have plain := item.isPlain
      rw [List.append_left_inj] at same
      rw [← same, writeReading_eq, List.length_append, length_paddedTime] at length
      refine ⟨?_, year_of_length_writeDate (by omega)⟩
      rw [← same]
      exact plain
    · intro ⟨plain, year⟩
      have ascii : ∀ c ∈ front, c.toNat < 128 := fun c hc =>
        (plain c (List.mem_append_left _ hc)).1
      have padded := ((readReading_timed length ascii).1 hread).1
      rw [padded, writeReading_eq, writeDate_eq_paddedDate year]

/-- Whether the spelling of a token can be read again: its year has four digits, nothing is left
out below the seconds, and a date alone stands for midnight in the zone. -/
def IsReadable (token : DateToken) : Prop :=
  1000 ≤ token.moment.date.year ∧ token.moment.reading.time.micro = 0 ∧
    (token.dateOnly = true → token.utc = false ∧ token.moment.reading.time = .midnight)

/-- The token that the spelling of a token is read as. -/
def reread (zone : Zone) (token : DateToken) : DateToken :=
  ⟨⟨token.moment.reading, if token.utc then .zero else zone, false⟩, token.dateOnly, token.utc⟩

/-- What is written for a token that can be read is read as that token. -/
theorem read_spelling (zone : Zone) (key : Option String) {token : DateToken}
    (h : token.IsReadable) : read zone key token.spelling = .ok (token.reread zone) := by
  obtain ⟨year, micro, shape⟩ := h
  obtain ⟨⟨r, own, second⟩, dateOnly, utc⟩ := token
  have plain := (isItem_spelling ⟨⟨r, own, second⟩, dateOnly, utc⟩).isPlain
  have padded : writeDate r.date = paddedDate r.date := writeDate_eq_paddedDate year
  rw [read_eq_ok]
  -- From the year 1000 on dates are written as they are padded
  cases dateOnly with
  | true =>
    obtain ⟨rfl, midnight⟩ := shape rfl
    left
    have same : spelling ⟨⟨r, own, second⟩, true, false⟩ = paddedDate r.date := padded
    rw [same] at plain ⊢
    have length := length_paddedDate r.date
    refine ⟨length, ?_, r, ?_, rfl⟩
    · exact List.all_eq_true.2 fun c hc => isDigitLike_of_isDigit (isDigit_of_mem_paddedDate hc)
    · exact (readReading_date length fun c hc => (plain c hc).1).2 ⟨rfl, midnight⟩
  | false =>
    right
    have same : spelling ⟨⟨r, own, second⟩, false, utc⟩ =
        (paddedDate r.date ++ paddedTime r.time) ++ suffix utc := by
      rw [← padded, ← writeReading_eq]
      rfl
    rw [same] at plain ⊢
    have timed := isTimed_padded r
    refine ⟨_, utc, rfl, timed, r, ?_, rfl⟩
    exact (readReading_timed timed.1 fun c hc => (plain c (List.mem_append_left _ hc)).1).2
      ⟨rfl, micro⟩

end DateToken

end Recurrence
