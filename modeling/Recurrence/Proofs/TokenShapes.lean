import Recurrence.Proofs.DateTokens

/-!
# The three shapes of date tokens

A date token is eight digits for a date, or these with six digits for a time of day behind the
letter that divides them, or all of this with the letter that stands for UTC. Among ASCII texts no
other is read, although the reader tries one digit for a month or an hour, and sixty seconds, before
it gives up. What is not read is refused as a malformed date, with a beginning of the text.

* `DateToken.Names`: the texts of the three shapes, with the tokens that they name.
* `DateToken.read_malformed`: how a text is refused.
* `DateToken.read_shapes`: the texts that are read, and the others.
-/

namespace Recurrence

namespace Decimal

/-- Whether a text spells a number with just so many ASCII digits. -/
structure SpellsPadded (width n : Nat) (text : List Char) : Prop where
  length : text.length = width
  digits : ∀ c ∈ text, c.isDigit = true
  value : value (text.map digitValue) = n

/-- There is one spelling of each width. -/
theorem spellsPadded_iff {width n : Nat} (pos : 0 < width) (fits : n < 10 ^ width)
    {text : List Char} : SpellsPadded width n text ↔ text = writePadded width n := by
  constructor
  · intro h
    obtain ⟨length, digits, value⟩ := h
    have ne : text ≠ [] := List.length_pos_iff.1 (by omega)
    rw [← length, ← value, writePadded_value ne digits]
  · intro same
    subst same
    exact ⟨length_writePadded pos fits, fun _ mem => isDigit_of_mem_writePadded mem,
      value_writePadded width n⟩

end Decimal

namespace DateToken

open Decimal (SpellsPadded)

variable {zone : Zone} {key : Option String} {text front back : List Char} {token : DateToken}

/-! ## Dates and times in digits -/

/-- Whether a text spells a date: its year, its month and its day. -/
def SpellsDate (text : List Char) (d : Date) : Prop :=
  ∃ year month day, text = year ++ (month ++ day) ∧
    SpellsPadded 4 d.year year ∧ SpellsPadded 2 d.month month ∧ SpellsPadded 2 d.day day

/-- Whether a text spells a time of day behind the letter that divides it from the date: its hour,
its minute and its second, without a part of a second. -/
def SpellsTime (text : List Char) (t : TimeOfDay) : Prop :=
  ∃ hour minute second, text = 'T' :: (hour ++ (minute ++ second)) ∧
    SpellsPadded 2 t.hour hour ∧ SpellsPadded 2 t.minute minute ∧
      SpellsPadded 2 t.second second ∧ t.micro = 0

/-- The texts that spell a date are the padded date. -/
theorem spellsDate_iff {d : Date} : SpellsDate text d ↔ text = paddedDate d := by
  have valid := d.valid
  have month_days := monthLength_le (isLeapYear d.year) d.month
  have year {text : List Char} : SpellsPadded 4 d.year text ↔ _ :=
    Decimal.spellsPadded_iff (by decide) (by omega)
  have month {text : List Char} : SpellsPadded 2 d.month text ↔ _ :=
    Decimal.spellsPadded_iff (by decide) (by omega)
  have day {text : List Char} : SpellsPadded 2 d.day text ↔ _ :=
    Decimal.spellsPadded_iff (by decide) (by omega)
  -- Each part has just the spelling at its full width
  simp only [SpellsDate, year, month, day, paddedDate]
  constructor
  · intro h
    obtain ⟨_, _, _, same, hy, hm, hd⟩ := h
    rw [same, hy, hm, hd]
  · intro same
    exact ⟨_, _, _, same, rfl, rfl, rfl⟩

/-- The texts that spell a time of day in whole seconds are the padded time. -/
theorem spellsTime_iff {t : TimeOfDay} :
    SpellsTime text t ↔ text = paddedTime t ∧ t.micro = 0 := by
  have lt := t.lt
  have hour {text : List Char} : SpellsPadded 2 t.hour text ↔ _ :=
    Decimal.spellsPadded_iff (by decide) (by unfold TimeOfDay.hour ticksPerDay at *; omega)
  have minute {text : List Char} : SpellsPadded 2 t.minute text ↔ _ :=
    Decimal.spellsPadded_iff (by decide) (by unfold TimeOfDay.minute; omega)
  have second {text : List Char} : SpellsPadded 2 t.second text ↔ _ :=
    Decimal.spellsPadded_iff (by decide) (by unfold TimeOfDay.second; omega)
  -- Each part has just the spelling at its full width
  simp only [SpellsTime, hour, minute, second, paddedTime]
  constructor
  · intro h
    obtain ⟨_, _, _, same, hh, hm, hs, whole⟩ := h
    rw [same, hh, hm, hs]
    exact ⟨rfl, whole⟩
  · intro h
    exact ⟨_, _, _, h.1, rfl, rfl, rfl, h.2⟩

/-! ## The shapes -/

/-- The texts of the three shapes, and the tokens that they name in a zone. -/
inductive Names (zone : Zone) : List Char → DateToken → Prop
  /-- A date alone is midnight in the zone. -/
  | date {text : List Char} {d : Date} (date : SpellsDate text d) :
      Names zone text ⟨⟨⟨d, .midnight⟩, zone, false⟩, true, false⟩
  /-- A reading without a mark belongs to the zone. -/
  | reading {front back : List Char} {r : Reading} (date : SpellsDate front r.date)
      (time : SpellsTime back r.time) :
      Names zone (front ++ back) ⟨⟨r, zone, false⟩, false, false⟩
  /-- A reading with the mark of UTC belongs to UTC. -/
  | utc {front back : List Char} {r : Reading} (date : SpellsDate front r.date)
      (time : SpellsTime back r.time) :
      Names zone (front ++ back ++ ['Z']) ⟨⟨r, .zero, false⟩, false, true⟩

/-- A reading in digits, with its mark, names the token of the zone that the mark tells. -/
theorem names_padded {r : Reading} (micro : r.time.micro = 0) (utc : Bool) :
    Names zone (paddedDate r.date ++ paddedTime r.time ++ suffix utc)
      ⟨⟨r, if utc then .zero else zone, false⟩, false, utc⟩ := by
  have date := spellsDate_iff.2 (Eq.refl (paddedDate r.date))
  have time := spellsTime_iff.2 ⟨Eq.refl (paddedTime r.time), micro⟩
  cases utc with
  | false =>
    rw [suffix, if_neg Bool.false_ne_true, List.append_nil]
    exact .reading date time
  | true => exact .utc date time

/-- What is read of an ASCII text has one of the three shapes. -/
theorem names_of_read (ascii : ∀ c ∈ text, c.toNat < 128) (h : read zone key text = .ok token) :
    Names zone text token := by
  -- The token has a date alone, or a date and a time of day
  cases read_eq_ok.1 h with
  | inl date =>
    obtain ⟨length, -, ⟨d, time⟩, hr, rfl⟩ := date
    obtain ⟨padded, midnight⟩ := (readReading_date length ascii).1 hr
    subst midnight
    exact .date (spellsDate_iff.2 padded)
  | inr timed =>
    obtain ⟨front, utc, rfl, ⟨length, -⟩, r, hr, rfl⟩ := timed
    rw [List.forall_mem_append] at ascii
    obtain ⟨padded, micro⟩ := (readReading_timed length ascii.1).1 hr
    subst padded
    exact names_padded micro utc

/-- A reading in digits, with its mark, is read. -/
theorem read_padded {r : Reading} (utc : Bool) (micro : r.time.micro = 0)
    (ascii : ∀ c ∈ paddedDate r.date ++ paddedTime r.time, c.toNat < 128) :
    read zone key (paddedDate r.date ++ paddedTime r.time ++ suffix utc) =
      .ok ⟨⟨r, if utc then .zero else zone, false⟩, false, utc⟩ := by
  have timed := isTimed_padded r
  have hr := (readReading_timed timed.1 ascii).2 ⟨rfl, micro⟩
  exact (read_timed_eq_ok timed).2 ⟨r, hr, rfl⟩

/-- An ASCII text of one of the three shapes is read as the token that it names. -/
theorem read_of_names (ascii : ∀ c ∈ text, c.toNat < 128) (h : Names zone text token) :
    read zone key text = .ok token := by
  -- The token is a date, a reading of the zone or one of UTC
  cases h with
  | @date _ d date =>
    have padded := spellsDate_iff.1 date
    subst padded
    have length := length_paddedDate d
    have digits : (paddedDate d).all Text.isDigitLike = true := by
      rw [List.all_eq_true]
      intro c mem
      exact isDigitLike_of_isDigit (isDigit_of_mem_paddedDate mem)
    have hr := (readReading_date length ascii (r := ⟨d, .midnight⟩)).2 ⟨rfl, rfl⟩
    exact (read_date_eq_ok length).2 ⟨digits, _, hr, rfl⟩
  | @reading front back r date time =>
    obtain ⟨padded, micro⟩ := spellsTime_iff.1 time
    have dated := spellsDate_iff.1 date
    subst padded dated
    rw [← List.append_nil (paddedDate r.date ++ paddedTime r.time)]
    exact read_padded false micro ascii
  | @utc front back r date time =>
    obtain ⟨padded, micro⟩ := spellsTime_iff.1 time
    have dated := spellsDate_iff.1 date
    subst padded dated
    rw [List.forall_mem_append] at ascii
    exact read_padded true micro ascii.1

/-! ## Refused texts -/

/-- Whatever is not read is refused as a malformed date: with the key, and with the text or the
fifteen characters before its mark. -/
theorem read_malformed {failure : Failure} (h : read zone key text = .error failure) :
    ∃ cause piece, failure = .rule ⟨cause, key, some (String.ofList piece)⟩ ∧
      cause.kind = .malformedDate ∧ piece <+: text := by
  have refused {α : Type} {cause : RuleCause} {piece : List Char}
      (h : (.error (.rule ⟨cause, key, some (String.ofList piece)⟩) : Except Failure α) =
        .error failure) (malformed : cause.kind = .malformedDate) (inside : piece <+: text) :
      ∃ cause piece, failure = .rule ⟨cause, key, some (String.ofList piece)⟩ ∧
        cause.kind = .malformedDate ∧ piece <+: text := by
    injection h with h
    exact ⟨cause, piece, h.symm, malformed, inside⟩
  -- Once a reading has been read, nothing is refused any more
  have undated {x : Except Failure Reading} {token : Reading → DateToken}
      (h : (x >>= fun reading => pure (token reading)) = .error failure) :
      x = .error failure := by
    rcases Except.bind_eq_error.1 h with h | ⟨reading, -, h⟩
    · exact h
    · injection h
  have whole := List.prefix_refl text
  unfold read at h
  simp only at h
  -- Eight characters are a date alone, and whatever is refused is refused as a whole
  split at h
  · split at h
    · exact refused h rfl whole
    · have h := undated h
      split at h
      · injection h
      · exact refused h rfl whole
  -- In all other texts the mark is cut off before the reading is tried
  · split at h
    · exact refused h rfl whole
    · split at h
      · exact refused h rfl whole
      · split at h
        · exact refused h rfl whole
        · split at h
          · have h := undated h
            split at h
            · injection h
            · exact refused h rfl whole
          · have h := undated h
            split at h
            · injection h
            · exact refused h rfl (List.take_prefix 15 text)
          · exact refused h rfl whole

/-- An ASCII text is read exactly if it has one of the three shapes, as the token that it names. All
others are refused as malformed dates. -/
theorem read_shapes (ascii : ∀ c ∈ text, c.toNat < 128) :
    (∀ token, read zone key text = .ok token ↔ Names zone text token) ∧
      ((∀ token, ¬Names zone text token) → ∃ cause piece,
        read zone key text = .error (.rule ⟨cause, key, some (String.ofList piece)⟩) ∧
          cause.kind = .malformedDate ∧ piece <+: text) := by
  have shapes (token : DateToken) : read zone key text = .ok token ↔ Names zone text token :=
    ⟨names_of_read ascii, read_of_names ascii⟩
  refine ⟨shapes, ?_⟩
  intro nothing
  cases hread : read zone key text with
  | ok token => exact absurd ((shapes token).1 hread) (nothing token)
  | error failure =>
    obtain ⟨cause, piece, rfl, malformed, inside⟩ := read_malformed hread
    exact ⟨cause, piece, rfl, malformed, inside⟩

/-- The last second of a leap day, in UTC. -/
def endOfLeapDay : DateToken :=
  ⟨⟨⟨⟨2012, 2, 29, by decide⟩, ⟨86399000000, by decide⟩⟩, .zero, false⟩, false, true⟩

/-- The last second of a leap day is read. A year later there is no such day, and a leap second has
no place on any day. -/
theorem read_leapDays :
    Names (.region .utc) "20120229T235959Z".toList endOfLeapDay ∧
      (∀ token, ¬Names (.region .utc) "20130229".toList token) ∧
      ∀ token, ¬Names (.region .utc) "20120229T235960Z".toList token := by
  have ascii {text : List Char} (h : (text.all fun c => decide (c.toNat < 128)) = true) :
      ∀ c ∈ text, c.toNat < 128 := by
    intro c mem
    exact of_decide_eq_true (List.all_eq_true.1 h c mem)
  have late : ∀ c ∈ "20120229T235959Z".toList, c.toNat < 128 := ascii (by decide +kernel)
  have absent : ∀ c ∈ "20130229".toList, c.toNat < 128 := ascii (by decide +kernel)
  have leap : ∀ c ∈ "20120229T235960Z".toList, c.toNat < 128 := ascii (by decide +kernel)
  have found : DateToken.read (.region .utc) none "20120229T235959Z".toList =
      .ok endOfLeapDay := by
    decide +kernel
  -- A text that is refused names nothing, since what it names would be read
  have nothing {text : List Char} {failure : Failure} (ascii : ∀ c ∈ text, c.toNat < 128)
      (h : read (.region .utc) none text = .error failure) (token : DateToken) :
      ¬Names (.region .utc) text token := by
    intro names
    rw [((read_shapes ascii).1 token).2 names] at h
    injection h
  have no_day : read (.region .utc) none "20130229".toList =
      .error (.rule ⟨.badDate .noSuchDay, none, some "20130229"⟩) := by
    decide +kernel
  have no_second : read (.region .utc) none "20120229T235960Z".toList =
      .error (.rule ⟨.badDate .noSuchSecond, none, some "20120229T235960"⟩) := by
    decide +kernel
  exact ⟨((read_shapes late).1 _).1 found, nothing absent no_day, nothing leap no_second⟩

end DateToken

end Recurrence
