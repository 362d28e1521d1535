import Mathlib.Algebra.Group.Nat.Defs
import Mathlib.Data.List.Basic
import Mathlib.Data.List.TakeDrop
import Recurrence.Moment.When
import Recurrence.Proofs.Periods

/-!
# Reading written moments

What is written for a moment reads back as its reading and its offset, whether or not that reading
occurs on the clocks of its zone.

* `Iso.digits_writePadded`: a padded number reads back.
* `Iso.readDate_write`, `Iso.readClock_write`, `Iso.readOffset_units`: so do dates, times and
  offsets.
* `Iso.read_write`: the stamp that a written moment spells.
-/

namespace Recurrence

/-! ## Padded numbers -/

namespace Decimal

/-- A number below a power of ten has no more digits than that. -/
theorem length_write_le {k n : Nat} (hk : 0 < k) (h : n < 10 ^ k) : (write n).length ≤ k := by
  fun_induction write n generalizing k with
  | case1 n _ => exact hk
  | case2 n big ih =>
    obtain ⟨k, rfl⟩ := Nat.exists_eq_add_of_lt hk
    rw [Nat.zero_add, Nat.pow_succ] at h
    rw [List.length_append, List.length_singleton]
    have pos : 0 < k := Nat.pos_of_ne_zero fun zero => by
      rw [zero] at h
      omega
    have := ih pos (Nat.div_lt_of_lt_mul (by omega))
    omega

/-- Padded to as many digits it has just those. -/
theorem length_writePadded {k n : Nat} (hk : 0 < k) (h : n < 10 ^ k) :
    (writePadded k n).length = k := by
  have := length_write_le hk h
  rw [writePadded, List.length_append, List.length_replicate]
  omega

/-- A padded number has digits only. -/
theorem isDigit_of_mem_writePadded {k n : Nat} {c : Char} (h : c ∈ writePadded k n) :
    c.isDigit = true := by
  rcases List.mem_append.1 h with h | h
  · rw [(List.mem_replicate.1 h).2]
    rfl
  · exact isDigit_of_mem_write h

/-- Zeros at its front do not change its value. -/
theorem value_writePadded (k n : Nat) : value ((writePadded k n).map digitValue) = n := by
  have zeros (j : Nat) : ((List.replicate j '0').map digitValue).foldl
      (fun acc d => 10 * acc + d) 0 = 0 := by
    induction j with
    | zero => rfl
    | succ j ih => exact ih
  rw [writePadded, List.map_append, value, List.foldl_append, zeros]
  exact write_value n

end Decimal

namespace Iso

/-- Digits are read up to what follows them. -/
theorem digits_append {front : List Char} (h : ∀ c ∈ front, c.isDigit = true) (acc : Nat)
    (rest : List Char) : digits front.length acc (front ++ rest) =
      some ((front.map Decimal.digitValue).foldl (fun acc d => 10 * acc + d) acc, rest) := by
  induction front generalizing acc with
  | nil => rfl
  | cons c front ih =>
    rw [List.cons_append, List.length_cons, digits, if_pos (h c List.mem_cons_self)]
    exact ih (fun c hc => h c (List.mem_cons_of_mem _ hc)) _

/-- A padded number of the expected width reads back. -/
theorem digits_writePadded {k n : Nat} (hk : 0 < k) (h : n < 10 ^ k) (rest : List Char) :
    digits k 0 (Decimal.writePadded k n ++ rest) = some (n, rest) := by
  have all_digits : ∀ c ∈ Decimal.writePadded k n, c.isDigit = true := fun c hc =>
    Decimal.isDigit_of_mem_writePadded hc
  have read := digits_append all_digits 0 rest
  rw [Decimal.length_writePadded hk h] at read
  rw [read, ← Decimal.value, Decimal.value_writePadded]

/-- A padded number of two digits, digit by digit. -/
theorem exists_writePadded_two {n : Nat} (h : n < 100) :
    ∃ a b, Decimal.writePadded 2 n = [a, b] ∧ a.isDigit = true ∧ b.isDigit = true := by
  have hlength := Decimal.length_writePadded (k := 2) (by decide) h
  have hdigit := fun c (hc : c ∈ Decimal.writePadded 2 n) => Decimal.isDigit_of_mem_writePadded hc
  obtain ⟨a, b, eq⟩ := List.length_eq_two.1 hlength
  rw [eq] at hdigit
  exact ⟨a, b, eq, hdigit a (by simp), hdigit b (by simp)⟩

/-! ## Dates -/

/-- A digit is no other character. -/
theorem ne_of_isDigit {a c : Char} (ha : a.isDigit = true) (hc : c.isDigit = false) : a ≠ c :=
  fun eq => by
    rw [eq, hc] at ha
    injection ha

/-- A date is written with ten characters. -/
theorem length_write_date (d : Date) : d.write.length = 10 := by
  have hd := d.valid
  have hday := monthLength_le (isLeapYear d.year) d.month
  simp only [Date.write, List.length_append, List.length_cons,
    Decimal.length_writePadded (k := 4) (n := d.year) (by decide) (by omega),
    Decimal.length_writePadded (k := 2) (n := d.month) (by decide) (by omega),
    Decimal.length_writePadded (k := 2) (n := d.day) (by decide) (by omega)]

/-- What is written for a date is read as that date. -/
theorem readDate_write (d : Date) : readDate d.write = some d := by
  have hd := d.valid
  have hday := monthLength_le (isLeapYear d.year) d.month
  obtain ⟨a, b, hmonth, ha, hb⟩ := exists_writePadded_two (n := d.month) (by omega)
  have year := digits_writePadded (k := 4) (n := d.year) (by decide) (by omega)
  have month := digits_writePadded (k := 2) (n := d.month) (by decide) (by omega)
  have day := digits_writePadded (k := 2) (n := d.day) (by decide) (by omega) []
  rw [List.append_nil] at day
  have no_week : a ≠ 'W' := ne_of_isDigit ha rfl
  rw [readDate, Date.write, List.append_assoc, year]
  simp only [hmonth, Option.bind_eq_bind, Option.bind_some, List.cons_append,
    List.nil_append] at month ⊢
  -- A digit follows the hyphen after the year, so this is no date of a week
  split
  · rename_i h
    injection h with _ h
    injection h with h _
    exact absurd h no_week
  · rename_i h
    injection h with h _
    exact absurd h (by decide)
  · rename_i h
    injection h with _ h
    subst h
    simp only [month, day, Option.bind_some]
    exact Date.of?_eq_some.2 ⟨rfl, rfl, rfl⟩
  · rename_i h
    exact absurd rfl (h _)

/-! ## Times -/

/-- A unit before a colon reads back, and the clock goes on after the colon. -/
theorem readUnits_colon {n count : Nat} {colons : Option Bool} (hn : n < 100)
    (hcolons : colons.getD true = true) (units : List Nat) {rest : List Char} (hrest : rest ≠ []) :
    readUnits (count + 1) colons units (Decimal.writePadded 2 n ++ ':' :: rest) =
      readUnits count (some true) (units ++ [n]) rest := by
  have unit := digits_writePadded (k := 2) (by decide) hn
  obtain ⟨c, rest, rfl⟩ := List.exists_cons_of_ne_nil hrest
  rw [readUnits, unit]
  have colons : colons.getD (':' == ':') = true := hcolons
  simp only [Option.bind_eq_bind, Option.bind_some, colons]
  rfl

/-- A unit at the end reads back. -/
theorem readUnits_end {n count : Nat} (hn : n < 100) (colons : Option Bool) (units : List Nat) :
    readUnits (count + 1) colons units (Decimal.writePadded 2 n) =
      some ⟨units ++ [n], 0, true⟩ := by
  have unit := digits_writePadded (k := 2) (by decide) hn []
  rw [List.append_nil] at unit
  rw [readUnits, unit]
  rfl

/-- A unit before a fraction reads back together with the fraction. -/
theorem readUnits_fraction {n micro count : Nat} (hn : n < 100) (hmicro : micro < 1000000)
    (units : List Nat) :
    readUnits (count + 1) (some true) units
        (Decimal.writePadded 2 n ++ '.' :: Decimal.writePadded 6 micro) =
      some ⟨units ++ [n], micro, true⟩ := by
  have unit := digits_writePadded (k := 2) (by decide) hn
  have fraction := digits_writePadded (k := 6) (by decide) hmicro []
  have length := Decimal.length_writePadded (k := 6) (by decide) hmicro
  rw [List.append_nil] at fraction
  have read : readFraction (units ++ [n]) (Decimal.writePadded 6 micro) =
      some ⟨units ++ [n], micro, true⟩ := by
    rw [readFraction, length]
    simp only [Nat.min_self, fraction, Option.bind_eq_bind, Option.bind_some]
    simp [atEnd]
  rw [readUnits, unit]
  simp only [Option.bind_eq_bind, Option.bind_some]
  -- The fraction follows its point, so none of the other marks does
  split
  · rename_i h
    injection h
  · rename_i h
    injection h with _ h
    rw [h] at length
    injection length
  · rename_i h
    injection h with hc hrest
    subst hc hrest
    exact read

/-- A padded number is not written with nothing. -/
theorem writePadded_ne_nil {k n : Nat} (hk : 0 < k) (h : n < 10 ^ k) :
    Decimal.writePadded k n ≠ [] := fun nil => by
  have length := Decimal.length_writePadded hk h
  rw [nil, List.length_nil] at length
  omega

/-- What is written for a time of day is read as its units and its microseconds. -/
theorem readClock_write (t : TimeOfDay) :
    readClock t.write = some ⟨[t.hour, t.minute, t.second], t.micro, true⟩ := by
  have ht := t.lt
  have hhour : t.hour < 100 := by unfold TimeOfDay.hour ticksPerDay at *; omega
  have hminute : t.minute < 100 := by unfold TimeOfDay.minute; omega
  have hsecond : t.second < 100 := by unfold TimeOfDay.second; omega
  have hmicro : t.micro < 1000000 := by unfold TimeOfDay.micro; omega
  rw [readClock, TimeOfDay.write, List.append_assoc, List.append_assoc, List.cons_append,
    readUnits_colon hhour rfl [] (by simp), List.cons_append,
    readUnits_colon hminute rfl _
      (List.append_ne_nil_of_left_ne_nil (writePadded_ne_nil (by decide) hsecond) _)]
  -- Without microseconds nothing follows the seconds
  split
  · rename_i zero
    rw [List.append_nil, readUnits_end hsecond, eq_of_beq zero]
    rfl
  · exact readUnits_fraction hsecond hmicro _

/-! ## Offsets -/

/-- The offset that a complete clock of whole seconds spells. -/
theorem readOffset_of_clock {body : List Char} {clock : ClockText} {size : Nat}
    (hclock : readClock body = some clock) (complete : clock.complete = true)
    (hmicro : clock.micro = 0)
    (hsize : (clock.unit 0 * 60 + clock.unit 1) * 60 + clock.unit 2 = size) (h : size < 86400)
    (negative : Bool) : readOffset negative body =
      some (.ofWritten (if negative then -(size * ticksPerSecond) else size * ticksPerSecond)) := by
  have inside : ((size * ticksPerSecond + (0 : Nat) : Int) < ticksPerDay) := by
    unfold ticksPerSecond ticksPerDay
    omega
  rw [readOffset, hclock]
  simp only [Option.bind_eq_bind, Option.bind_some, complete, hmicro, hsize, decide_eq_true inside,
    Bool.not_true, Bool.or_self, Bool.false_eq_true, if_false]
  split
  · rename_i zero
    rw [zero]
    cases negative <;> rfl
  · cases negative <;> simp

/-- The units of an offset after its sign. -/
def offsetUnits (seconds : Nat) : List Char :=
  Decimal.writePadded 2 (seconds / 3600) ++ ':' :: Decimal.writePadded 2 (seconds / 60 % 60) ++
    if seconds % 60 = 0 then [] else ':' :: Decimal.writePadded 2 (seconds % 60)

/-- An offset of whole seconds is written as its sign and its units. -/
theorem write_offset (seconds : Int) : Offset.write (seconds * ticksPerSecond) =
    (if seconds < 0 then '-' else '+') :: offsetUnits seconds.natAbs := by
  have size : (seconds * ticksPerSecond).natAbs = seconds.natAbs * 1000000 := by
    rw [Int.natAbs_mul]
    rfl
  have sign : seconds * ticksPerSecond < 0 ↔ seconds < 0 := by
    unfold ticksPerSecond
    omega
  have hour : seconds.natAbs * 1000000 / 3600000000 = seconds.natAbs / 3600 := by omega
  have minute : seconds.natAbs * 1000000 / 60000000 % 60 = seconds.natAbs / 60 % 60 := by omega
  have second : seconds.natAbs * 1000000 / 1000000 % 60 = seconds.natAbs % 60 := by omega
  have micro : seconds.natAbs * 1000000 % 1000000 = 0 := by omega
  simp only [Offset.write, offsetUnits, size, sign, hour, minute, second, micro, List.append_nil,
    beq_self_eq_true, Bool.and_true, beq_iff_eq, if_true, List.cons_append]

/-- The units of an offset below a day read back. -/
theorem readOffset_units {seconds : Nat} (h : seconds < 86400) (negative : Bool) :
    readOffset negative (offsetUnits seconds) = some (.ofWritten
      (if negative then -(seconds * ticksPerSecond) else seconds * ticksPerSecond)) := by
  have hhour : seconds / 3600 < 100 := by omega
  have hminute : seconds / 60 % 60 < 100 := by omega
  have hsecond : seconds % 60 < 100 := by omega
  rw [offsetUnits, List.append_assoc, List.cons_append]
  -- Offsets of whole minutes are written without seconds
  split
  · rename_i zero
    have hclock : readClock (Decimal.writePadded 2 (seconds / 3600) ++
        ':' :: Decimal.writePadded 2 (seconds / 60 % 60)) =
          some ⟨[seconds / 3600, seconds / 60 % 60], 0, true⟩ := by
      rw [readClock, readUnits_colon hhour rfl [] (writePadded_ne_nil (by decide) hminute),
        readUnits_end hminute]
      rfl
    rw [List.append_nil]
    refine readOffset_of_clock hclock rfl rfl ?_ h negative
    show (seconds / 3600 * 60 + seconds / 60 % 60) * 60 + 0 = seconds
    omega
  · have hclock : readClock (Decimal.writePadded 2 (seconds / 3600) ++
        ':' :: (Decimal.writePadded 2 (seconds / 60 % 60) ++
          ':' :: Decimal.writePadded 2 (seconds % 60))) =
            some ⟨[seconds / 3600, seconds / 60 % 60, seconds % 60], 0, true⟩ := by
      rw [readClock, readUnits_colon hhour rfl [] (by simp),
        readUnits_colon hminute rfl _ (writePadded_ne_nil (by decide) hsecond),
        readUnits_end hsecond]
      rfl
    refine readOffset_of_clock hclock rfl rfl ?_ h negative
    show (seconds / 3600 * 60 + seconds / 60 % 60) * 60 + seconds % 60 = seconds
    omega

/-! ## Moments -/

/-- A time of day is made of its own units. -/
theorem of?_parts (t : TimeOfDay) : TimeOfDay.of? t.hour t.minute t.second t.micro = some t := by
  have ht := t.lt
  have parts : t.hour < 24 ∧ t.minute < 60 ∧ t.second < 60 ∧ t.micro < 1000000 := by
    unfold ticksPerDay at ht
    unfold TimeOfDay.hour TimeOfDay.minute TimeOfDay.second TimeOfDay.micro
    omega
  rw [TimeOfDay.of?, dif_pos parts, Option.some.injEq]
  obtain ⟨ticks, lt⟩ := t
  congr 1
  simp only [TimeOfDay.hour, TimeOfDay.minute, TimeOfDay.second, TimeOfDay.micro]
  omega

/-- No offset begins inside a written time of day. -/
theorem isOffsetMark_of_mem_write {t : TimeOfDay} {c : Char} (h : c ∈ t.write) :
    isOffsetMark c = false := by
  have digit {k n : Nat} (h : c ∈ Decimal.writePadded k n) : isOffsetMark c = false := by
    have hc := Decimal.isDigit_of_mem_writePadded h
    simp [isOffsetMark, ne_of_isDigit hc (c := '+') rfl, ne_of_isDigit hc (c := '-') rfl,
      ne_of_isDigit hc (c := 'Z') rfl]
  -- A time of day has digits, colons and a point
  simp only [TimeOfDay.write, List.mem_append, List.mem_cons] at h
  rcases h with ((h | rfl | h) | rfl | h) | h
  · exact digit h
  · rfl
  · exact digit h
  · rfl
  · exact digit h
  · split at h
    · exact absurd h List.not_mem_nil
    · rcases List.mem_cons.1 h with rfl | h
      · rfl
      · exact digit h

/-- A time and an offset read back. -/
theorem readTime_write (t : TimeOfDay) {seconds : Int} (h : seconds.natAbs < 86400) :
    readTime (t.write ++ Offset.write (seconds * ticksPerSecond)) =
      some (t, some (.ofWritten (seconds * ticksPerSecond))) := by
  have plain : ∀ c ∈ t.write, (!isOffsetMark c) = true := fun c hc => by
    rw [isOffsetMark_of_mem_write hc, Bool.not_false]
  have offset : readOffset (seconds < 0) (offsetUnits seconds.natAbs) =
      some (.ofWritten (seconds * ticksPerSecond)) := by
    rw [readOffset_units h]
    congr 2
    unfold ticksPerSecond
    split <;> rename_i neg <;> simp only [decide_eq_true_eq] at neg <;> omega
  have front := of?_parts t
  rw [readTime, List.span_eq_takeWhile_dropWhile, write_offset,
    List.takeWhile_append_of_pos plain, List.dropWhile_append_of_pos plain]
  -- The sign ends the time
  by_cases neg : seconds < 0
  · rw [decide_eq_true neg] at offset
    simp only [if_pos neg, List.takeWhile, List.dropWhile, isOffsetMark]
    simp [readClock_write, offset, ClockText.unit, front]
  · rw [decide_eq_false neg] at offset
    simp only [if_neg neg, List.takeWhile, List.dropWhile, isOffsetMark]
    simp [readClock_write, offset, ClockText.unit, front]

/-- A written date is told from what follows it. -/
theorem dateLength_write (d : Date) (c : Char) (rest : List Char) :
    dateLength (d.write ++ c :: rest) = 10 := by
  have hd := d.valid
  have length := length_write_date d
  obtain ⟨a, b, hmonth, ha, -⟩ := exists_writePadded_two (n := d.month) (by omega)
  have no_week : a ≠ 'W' := ne_of_isDigit ha rfl
  have hyear := Decimal.length_writePadded (k := 4) (n := d.year) (by decide) (by omega)
  have after_year : (d.write ++ c :: rest).drop 4 =
      '-' :: a :: b :: '-' :: (Decimal.writePadded 2 d.day ++ c :: rest) := by
    rw [Date.write, hmonth, List.append_assoc, List.append_assoc, List.drop_left' hyear]
    rfl
  rw [dateLength, if_neg (by rw [List.length_append, List.length_cons]; omega), after_year]
  -- A digit follows the hyphen after the year, so this is no date of a week
  split
  · rename_i h
    injection h with _ h
    injection h with h _
    exact absurd h no_week
  · rfl
  · rename_i h
    injection h with h _
    exact absurd h (by decide)
  · rename_i h _
    exact absurd rfl (h _)

/-- A written moment reads back as its reading and its offset. -/
theorem read_write {m : Moment} {seconds : Int} (hm : m.offset = seconds * ticksPerSecond)
    (h : seconds.natAbs < 86400) :
    read m.write = some ⟨m.reading, false, some (.ofWritten m.offset)⟩ := by
  have length := length_write_date m.reading.date
  have text : m.write = m.reading.date.write ++
      'T' :: (m.reading.time.write ++ Offset.write (seconds * ticksPerSecond)) := by
    rw [Moment.write, hm, List.append_assoc, List.cons_append]
  rw [read, text, dateLength_write, List.take_left' length, List.drop_left' length]
  simp only [readDate_write, readTime_write _ h, Option.bind_eq_bind, Option.bind_some, hm]

end Iso

/-! ## Offsets of regions -/

namespace History

/-- The offsets that a history uses. -/
def offsets (h : History) : List Int :=
  h.initial :: (h.recorded.map (·.after) ++
    h.rule.toList.flatMap fun rule => [rule.standard, rule.daylight])

variable {h : History}

/-- A shift leads to one of the offsets of its history. -/
theorem after_mem_offsets {years : List Nat} {shift : Shift} (hs : shift ∈ h.shiftsIn years) :
    shift.after ∈ h.offsets := by
  have recorded (hs : shift ∈ h.recorded) : shift.after ∈ h.offsets :=
    List.mem_cons_of_mem _ (List.mem_append_left _ (List.mem_map_of_mem hs))
  unfold shiftsIn at hs
  split at hs
  · exact recorded hs
  · -- Shifts of the rule lead to its own two offsets
    rename_i rule hrule
    rcases List.mem_append.1 hs with hs | hs
    · exact recorded hs
    · obtain ⟨year, -, hs⟩ := List.mem_flatMap.1 (List.mem_filter.1 hs).1
      refine List.mem_cons_of_mem _ (List.mem_append_right _ ?_)
      rw [hrule, Option.toList_some, List.flatMap_singleton]
      unfold YearlyRule.shifts at hs
      simp only at hs
      split at hs <;> simp only [List.mem_cons, List.not_mem_nil, or_false] at hs <;>
        rcases hs with rfl | rfl <;> simp

/-- The offset of a reading is one of the offsets of the history. -/
theorem offsetOn_mem_offsets (h : History) (wall : Int) (second : Bool) :
    h.offsetOn wall second ∈ h.offsets := by
  unfold offsetOn
  simp only
  split
  · exact List.mem_cons_self
  · rename_i shift hlast
    exact after_mem_offsets (List.mem_filter.1 (List.mem_of_getLast? hlast)).1

/-- All of them are below a day. -/
theorem BelowDay.natAbs_lt (below : h.BelowDay) : ∀ offset ∈ h.offsets, offset.natAbs < 86400 := by
  obtain ⟨initial, recorded, yearly⟩ := below
  refine List.forall_mem_cons.2 ⟨initial, List.forall_mem_append.2 ⟨?_, ?_⟩⟩
  · exact List.forall_mem_map.2 recorded
  · intro offset hoffset
    obtain ⟨rule, hrule, hoffset⟩ := List.mem_flatMap.1 hoffset
    obtain ⟨standard, daylight⟩ := yearly rule (Option.mem_toList.1 hrule)
    simp only [List.mem_cons, List.not_mem_nil, or_false] at hoffset
    rcases hoffset with rfl | rfl <;> assumption

/-- The offset of a reading is below a day. -/
theorem offsetOn_below_day (below : h.BelowDay) (wall : Int) (second : Bool) :
    (h.offsetOn wall second).natAbs < 86400 :=
  below.natAbs_lt _ (h.offsetOn_mem_offsets wall second)

end History

namespace When

/-- A text without the letter for UTC has nothing to spell out. -/
theorem spellOutUtc_eq {text : List Char} (h : ∀ c ∈ text, c ≠ 'Z') : spellOutUtc text = text := by
  induction text with
  | nil => rfl
  | cons c text ih =>
    have ih := ih fun c hc => h c (List.mem_cons_of_mem _ hc)
    have hc : (c == 'Z') = false := beq_eq_false_iff_ne.2 (h c List.mem_cons_self)
    rw [spellOutUtc, List.flatMap_cons, hc]
    exact congrArg (c :: ·) ih

/-- A written moment has no letter that is spelled out. -/
theorem ne_of_mem_write {m : Moment} {seconds : Int} (hm : m.offset = seconds * ticksPerSecond)
    {c : Char} (hc : c ∈ m.write) : c ≠ 'Z' := by
  have digit {k n : Nat} (h : c ∈ Decimal.writePadded k n) : c ≠ 'Z' :=
    Iso.ne_of_isDigit (Decimal.isDigit_of_mem_writePadded h) rfl
  have date (h : c ∈ m.reading.date.write) : c ≠ 'Z' := by
    simp only [Date.write, List.mem_append, List.mem_cons] at h
    rcases h with (h | rfl | h) | rfl | h
    · exact digit h
    · decide
    · exact digit h
    · decide
    · exact digit h
  have time (h : c ∈ m.reading.time.write) : c ≠ 'Z' := fun eq => by
    have mark := Iso.isOffsetMark_of_mem_write h
    rw [eq] at mark
    injection mark
  have units (h : c ∈ Iso.offsetUnits seconds.natAbs) : c ≠ 'Z' := by
    simp only [Iso.offsetUnits, List.mem_append, List.mem_cons] at h
    rcases h with (h | rfl | h) | h
    · exact digit h
    · decide
    · exact digit h
    · split at h
      · exact absurd h List.not_mem_nil
      · rcases List.mem_cons.1 h with rfl | h
        · decide
        · exact digit h
  -- The date, the letter between, the time, the sign and the units of the offset
  rw [Moment.write, hm, Iso.write_offset] at hc
  simp only [List.mem_append, List.mem_cons] at hc
  rcases hc with (h | rfl | h) | h | h
  · exact date h
  · decide
  · exact time h
  · rw [h]
    split <;> decide
  · exact units h

/-- The text of a moment, given on the clocks of a region, stands for the moment's instant. -/
theorem resolve_toIso [SpokenReader] {m : Moment} {seconds : Int}
    (hm : m.offset = seconds * ticksPerSecond)
    (h : seconds.natAbs < 86400) (region : Region) :
    (When.text m.toIso).resolve (.region region) =
      orFail (Moment.ofInstant m.instant (.region region)) := by
  rw [resolve, Moment.toIso, String.toList_ofList, spellOutUtc_eq fun c => ne_of_mem_write hm,
    Iso.read_write hm h]
  simp only [Stamp.inZone, Moment.inZone]
  -- A written offset is no region, so the clocks of the region show its instant
  rw [if_neg]
  · refine congrArg orFail (congrArg (Moment.ofInstant · _) ?_)
    show (m.reading.ticks : Int) - (Zone.ofWritten m.offset).offsetOn m.reading false = _
    unfold Zone.ofWritten Moment.instant
    split
    · rename_i zero
      rw [zero]
      rfl
    · rfl
  · unfold Zone.ofWritten
    split <;> nofun

end When

end Recurrence
