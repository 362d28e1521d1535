/-!
# Decimal numerals

Writing natural numbers and integers with the ten ASCII digits.

* `Decimal.write_value`: a written number reads back.
-/

namespace Recurrence.Decimal

/-- The ASCII digit of a value below ten. -/
def digitChar (d : Nat) : Char := Char.ofNat (48 + d % 10)

/-- The digits of a number, without leading zeros. -/
def write (n : Nat) : List Char :=
  if n < 10 then [digitChar n] else write (n / 10) ++ [digitChar (n % 10)]
termination_by n
decreasing_by omega

/-- The digits of a number, with leading zeros up to a width. -/
def writePadded (width n : Nat) : List Char :=
  List.replicate (width - (write n).length) '0' ++ write n

/-- The digits of an integer, after a minus sign when it is negative. -/
def writeInt (n : Int) : List Char :=
  if n < 0 then '-' :: write n.natAbs else write n.natAbs

/-- The number that a list of digit values spells. -/
def value (digits : List Nat) : Nat :=
  digits.foldl (fun acc d => 10 * acc + d) 0

/-- The value of an ASCII digit. -/
def digitValue (c : Char) : Nat := c.toNat - 48

/-- The digit for a number has its last decimal digit for a value. -/
theorem digitValue_digitChar (d : Nat) : digitValue (digitChar d) = d % 10 := by
  have h : d % 10 < 10 := Nat.mod_lt _ (by decide)
  simp only [digitValue, digitChar]
  generalize d % 10 = r at *
  match r, h with
  | 0, _ | 1, _ | 2, _ | 3, _ | 4, _ | 5, _ | 6, _ | 7, _ | 8, _ | 9, _ => rfl

/-- Digits are written with ASCII digits. -/
theorem isDigit_digitChar (d : Nat) : (digitChar d).isDigit = true := by
  have h : d % 10 < 10 := Nat.mod_lt _ (by decide)
  simp only [digitChar]
  generalize d % 10 = r at *
  match r, h with
  | 0, _ | 1, _ | 2, _ | 3, _ | 4, _ | 5, _ | 6, _ | 7, _ | 8, _ | 9, _ => rfl

/-- One more digit at the end counts the others ten times. -/
theorem value_append_singleton (digits : List Nat) (d : Nat) :
    value (digits ++ [d]) = 10 * value digits + d := by
  simp [value, List.foldl_append]

/-- A number that is written has its own value. -/
theorem write_value (n : Nat) : value ((write n).map digitValue) = n := by
  fun_induction write n with
  | case1 n h =>
    simp only [List.map_cons, List.map_nil, digitValue_digitChar, value, List.foldl_cons,
      List.foldl_nil]
    omega
  | case2 n h ih =>
    rw [List.map_append, List.map_cons, List.map_nil, value_append_singleton, ih,
      digitValue_digitChar]
    omega

/-- Numbers are written with ASCII digits only. -/
theorem isDigit_of_mem_write {n : Nat} {c : Char} (h : c ∈ write n) : c.isDigit = true := by
  fun_induction write n with
  | case1 n _ => simp only [List.mem_singleton] at h; rw [h]; exact isDigit_digitChar n
  | case2 n _ ih =>
    rcases List.mem_append.1 h with h | h
    · exact ih h
    · simp only [List.mem_singleton] at h; rw [h]; exact isDigit_digitChar _

end Recurrence.Decimal
