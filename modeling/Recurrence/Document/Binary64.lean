/-!
# Binary floating point

Numbers with a fraction, as the nearest value with 53 significant bits and an even last bit in
case of a tie.
-/

namespace Recurrence

/-- A number `mantissa * 2 ^ exponent`, or an infinity beyond the finite range. -/
inductive Binary64 where
  | finite (mantissa : Int) (exponent : Int)
  | infinite (negative : Bool)
deriving DecidableEq

namespace Binary64

/-- The smallest exponent of a finite number. -/
def minExponent : Int := -1074

/-- The bit count of the largest finite numbers. -/
def maxBits : Nat := 1024

/-- The integer nearest to a quotient; a tie goes to the even one. -/
def roundDiv (num den : Nat) : Nat :=
  let quotient := num / den
  let double := 2 * (num % den)
  if double < den || (double == den && quotient % 2 == 0) then quotient else quotient + 1

/-- The nearest number to a positive quotient, as mantissa and exponent. -/
def nearest (num den : Nat) : Nat × Int :=
  let guess : Int := (num.log2 : Int) - den.log2 - 53
  let scaled (exponent : Int) : Nat × Nat :=
    if 0 ≤ exponent then (num, den <<< exponent.toNat)
    else (num <<< (-exponent).toNat, den)
  let exponent :=
    let (n, d) := scaled guess
    if n / d < 1 <<< 53 then guess else guess + 1
  let exponent := max exponent minExponent
  let (n, d) := scaled exponent
  (roundDiv n d, exponent)

/-- The number nearest to `digits * 10 ^ exponent`. -/
def ofDecimal (negative : Bool) (digits : Nat) (exponent : Int) : Binary64 :=
  let size : Int := (digits.log2 : Int) + 4 * exponent
  if digits = 0 || (exponent < 0 && (digits.log2 : Int) + 3 * exponent < minExponent - 8) then
    .finite 0 0
  else if 0 < exponent && 8 * (maxBits : Int) < size then .infinite negative
  else
    let (mantissa, power) :=
      if 0 ≤ exponent then nearest (digits * Nat.pow 10 exponent.toNat) 1
      else nearest digits (Nat.pow 10 (-exponent).toNat)
    if (maxBits : Int) ≤ (mantissa.log2 : Int) + power then .infinite negative
    else .finite (if negative then -(mantissa : Int) else mantissa) power

def isZero : Binary64 → Bool
  | finite mantissa _ => mantissa == 0
  | infinite _ => false

/-- The integer part, cut toward zero. An infinity has none. -/
def truncate? : Binary64 → Option Int
  | finite mantissa exponent =>
    if 0 ≤ exponent then some (mantissa * (1 <<< exponent.toNat : Nat))
    else some (mantissa.tdiv (1 <<< (-exponent).toNat : Nat))
  | infinite _ => none

/-- The greatest integer that is not larger. An infinity has none. -/
def floor? : Binary64 → Option Int
  | finite mantissa exponent =>
    if 0 ≤ exponent then some (mantissa * (1 <<< exponent.toNat : Nat))
    else some (mantissa / (1 <<< (-exponent).toNat : Nat))
  | infinite _ => none

/-- The fraction of a number's size, in parts of a unit; half a part is rounded up. -/
def fraction? (parts : Nat) : Binary64 → Option Nat
  | finite mantissa exponent =>
    if 0 ≤ exponent then some 0
    else
      let unit := 1 <<< (-exponent).toNat
      some ((2 * (mantissa.natAbs % unit) * parts + unit) / (2 * unit))
  | infinite _ => none

/-- Whether a number has no fraction. -/
def isWhole : Binary64 → Bool
  | finite mantissa exponent =>
    if 0 ≤ exponent then true else mantissa % (1 <<< (-exponent).toNat : Nat) == 0
  | infinite _ => false

end Binary64

end Recurrence
