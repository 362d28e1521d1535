import Recurrence.Clock.TimeOfDay
import Recurrence.Text.Decimal

/-!
# Offset texts

How an offset from UTC is written: sign, hours and minutes, then the seconds and microseconds
that are not zero.
-/

namespace Recurrence.Offset

/-- The text of an offset in microseconds east of UTC, such as `+05:30`. -/
def write (ticks : Int) : List Char :=
  let size := ticks.natAbs
  let second := size / 1000000 % 60
  let micro := size % 1000000
  (if ticks < 0 then '-' else '+') :: Decimal.writePadded 2 (size / 3600000000) ++
    ':' :: Decimal.writePadded 2 (size / 60000000 % 60) ++
    (if second == 0 && micro == 0 then [] else ':' :: Decimal.writePadded 2 second) ++
    (if micro == 0 then [] else '.' :: Decimal.writePadded 6 micro)

end Recurrence.Offset
