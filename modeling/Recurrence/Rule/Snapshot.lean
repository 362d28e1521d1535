import Recurrence.Rule.Fields

/-!
# Snapshots

The present parts of a rule with their values, key by key.

* `Fields.snapshot`: each present key once, in the order of `Fields.orderedKeys`.
* `Fields.sameParts`: whether two rules have the same parts, in whatever order they were given.
-/

namespace Recurrence

/-- The value of a part. -/
inductive PartValue where
  | frequency (value : Frequency)
  | number (value : Nat)
  | numbers (values : List Nat)
  | entries (values : List DayEntry)
  | token (value : DateToken)
  | tokens (values : List DateToken)
deriving DecidableEq

namespace DateToken

/-- Whether two tokens have equal moments and the same shape. -/
def isSame (a b : DateToken) : Bool :=
  a.moment.isSame b.moment && a.dateOnly == b.dateOnly && a.utc == b.utc

/-- Whether two lists hold the same tokens in the same order. -/
def allSame : List DateToken → List DateToken → Bool
  | [], [] => true
  | a :: as, b :: bs => a.isSame b && allSame as bs
  | _, _ => false

end DateToken

namespace PartValue

/-- Whether two values are equal. Tokens are compared by their moments. -/
def isSame : PartValue → PartValue → Bool
  | token a, token b => a.isSame b
  | tokens as, tokens bs => DateToken.allSame as bs
  | a, b => a = b

end PartValue

namespace Fields

/-- The value of a part, if it is present. -/
def value? (fields : Fields) : Key → Option PartValue
  | .freq => some (.frequency fields.freq)
  | .interval => fields.interval.map fun n => .number n.val
  | .count => fields.count.map fun n => .number n.val
  | .ending => fields.ending.map .token
  | .byMonth =>
    if fields.has .byMonth then some (.numbers (fields.byMonth.val.map (·.val))) else none
  | .byMonthDay =>
    if fields.has .byMonthDay then some (.numbers (fields.byMonthDay.map (·.val))) else none
  | .byDay => if fields.has .byDay then some (.entries fields.byDay) else none
  | .exdate => if fields.has .exdate then some (.tokens fields.exdates) else none

/-- The present parts, each once. -/
def snapshot (fields : Fields) : List (Key × PartValue) :=
  fields.orderedKeys.eraseDups.filterMap fun key =>
    (fields.value? key).map fun value => (key, value)

/-- Whether two optional values are both absent or equal. -/
def sameValue : Option PartValue → Option PartValue → Bool
  | none, none => true
  | some a, some b => a.isSame b
  | _, _ => false

/-- Whether two rules have the same parts with equal values. -/
def sameParts (a b : Fields) : Bool :=
  Key.canonical.all fun key => sameValue (a.value? key) (b.value? key)

end Fields

end Recurrence
