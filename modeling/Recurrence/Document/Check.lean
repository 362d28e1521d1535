import Recurrence.Document.Basic
import Recurrence.Document.IntegerText
import Recurrence.Moment.Timestamp
import Recurrence.Positive
import Recurrence.Text.Quoted

/-!
# Checking documents

Reading typed values out of documents. A check gathers every issue of a document, each with its
place, instead of stopping at the first.

* `Checked.both`, `Checked.each`: checks side by side, with the issues in order.
* `checkInt`, `checkBool`, `checkText`, `checkItems`, `checkObject`: the basic checks.
-/

namespace Recurrence

/-- The rules on values that a rule's parts keep among themselves. -/
inductive ValueRule where
  | monthRange (month : Int)
  | monthsDistinct
  | monthDayRange (day : Int)
  | knownKeys (unknown : List String)
  | dayFilters
  | zoneNamed
deriving DecidableEq

namespace ValueRule

/-- A list of quoted texts in brackets. -/
def bracketed (texts : List String) : String :=
  "[" ++ ", ".intercalate (texts.map Text.quoteString) ++ "]"

def message : ValueRule → String
  | monthRange month =>
    "BYMONTH value out of range: " ++ String.ofList (Decimal.writeInt month)
  | monthsDistinct => "BYMONTH values must be distinct"
  | monthDayRange day =>
    "BYMONTHDAY value out of range: " ++ String.ofList (Decimal.writeInt day)
  | knownKeys unknown => "Unknown rule keys in key_order: " ++ bracketed unknown
  | dayFilters => "BYMONTHDAY cannot be combined with BYDAY"
  | zoneNamed => "DateToken instants must be timezone-aware"

end ValueRule

/-- What is wrong at a place of a document. -/
inductive IssueCause where
  | missing
  /-- None of the values that an enumeration allows. -/
  | notMember
  | notInt
  | unreadableInt
  | intTooLarge
  | fractionalInt
  | infiniteInt
  | tooSmall
  | notBool
  | unreadableBool
  | notText
  | notStamp
  | unreadableStamp
  /-- A number counts time to a moment too far away. -/
  | stampOutOfRange
  | notList
  | notObject
  | brokenRule (rule : ValueRule)
deriving DecidableEq

/-- An issue and its place: the names and positions that lead to it. -/
structure Issue where
  place : List String
  cause : IssueCause
deriving DecidableEq

/-- The value that a document holds, or its issues. -/
abbrev Checked (α : Type) := Except (List Issue) α

namespace Checked

/-- An issue at the place itself. -/
def refuse {α : Type} (cause : IssueCause) : Checked α := .error [⟨[], cause⟩]

/-- A value that is there, or an issue at the place itself. -/
def orRefuse {α : Type} (cause : IssueCause) : Option α → Checked α
  | some value => .ok value
  | none => refuse cause

/-- The issues of a check, moved below a name. -/
def below {α : Type} (name : String) : Checked α → Checked α
  | .ok value => .ok value
  | .error issues => .error (issues.map fun issue => { issue with place := name :: issue.place })

/-- Two checks side by side. -/
def both {α β : Type} (first : Checked α) (second : Checked β) : Checked (α × β) :=
  match first, second with
  | .ok a, .ok b => .ok (a, b)
  | .ok _, .error issues => .error issues
  | .error issues, .ok _ => .error issues
  | .error issues, .error more => .error (issues ++ more)

/-- A check of each item of a list, below its position. -/
def each {α : Type} (check : Document → Checked α) : (position : Nat) → List Document →
    Checked (List α)
  | _, [] => .ok []
  | position, item :: rest =>
    (fun values => values.1 :: values.2) <$>
      both (below (String.ofList (Decimal.write position)) (check item))
        (each check (position + 1) rest)

end Checked

namespace Document

/-- The entries of an object. -/
def checkObject : Document → Checked (List (String × Document))
  | object entries => .ok entries
  | _ => .refuse .notObject

/-- The checked items of a list. -/
def checkItems {α : Type} (check : Document → Checked α) : Document → Checked (List α)
  | list items => .each check 0 items
  | _ => .refuse .notList

def checkText : Document → Checked String
  | text value => .ok value
  | _ => .refuse .notText

/-- The stamp of a number that counts time since 1970-01-01T00:00 UTC. -/
def stampOfReal (value : Binary64) : Option Stamp := do
  let count ← value.floor?
  Timestamp.ofCount count (← value.fraction? ticksPerSecond)

/-- A stamp, or a text or number that stands for one. -/
def checkStamp : Document → Checked Stamp
  | stamp value => .ok value
  | text value => .orRefuse .unreadableStamp (Timestamp.read value.toList)
  | int value => .orRefuse .stampOutOfRange (Timestamp.ofCount value 0)
  | real value => .orRefuse .stampOutOfRange (stampOfReal value)
  | _ => .refuse .notStamp

/-- Texts that stand for a truth value, apart from letter case. -/
def truthWords : List (String × Bool) :=
  [("0", false), ("off", false), ("f", false), ("false", false), ("n", false), ("no", false),
    ("1", true), ("on", true), ("t", true), ("true", true), ("y", true), ("yes", true)]

/-- The bound of the integers that a computer word holds: they reach from minus the bound up to, but
not including, the bound. -/
def wordLimit : Int := 9223372036854775808

/-- Whether an integer fits into a computer word. -/
def fitsWord (n : Int) : Bool := -wordLimit ≤ n && n < wordLimit

/-- The truth value of zero or one. -/
def truthOf : Int → Checked Bool
  | 0 => .ok false
  | 1 => .ok true
  | _ => .refuse .unreadableBool

/-- The integer of a number that has no fraction and is well inside a computer word. -/
def wholeWord? (value : Binary64) : Option Int :=
  if !value.isWhole then none
  else value.floor?.filter fun n => -wordLimit < n && n < wordLimit

/-- A truth value, or a number or text that stands for one. A number that is no integer of a
computer word does not even count as unreadable. -/
def checkBool : Document → Checked Bool
  | bool value => .ok value
  | int value => if fitsWord value then truthOf value else .refuse .notBool
  | real value =>
    match wholeWord? value with
    | some n => truthOf n
    | none => .refuse .notBool
  | text value =>
    match truthWords.find? fun word => word.1 == value.toLower with
    | some word => .ok word.2
    | none => .refuse .unreadableBool
  | _ => .refuse .notBool

/-- The integer that a text spells. -/
def readInt (value : List Char) : Checked Int :=
  match IntegerText.read value with
  | .ok n => .ok n
  | .error .malformed => .refuse .unreadableInt
  | .error .tooLong => .refuse .intTooLarge

/-- An integer, or a value that stands for one. -/
def checkInt : Document → Checked Int
  | int value => .ok value
  | bool value => .ok (if value then 1 else 0)
  | real value =>
    match value.floor? with
    | none => .refuse .infiniteInt
    | some _ =>
      if !value.isWhole then .refuse .fractionalInt
      else .orRefuse .intTooLarge (wholeWord? value)
  | text value => readInt value.toList
  | _ => .refuse .notInt

/-- A positive integer, or a value that stands for one. -/
def checkPositive (document : Document) : Checked Positive :=
  match checkInt document with
  | .error issues => .error issues
  | .ok n =>
    match Positive.ofInt? n with
    | some n => .ok n
    | none => .refuse .tooSmall

/-- The check of an entry that must be there. -/
def required {α : Type} (entries : List (String × Document)) (name : String)
    (check : Document → Checked α) : Checked α :=
  match get? name entries with
  | none => .below name (.refuse .missing)
  | some document => .below name (check document)

/-- The check of an entry that may be left out. -/
def optional {α : Type} (entries : List (String × Document)) (name : String) (default : α)
    (check : Document → Checked α) : Checked α :=
  match get? name entries with
  | none => .ok default
  | some document => .below name (check document)

/-- The check of a value that may be null. -/
def nullable {α : Type} (check : Document → Checked α) : Document → Checked (Option α)
  | null => .ok none
  | document => some <$> check document

end Document

end Recurrence
