import Recurrence.Document.Binary64
import Recurrence.Moment.Basic

/-!
# Documents

Trees of data from outside: request bodies, settings, and the attributes of a rule. Besides the
usual values a tree may hold stamps.
-/

namespace Recurrence

inductive Document where
  | null
  | bool (value : Bool)
  | int (value : Int)
  | real (value : Binary64)
  | text (value : String)
  | stamp (value : Stamp)
  | list (items : List Document)
  /-- Entries under distinct names, in the order of their first appearance. -/
  | object (entries : List (String × Document))

namespace Document

/-- The kinds of documents. -/
inductive Kind where
  | null
  | bool
  | int
  | real
  | text
  | stamp
  | list
  | object
deriving DecidableEq

def kind : Document → Kind
  | null => .null
  | bool _ => .bool
  | int _ => .int
  | real _ => .real
  | text _ => .text
  | stamp _ => .stamp
  | list _ => .list
  | object _ => .object

/-- The entries with one more: a name that is there already keeps its place. -/
def insertEntry (name : String) (value : Document) :
    List (String × Document) → List (String × Document)
  | [] => [(name, value)]
  | entry :: rest =>
    if entry.1 == name then (name, value) :: rest else entry :: insertEntry name value rest

/-- The document under a name. -/
def get? (name : String) (entries : List (String × Document)) : Option Document :=
  (entries.find? fun entry => entry.1 == name).map (·.2)

/-- Whether a document counts as given: null, false, zero and whatever is empty do not. -/
def isGiven : Document → Bool
  | null => false
  | bool value => value
  | int value => value != 0
  | real value => !value.isZero
  | text value => value != ""
  | stamp _ => true
  | list items => !items.isEmpty
  | object entries => !entries.isEmpty

end Document

end Recurrence
