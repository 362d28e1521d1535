import Recurrence.Service

/-!
# Bodies of answers

What the service sends back: an object that tells how the request went, and what was asked for. A
mere status has no body.

* `Answer.body`: the entries of the body of an answer.
-/

namespace Recurrence

def Moment.document (m : Moment) : Document := .text m.toIso

/-- A pair of the ordinal and the number of the weekday. -/
def DayEntry.document (entry : DayEntry) : Document :=
  .list [.int entry.ordinal, .int entry.weekday.number]

def DateToken.attributes (token : DateToken) : List (String × Document) :=
  [("instant", token.moment.document), ("date_only", .bool token.dateOnly),
    ("utc", .bool token.utc)]

def PartValue.document : PartValue → Document
  | frequency value => .text value.name
  | number value => .int value
  | numbers values => .list (values.map fun n : Nat => .int n)
  | entries values => .list (values.map DayEntry.document)
  | token value => .object value.attributes
  | tokens values => .list (values.map fun value => .object value.attributes)

def ShownToken.document (shown : ShownToken) : Document :=
  .object (("value", .text shown.text) :: shown.token.attributes)

def ShownValue.document : ShownValue → Document
  | plain value => value.document
  | token value => value.document
  | tokens values => .list (values.map ShownToken.document)

namespace Answer

/-- The entries of the body of an answer, if it has one. -/
def body : Answer → Option (List (String × Document))
  | status _ => none
  | healthy => some [("status", .text "ok")]
  | rejected message => some [("status", .text "error"), ("error", .text message)]
  | parsed parts text =>
    some [("status", .text "ok"),
      ("rule", .object (parts.map fun (key, value) => (key.name, value.document))),
      ("text", .text text)]
  | next found =>
    some [("status", .text "ok"), ("next", (found.map Moment.document).getD .null)]
  | occurrences rule found =>
    some [("status", .text "ok"), ("rule", .text rule), ("count", .int found.length),
      ("occurrences", .list (found.map Moment.document))]

/-- The status code of an answer. -/
def code : Answer → Nat
  | status code => code
  | _ => 200

end Answer

end Recurrence
