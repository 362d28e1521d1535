import Recurrence.Schedule
import Recurrence.Settings.Cache

/-!
# The preview service

The answers of the service to requests: a rule taken apart, the next occurrence of a rule, and a
preview of its occurrences.

* `Service.answer`: the answer to a request, or the failure that the service does not turn into an
  answer.
-/

namespace Recurrence

/-- A request. -/
structure Request where
  method : String
  path : String
  /-- The body, if there is one. -/
  body : Option Document

/-- A date token on the clocks of a zone, with its spelling. -/
structure ShownToken where
  text : String
  token : DateToken
deriving DecidableEq

/-- The value of a part with its date tokens spelled out. -/
inductive ShownValue where
  | plain (value : PartValue)
  | token (value : ShownToken)
  | tokens (values : List ShownToken)
deriving DecidableEq

/-- An answer to a request. -/
inductive Answer where
  /-- The request is refused with a status. -/
  | status (code : Nat)
  /-- The service is up. -/
  | healthy
  /-- What was asked for is wrong. -/
  | rejected (message : String)
  | parsed (parts : List (Key × ShownValue)) (text : String)
  | next (found : Option Moment)
  | occurrences (rule : String) (found : List Moment)
deriving DecidableEq

/-- The service: the name of its zone, and what reading its settings gives. -/
structure Service where
  zoneName : String
  settings : Except Failure Settings

namespace Service

variable [ZoneDatabase] [SpokenReader]

/-! ## Failures -/

/-- Whether a failure is answered as the fault of the request. Leaving the calendar and values that
are no moments at all are not, nor is a failure of the reader of spoken moments that is no bad
value. -/
def isRejection : Failure → Bool
  | .calendar .overflow => false
  | .spoken (.wrongKind _) => false
  | .spoken (.other _) => false
  | .infiniteNumber => false
  | .notMoment => false
  | .notNumber _ => false
  | .unusableSource _ => false
  | .noSettingsFile => false
  | .unreadableSettings _ => false
  | _ => true

/-- Whether a failure comes from a value of the wrong kind. -/
def isWrongKind : Failure → Bool
  | .notNumber _ => true
  | .unusableSource _ => true
  | .spoken (.wrongKind _) => true
  | _ => false

/-! ## Requests -/

abbrev Entries := List (String × Document)

/-- The value under a name; one that is left out is null. -/
def field (entries : Entries) (name : String) : Document :=
  (Document.get? name entries).getD .null

/-- The text under a name, stripped of blanks, if it is a text with content. -/
def contentOf (entries : Entries) (name : String) : Option String :=
  match field entries name with
  | .text value =>
    if Text.hasContent value.toList then some (String.ofList (Text.strip value.toList)) else none
  | _ => none

/-- The name of the zone of a request: its own, or the service's. -/
def zoneNameOf (service : Service) (entries : Entries) : String :=
  (contentOf entries "timezone").getD service.zoneName

/-- The schedule of a request. Its anchor is left out when only the rule matters. -/
def scheduleOf (service : Service) (entries : Entries) (withAnchor : Bool) :
    Except Failure Schedule :=
  match contentOf entries "rule" with
  | none => .error .ruleTextRequired
  | some text =>
    let start := field entries "start"
    -- A start that is left out shows before faults of the settings, the zone and the rule
    if withAnchor && !start.isGiven then .error .startRequired
    else do
      let settings ← service.settings
      let zone ← (ZoneChoice.named (service.zoneNameOf entries)).resolve
      Schedule.make (.text text) (if withAnchor then some (.ofDocument start) else none)
        (.given zone) (some settings.lookahead.val)

/-- The moment after which occurrences are asked for, if the request gives one. -/
def afterOf (entries : Entries) : Option When :=
  let after := field entries "after"
  if after.isGiven then some (.ofDocument after) else none

/-! ## Taking a rule apart -/

def showToken (zone : Zone) (token : DateToken) : Except Failure ShownToken :=
  orFail ((fun text => ⟨String.ofList text, token⟩) <$> token.write zone)

def showValue (zone : Zone) : PartValue → Except Failure ShownValue
  | .token value => .token <$> showToken zone value
  | .tokens values => .tokens <$> values.mapM (showToken zone)
  | value => .ok (.plain value)

def showParts (s : Schedule) : Except Failure (List (Key × ShownValue)) :=
  s.fields.snapshot.mapM fun (key, value) => (fun shown => (key, shown)) <$> showValue s.zone value

/-- The parts of a request's rule. -/
def parseRule (service : Service) (entries : Entries) : Except Failure Answer :=
  match service.scheduleOf entries false with
  | .error failure =>
    if isRejection failure then .ok (.rejected failure.message) else .error failure
  | .ok schedule => do
    let parts ← showParts schedule
    let text ← schedule.toText
    return .parsed parts text

/-! ## The next occurrence -/

/-- The first occurrence after the moment that a request gives, or the first of all. -/
def findNext (service : Service) (entries : Entries) : Except Failure (Option Moment) := do
  let schedule ← service.scheduleOf entries true
  match afterOf entries with
  | some after => schedule.next after
  | none => schedule.first

def nextOccurrence (service : Service) (entries : Entries) : Except Failure Answer :=
  match service.findNext entries with
  | .error failure =>
    if isRejection failure then .ok (.rejected failure.message) else .error failure
  | .ok found => .ok (.next found)

/-! ## Previews -/

/-- A number that stands for a count, cut to an integer. -/
def toCount : Document → Except Failure Int
  | .int value => .ok value
  | .bool value => .ok (if value then 1 else 0)
  | .real value =>
    match value.truncate? with
    | some n => .ok n
    | none => .error .infiniteNumber
  | .text value =>
    match Text.readNumeral value.toList with
    | .ok n => .ok n
    | .error .malformed => .error (.malformedNumeral value)
    | .error (.tooLong digits) => .error (.numeralTooLong digits)
  | value => .error (.notNumber value.kind)

/-- The count of a request, if it gives one. -/
def requestedCount (entries : Entries) : Except Failure (Option Int) :=
  match field entries "count" with
  | .null => .ok none
  | value => some <$> toCount value

/-- The first `count` occurrences of a schedule: the first one, and those after it. -/
def firstOccurrences (s : Schedule) (count : Nat) : Except Failure (List Moment) :=
  if count = 0 then .ok []
  else do
    match ← s.first with
    | none => return []
    | some first =>
      if count = 1 then return [first]
      -- The others come after the first one, without a way through text
      let rest ← s.nextOccurrences (.stamp first.stamp) (count - 1 : Nat)
      return first :: rest

/-- The schedule of a request, and the occurrences of its preview. -/
def previewOf (service : Service) (entries : Entries) (settings : Settings) :
    Except Failure (Schedule × List Moment) := do
  -- The count is read before anything else of the request
  let requested ← requestedCount entries
  let count := settings.preview.clamp requested
  let schedule ← service.scheduleOf entries true
  match afterOf entries with
  | some after => return (schedule, ← schedule.nextOccurrences after count)
  | none => return (schedule, ← firstOccurrences schedule count)

def listOccurrences (service : Service) (entries : Entries) : Except Failure Answer := do
  let settings ← service.settings
  match service.previewOf entries settings with
  | .error failure =>
    if isRejection failure || isWrongKind failure then return .rejected failure.message
    else throw failure
  | .ok (schedule, found) =>
    let text ← schedule.toText
    return .occurrences text found

/-! ## Routes -/

/-- What the service offers. -/
inductive Route where
  | parse
  | next
  | occurrences
  | health
deriving DecidableEq

namespace Route

/-- The routes and their paths. -/
def paths : List (String × Route) :=
  [("/api/rules/parse", .parse), ("/api/rules/next", .next),
    ("/api/rules/occurrences", .occurrences), ("/health", .health)]

/-- The route of a path. -/
def ofPath? (path : String) : Option Route :=
  (paths.find? fun entry => entry.1 == path).map (·.2)

/-- The method that a route answers to. -/
def method : Route → String
  | health => "GET"
  | _ => "POST"

/-- Whether a path leads to a route apart from slashes at its end. -/
def isNear (path : String) : Bool :=
  let stem := (path.toList.reverse.dropWhile (· == '/')).reverse
  (ofPath? (String.ofList stem)).isSome

end Route

/-- The answer to a request, or the failure that the service does not turn into an answer. -/
def answer (service : Service) (request : Request) : Except Failure Answer :=
  match Route.ofPath? request.path with
  | none => .ok (.status (if Route.isNear request.path then 307 else 404))
  | some route =>
    if request.method ≠ route.method then .ok (.status 405)
    else
      match route, request.body with
      | .health, _ => .ok .healthy
      | .parse, some (.object entries) => service.parseRule entries
      | .next, some (.object entries) => service.nextOccurrence entries
      | .occurrences, some (.object entries) => service.listOccurrences entries
      | _, _ => .ok (.status 422)

end Service

end Recurrence
