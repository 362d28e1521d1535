import Recurrence.Rule.DateToken
import Recurrence.Text.Split

/-!
# Reading rule text

Rule text is a sequence of `KEY=VALUE` segments divided by semicolons. Segments are read from left
to right, and the first that is refused decides the failure.

* `readSegment`: a draft of the parts with one more segment.
* `Fields.read`: the parts that a text spells.
-/

namespace Recurrence

namespace RuleText

/-! ## Values -/

/-- A refused value: the key that it belongs to, and the offending text. -/
def refuse {α : Type} (cause : RuleCause) (key : String) (token : List Char) : Except Failure α :=
  .error (.rule ⟨cause, some key, some (String.ofList token)⟩)

/-- A text without one final line break. -/
def dropFinalBreak (text : List Char) : List Char :=
  if text.getLast? = some '\n' then text.dropLast else text

/-- The number that ASCII digits spell, up to the limit on numerals. -/
def readDigits (digits : List Char) : Except Failure Nat :=
  if Text.numeralLimit < digits.length then .error (.numeralTooLong digits.length)
  else .ok (Decimal.value (digits.map Decimal.digitValue))

/-- Whether a text consists of ASCII digits and begins with one that is not zero. -/
def isCounting (text : List Char) : Bool :=
  match text with
  | [] => false
  | c :: rest => c.isDigit && c != '0' && rest.all Char.isDigit

/-- An integer in its canonical spelling: no leading zeros and no plus sign. One line break may
follow. -/
def readInteger (key : String) (token : List Char) : Except Failure Int :=
  match dropFinalBreak token with
  | ['0'] => .ok 0
  | '-' :: digits =>
    if isCounting digits then (fun n => -(n : Int)) <$> readDigits digits
    else refuse .notInteger key token
  | digits =>
    if isCounting digits then (fun n => (n : Int)) <$> readDigits digits
    else refuse .notInteger key token

def readPositive (key : String) (token : List Char) : Except Failure Positive := do
  match Positive.ofInt? (← readInteger key token) with
  | some n => .ok n
  | none => refuse .notPositive key token

def readFrequency (key : String) (token : List Char) : Except Failure Frequency :=
  match Frequency.ofName? token with
  | some freq => .ok freq
  | none => refuse .unknownFrequency key token

/-- The items of a list value. None may be empty. -/
def readItems (key : String) (value : List Char) : Except Failure (List (List Char)) :=
  let items := Text.split ',' value
  if items.any List.isEmpty then refuse .emptyItem key value else .ok items

def readMonth (key : String) (token : List Char) : Except Failure MonthNumber := do
  match MonthNumber.ofInt? (← readInteger key token) with
  | some month => .ok month
  | none => refuse .monthRange key token

/-- Months after those already read. -/
def readMonthsFrom (key : String) : MonthList → List (List Char) → Except Failure MonthList
  | months, [] => .ok months
  | months, token :: tokens => do
    let month ← readMonth key token
    if h : month ∈ months.val then refuse .monthRepeated key token
    else
      let distinct : (months.val ++ [month]).Nodup :=
        List.nodup_append.2 ⟨months.property, by simp, by
          intro a ha b hb e
          simp only [List.mem_singleton] at hb
          exact h (hb ▸ e ▸ ha)⟩
      readMonthsFrom key ⟨months.val ++ [month], distinct⟩ tokens

def readMonths (key : String) (value : List Char) : Except Failure MonthList := do
  let tokens ← readItems key value
  readMonthsFrom key .empty tokens

def readMonthDay (key : String) (token : List Char) : Except Failure MonthDay := do
  match MonthDay.ofInt? (← readInteger key token) with
  | some day => .ok day
  | none => refuse .monthDayRange key token

def readMonthDays (key : String) (value : List Char) : Except Failure (List MonthDay) := do
  let tokens ← readItems key value
  tokens.mapM (readMonthDay key)

/-- A weekday code after an optional ordinal. One line break may follow. -/
def readDayEntry (key : String) (token : List Char) : Except Failure DayEntry :=
  let body := dropFinalBreak token
  let (negative, unsigned) :=
    match body with
    | '-' :: rest => (true, rest)
    | _ => (false, body)
  -- The ordinal ends where the code begins
  let (digits, code) := unsigned.span Char.isDigit
  if !(digits.isEmpty || isCounting digits) || code.isEmpty || !code.all Char.isAlpha then
    refuse .malformedByDay key token
  else
    match Weekday.ofCode? code with
    | none => refuse .unknownWeekday key token
    | some weekday =>
      -- The code is known by now, so only the ordinal can still be wrong
      if digits.isEmpty then
        if negative then refuse .signWithoutOrdinal key token else .ok ⟨0, weekday⟩
      else do
        let n ← readDigits digits
        return ⟨if negative then -(n : Int) else n, weekday⟩

def readDayEntries (key : String) (value : List Char) : Except Failure (List DayEntry) := do
  let tokens ← readItems key value
  tokens.mapM (readDayEntry key)

def readDateTokens (zone : Zone) (key : String) (value : List Char) :
    Except Failure (List DateToken) := do
  let tokens ← readItems key value
  tokens.mapM (DateToken.read zone (some key))

/-! ## Segments -/

/-- The parts that the segments so far have given. -/
structure Draft where
  freq : Option Frequency := none
  interval : Option Positive := none
  count : Option Positive := none
  ending : Option DateToken := none
  byMonth : MonthList := .empty
  byMonthDay : List MonthDay := []
  byDay : List DayEntry := []
  exdates : List DateToken := []
  keyOrder : List Key := []

/-- A draft with the value of one more key. -/
def readValue (zone : Zone) (draft : Draft) (key : Key) (value : List Char) :
    Except Failure Draft :=
  match key with
  | .freq => (fun v => { draft with freq := some v }) <$> readFrequency key.name value
  | .interval => (fun v => { draft with interval := some v }) <$> readPositive key.name value
  | .count => (fun v => { draft with count := some v }) <$> readPositive key.name value
  | .ending =>
    (fun v => { draft with ending := some v }) <$> DateToken.read zone (some key.name) value
  | .byMonth => (fun v => { draft with byMonth := v }) <$> readMonths key.name value
  | .byMonthDay => (fun v => { draft with byMonthDay := v }) <$> readMonthDays key.name value
  | .byDay => (fun v => { draft with byDay := v }) <$> readDayEntries key.name value
  | .exdate => (fun v => { draft with exdates := v }) <$> readDateTokens zone key.name value

/-- A draft with one more segment. -/
def readSegment (zone : Zone) (draft : Draft) (segment : List Char) : Except Failure Draft :=
  let (name, rest) := segment.span (· != '=')
  -- A segment without a name is refused like one without an equals sign
  match name, rest with
  | [], _ | _, [] =>
    .error (.rule ⟨.noKeyValue, none, some (String.ofList segment)⟩)
  | name, _ :: value =>
    match Key.ofName? name with
    | none => refuse .unknownKey (String.ofList name) value
    | some key =>
      -- The key is settled before its value is looked at
      if key ∈ draft.keyOrder then refuse .duplicateKey key.name value
      else if value.isEmpty then .error (.rule ⟨.missingValue, some key.name, none⟩)
      else
        (fun draft => { draft with keyOrder := draft.keyOrder ++ [key] }) <$>
          readValue zone draft key value

/-- The parts of a finished draft. -/
def finish (text : List Char) (draft : Draft) : Except Failure Fields :=
  match draft.freq with
  | none => .error (.rule ⟨.noFrequency, some Key.freq.name, none⟩)
  | some freq =>
    if h : draft.byMonthDay = [] ∨ draft.byDay = [] then
      .ok ⟨freq, draft.interval, draft.count, draft.ending, draft.byMonth, draft.byMonthDay,
        draft.byDay, draft.exdates, draft.keyOrder, h⟩
    else refuse .dayFilters Key.byMonthDay.name text

/-- The parts that a text spells, as characters. -/
def read (zone : Zone) (text : List Char) : Except Failure Fields :=
  if !Text.hasContent text then .error (.rule ⟨.emptyText, none, none⟩)
  else do
    let draft ← (Text.split ';' text).foldlM (readSegment zone) {}
    finish text draft

end RuleText

/-- The parts that a rule text spells. Tokens without the mark of UTC belong to the zone. -/
def Fields.read (zone : Zone) (text : String) : Except Failure Fields :=
  RuleText.read zone text.toList

end Recurrence
