import Recurrence.Proofs.Cursor
import Recurrence.Proofs.Unanswered

/-!
# Envelopes

The service answers a request with an envelope: what was asked for, or what is wrong with the
request. A rule is taken apart without any failure. The questions for occurrences let four kinds of
failures through: moments and searches that leave the calendar, values that are no moments at all,
infinite counts, and failures of the reader of spoken moments that are no bad values.

* `Service.guarded`: what a route makes of a failure.
* `Service.Escapes`: the requests whose failures get past the service.
* `Service.answer_object`: these, and no others, are not answered with an envelope.
-/

namespace Recurrence

/-- Whether an answer is an envelope: what was asked for, or a message. -/
def Answer.isEnvelope : Answer → Bool
  | rejected _ | parsed _ _ | next _ | occurrences _ _ => true
  | status _ | healthy => false

namespace Service

variable {α : Type} {failure : Failure}

/-! ## What a route makes of failures -/

/-- A route answers a failure that it catches with its message, and lets any other through. -/
def guarded (caught : Failure → Bool) (x : Except Failure α)
    (answer : α → Except Failure Answer) : Except Failure Answer :=
  match x with
  | .error failure => if caught failure then .ok (.rejected failure.message) else .error failure
  | .ok a => answer a

/-- If what is found can be answered, then all is answered but the failures that are not caught. -/
theorem guarded_spec (caught : Failure → Bool) {x : Except Failure α}
    {answer : α → Except Failure Answer}
    (answers : ∀ a, x = .ok a → ∃ r, answer a = .ok r ∧ r.isEnvelope = true) :
    (∀ r, guarded caught x answer = .ok r → r.isEnvelope = true) ∧ ∀ failure,
      guarded caught x answer = .error failure ↔ x = .error failure ∧ caught failure = false := by
  unfold guarded
  cases x with
  | ok a =>
    obtain ⟨r, hr, envelope⟩ := answers a rfl
    simp only [hr]
    constructor
    · rintro _ h
      injection h with h
      exact h ▸ envelope
    · simp
  | error fault =>
    -- A caught failure becomes an envelope, any other one passes through
    cases rejected : caught fault with
    | true =>
      simp only [rejected, if_true]
      constructor
      · rintro _ h
        injection h with h
        exact h ▸ rfl
      · rintro failure
        refine iff_of_false nofun ?_
        rintro ⟨same, unanswered⟩
        injection same with same
        rw [← same, rejected] at unanswered
        injection unanswered
    | false =>
      simp only [rejected, Bool.false_eq_true, if_false]
      constructor
      · rintro _ h
        injection h
      · rintro failure
        simp only [Except.error.injEq, iff_self_and]
        exact fun same => same ▸ rejected

/-! ## Parts -/

/-- The parts of a rule that has been read can be shown. -/
theorem exists_showParts {schedule : Schedule} {text : String}
    (read : Fields.read schedule.zone text = .ok schedule.fields) :
    ∃ parts, showParts schedule = .ok parts := by
  -- Every token was read, so it can be shown
  have token {token : DateToken}
      (mem : token ∈ schedule.fields.ending.toList ++ schedule.fields.exdates) :
      ∃ shown, showToken schedule.zone token = .ok shown := by
    rw [showToken, DateToken.write_eq, Fields.render_of_mem read token mem]
    exact ⟨_, rfl⟩
  have part {key : Key} {value : PartValue} (h : schedule.fields.value? key = some value) :
      ∃ shown, showValue schedule.zone value = .ok shown := by
    -- Only the end and the exclusions have tokens
    cases key with
    | ending =>
      obtain ⟨ending, mem, rfl⟩ := Option.map_eq_some_iff.1 h
      obtain ⟨shown, hshown⟩ := token (List.mem_append_left _ (Option.mem_toList.2 mem))
      exact ⟨_, Except.map_eq_ok.2 ⟨shown, hshown, rfl⟩⟩
    | exdate =>
      obtain ⟨-, ⟨⟩⟩ := Option.ite_none_right_eq_some.1 h
      obtain ⟨shown, hshown⟩ := Except.exists_mapM_eq_ok fun exdate mem =>
        token (List.mem_append_right schedule.fields.ending.toList mem)
      exact ⟨_, Except.map_eq_ok.2 ⟨shown, hshown, rfl⟩⟩
    | freq =>
      injection h with h
      exact h ▸ ⟨_, rfl⟩
    | interval | count =>
      obtain ⟨n, -, rfl⟩ := Option.map_eq_some_iff.1 h
      exact ⟨_, rfl⟩
    | byMonth | byMonthDay | byDay =>
      obtain ⟨-, ⟨⟩⟩ := Option.ite_none_right_eq_some.1 h
      exact ⟨_, rfl⟩
  refine Except.exists_mapM_eq_ok fun entry mem => ?_
  obtain ⟨key, -, h⟩ := List.mem_filterMap.1 mem
  obtain ⟨value, hvalue, rfl⟩ := Option.map_eq_some_iff.1 h
  obtain ⟨shown, hshown⟩ := part hvalue
  exact ⟨_, Except.map_eq_ok.2 ⟨shown, hshown, rfl⟩⟩

/-! ## Schedules -/

section

variable [ZoneDatabase] [SpokenReader] {service : Service} {settings : Settings}
  {entries : Entries} {zone : Zone}
  {text : String} {fields : Fields}

/-- Making a schedule with an anchor fails only by the value that is given for the anchor, or by
the tokens of the rule. -/
theorem throws_schedule {given : When} (years : Positive) :
    Throws (Schedule.make (.text text) (some given) (.given zone) (some years.val)) failure ↔
      ∃ fields, Fields.read zone text = .ok fields ∧ (MomentEscapes zone given failure ∨
        (∃ anchor, given.resolve zone = .ok anchor) ∧ fields.IsOutside zone ∧
          failure = .calendar .overflow) := by
  have lookahead : Schedule.lookaheadOr (some (years.val : Int)) = years.val := by
    have := years.property
    rw [Schedule.lookaheadOr, if_neg (by omega)]
  unfold Schedule.make
  simp only [lookahead, ZoneChoice.resolve, Source.fieldsIn, throws_ok_bind]
  rw [throws_bind, or_iff_right not_throws_read]
  refine exists_congr fun fields => and_congr_right fun read => ?_
  -- The anchor escapes, or it is resolved and a token is outside the calendar
  rw [throws_bind, throws_when]
  refine or_congr_right ?_
  constructor
  · rintro ⟨anchor, hanchor, h⟩
    rcases throws_bind.1 h with h | ⟨_, -, h⟩
    · exact ⟨⟨anchor, hanchor⟩, (throws_make read (When.zone_resolve hanchor) years).1 h⟩
    · exact (not_throws_ok h).elim
  · rintro ⟨⟨anchor, hanchor⟩, h⟩
    have h := (throws_make read (When.zone_resolve hanchor) years).2 h
    exact ⟨anchor, hanchor, throws_bind.2 (.inl h)⟩

/-- The zone and the rule of a request for occurrences. -/
structure Names (service : Service) (entries : Entries) (zone : Zone) (fields : Fields) :
    Prop where
  start : (field entries "start").isGiven = true
  known : (ZoneChoice.named (service.zoneNameOf entries)).resolve = .ok zone
  rule : ∃ text, contentOf entries "rule" = some text ∧ Fields.read zone text = .ok fields

/-- The schedule of a request throws if it names a rule whose anchor escapes, or one of whose tokens
is outside the calendar. -/
theorem throws_scheduleOf (configured : service.settings = .ok settings) :
    Throws (service.scheduleOf entries true) failure ↔
      ∃ zone fields, service.Names entries zone fields ∧
        (MomentEscapes zone (startOf entries) failure ∨
          (∃ anchor, (startOf entries).resolve zone = .ok anchor) ∧ fields.IsOutside zone ∧
            failure = .calendar .overflow) := by
  unfold scheduleOf
  cases content : contentOf entries "rule" with
  | none =>
    refine iff_of_false (not_throws_of_answered rfl) ?_
    rintro ⟨_, _, names, -⟩
    obtain ⟨_, given, -⟩ := names.rule
    rw [content] at given
    injection given
  | some text =>
    -- A request without a rule or a start is answered
    cases given : (field entries "start").isGiven with
    | false =>
      simp only [given, Bool.not_false, Bool.and_true, if_true]
      refine iff_of_false (not_throws_of_answered rfl) ?_
      rintro ⟨_, _, names, -⟩
      rw [names.start] at given
      injection given
    | true =>
      simp only [given, configured, Bool.not_true, Bool.and_false, Bool.false_eq_true, if_false,
        if_true, throws_ok_bind]
      rw [throws_bind, or_iff_right not_throws_resolve]
      refine exists_congr fun zone => ?_
      rw [throws_schedule]
      constructor
      · rintro ⟨known, fields, read, h⟩
        exact ⟨fields, ⟨given, known, text, content, read⟩, h⟩
      · rintro ⟨fields, names, h⟩
        obtain ⟨_, content', read⟩ := names.rule
        rw [content] at content'
        injection content' with same
        exact ⟨names.known, fields, same ▸ read, h⟩

/-- Without an anchor the rule, the zone and the settings are all there is, and nothing goes
unanswered. -/
theorem not_throws_scheduleOf (configured : service.settings = .ok settings) :
    ¬Throws (service.scheduleOf entries false) failure := by
  unfold scheduleOf
  split
  · exact not_throws_of_answered rfl
  · simp only [configured, Bool.false_and, Bool.false_eq_true, if_false, throws_ok_bind]
    rw [throws_bind, or_iff_right not_throws_resolve]
    rintro ⟨zone, -, h⟩
    rcases throws_bind.1 (throws_ok_bind.1 h) with h | ⟨fields, -, h⟩
    · exact not_throws_read h
    · exact not_throws_ok h

/-! ## Requests -/

/-- The failures of a request for so many occurrences that are not answered. -/
inductive SearchEscapes (service : Service) (entries : Entries) (n : Nat) : Failure → Prop
  /-- The start stands for no moment. -/
  | start {zone : Zone} {fields : Fields} {failure : Failure}
      (names : service.Names entries zone fields)
      (h : MomentEscapes zone (startOf entries) failure) :
      SearchEscapes service entries n failure
  /-- A date token of the rule leaves the calendar. -/
  | token {zone : Zone} {fields : Fields} {anchor : Moment}
      (names : service.Names entries zone fields)
      (begins : (startOf entries).resolve zone = .ok anchor) (h : fields.IsOutside zone) :
      SearchEscapes service entries n (.calendar .overflow)
  /-- The moment after which occurrences are asked for is none. -/
  | after {schedule : Schedule} {given : When} {failure : Failure}
      (made : service.scheduleOf entries true = .ok schedule)
      (h : afterOf entries = some given) (escapes : MomentEscapes schedule.zone given failure) :
      SearchEscapes service entries n failure
  /-- The search leaves the calendar. -/
  | search {schedule : Schedule} {series : Series} {bound : Option Moment}
      (made : service.scheduleOf entries true = .ok schedule)
      (hs : schedule.series = some series)
      (beyond : (afterOf entries).mapM (fun given => given.resolve schedule.zone) = .ok bound)
      (h : series.occurrences bound (reach bound n) = .error (.calendar .overflow)) :
      SearchEscapes service entries n (.calendar .overflow)

/-- A search escapes as no moment, out of the calendar, or by a failure of the reader. -/
theorem SearchEscapes.kinds {n : Nat} (h : service.SearchEscapes entries n failure) :
    failure = .notMoment ∨ failure = .calendar .overflow ∨ ∃ fault, failure = .spoken fault := by
  cases h with
  | start names h => exact h.kinds
  | token names begins h => exact .inr (.inl rfl)
  | after made h escapes => exact escapes.kinds
  | search made hs beyond h => exact .inr (.inl rfl)

/-- The failures of requests that are not answered. -/
inductive Escapes (service : Service) (settings : Settings) (entries : Entries) :
    Route → Failure → Prop
  /-- An infinite count has no integer part. -/
  | count {negative : Bool} (h : field entries "count" = .real (.infinite negative)) :
      Escapes service settings entries .occurrences .infiniteNumber
  | next {failure : Failure} (h : service.SearchEscapes entries 1 failure) :
      Escapes service settings entries .next failure
  /-- A preview also answers what comes from a value of the wrong kind. -/
  | occurrences {requested : Option Int} {failure : Failure}
      (counted : requestedCount entries = .ok requested)
      (h : service.SearchEscapes entries (settings.preview.clamp requested) failure)
      (other : isWrongKind failure = false) : Escapes service settings entries .occurrences failure

/-- A request for occurrences fails with its schedule or with the search that it comes to, whatever
is made of what is found. -/
theorem throws_scheduleOf_bind (configured : service.settings = .ok settings)
    {search : Schedule → Except Failure α} {n : Nat}
    (comes_to : ∀ schedule series, schedule.series = some series → series.zone = schedule.zone →
      (Throws (search schedule) failure ↔
        Throws (searchAfter schedule series (afterOf entries) n) failure)) :
    Throws (service.scheduleOf entries true >>= search) failure ↔
      service.SearchEscapes entries n failure := by
  -- A schedule that was made has a series in its zone
  have searches {schedule : Schedule} (made : service.scheduleOf entries true = .ok schedule) :
      ∃ series, schedule.series = some series ∧ (Throws (search schedule) failure ↔
        Throws (searchAfter schedule series (afterOf entries) n) failure) := by
    obtain ⟨region, series, -, zone, hs, zone'⟩ := scheduleOf_eq_ok made
    exact ⟨series, hs, comes_to schedule series hs (zone'.trans zone.symm)⟩
  rw [throws_bind, throws_scheduleOf configured]
  constructor
  · rintro (⟨zone, fields, names, h | ⟨⟨anchor, begins⟩, out, rfl⟩⟩ | ⟨schedule, made, h⟩)
    · exact .start names h
    · exact .token names begins out
    · obtain ⟨series, hs, same⟩ := searches made
      rcases throws_searchAfter.1 (same.1 h) with
        ⟨given, hgiven, escapes⟩ | ⟨bound, beyond, leaves, rfl⟩
      · exact .after made hgiven escapes
      · exact .search made hs beyond leaves
  · intro h
    cases h with
    | start names h => exact .inl ⟨_, _, names, .inl h⟩
    | token names begins out => exact .inl ⟨_, _, names, .inr ⟨⟨_, begins⟩, out, rfl⟩⟩
    | after made hgiven escapes =>
      obtain ⟨series, -, same⟩ := searches made
      exact .inr ⟨_, made, same.2 (throws_searchAfter.2 (.inl ⟨_, hgiven, escapes⟩))⟩
    | search made hs beyond h =>
      obtain ⟨series, hs', same⟩ := searches made
      rw [hs] at hs'
      injection hs' with hs'
      subst hs'
      exact .inr ⟨_, made, same.2 (throws_searchAfter.2 (.inr ⟨_, beyond, h, rfl⟩))⟩

/-- The next occurrence is thrown as a search for one escapes. -/
theorem throws_findNext (configured : service.settings = .ok settings) :
    Throws (service.findNext entries) failure ↔ service.SearchEscapes entries 1 failure := by
  refine throws_scheduleOf_bind configured fun schedule series hs zones => ?_
  cases afterOf entries with
  | none => exact throws_first hs
  | some after => exact throws_next hs zones after

/-- A preview throws with its count, or as a search for that many escapes. -/
theorem throws_previewOf (configured : service.settings = .ok settings) :
    Throws (service.previewOf entries settings) failure ↔
      Throws (requestedCount entries) failure ∨ ∃ requested,
        requestedCount entries = .ok requested ∧
          service.SearchEscapes entries (settings.preview.clamp requested) failure := by
  unfold previewOf
  rw [throws_bind]
  refine or_congr_right (exists_congr fun requested => and_congr_right fun _ => ?_)
  refine throws_scheduleOf_bind configured fun schedule series hs zones => ?_
  cases afterOf entries with
  | none =>
    rw [← throws_firstOccurrences hs zones]
    exact throws_bind.trans (or_iff_left fun ⟨_, _, h⟩ => not_throws_ok h)
  | some after =>
    rw [← throws_nextOccurrences hs zones]
    exact throws_bind.trans (or_iff_left fun ⟨_, _, h⟩ => not_throws_ok h)

/-! ## Answers -/

/-- The rule of a schedule that a request gives has been read in its zone. -/
theorem exists_read_of_scheduleOf {withAnchor : Bool} {schedule : Schedule}
    (h : service.scheduleOf entries withAnchor = .ok schedule) :
    ∃ text, Fields.read schedule.zone text = .ok schedule.fields := by
  unfold scheduleOf at h
  split at h
  · injection h
  · rename_i text _
    refine ⟨text, ?_⟩
    by_cases missing : (withAnchor && !(field entries "start").isGiven) = true
    · rw [if_pos missing] at h
      injection h
    · rw [if_neg missing] at h
      obtain ⟨settings, -, h⟩ := Except.bind_eq_ok.1 h
      obtain ⟨zone, -, h⟩ := Except.bind_eq_ok.1 h
      -- With an anchor or without, the rule is read in the zone of the schedule
      cases withAnchor with
      | false =>
        obtain ⟨zone, -, h⟩ := Except.bind_eq_ok.1 h
        obtain ⟨fields, read, h⟩ := Except.bind_eq_ok.1 h
        injection h with h
        rw [← h]
        exact read
      | true =>
        obtain ⟨_, _, -, read, -⟩ := Schedule.make_eq_ok h
        exact read

/-- A request to parse a rule is guarded, and so are the others. -/
theorem parseRule_eq (service : Service) (entries : Entries) : service.parseRule entries =
    guarded isRejection (service.scheduleOf entries false) fun schedule => do
      let parts ← showParts schedule
      let text ← schedule.toText
      return .parsed parts text := by
  unfold parseRule guarded
  cases service.scheduleOf entries false <;> rfl

theorem nextOccurrence_eq (service : Service) (entries : Entries) :
    service.nextOccurrence entries =
      guarded isRejection (service.findNext entries) fun found => .ok (.next found) := by
  unfold nextOccurrence guarded
  cases service.findNext entries <;> rfl

theorem listOccurrences_eq (configured : service.settings = .ok settings) :
    service.listOccurrences entries =
      guarded (fun failure => isRejection failure || isWrongKind failure)
        (service.previewOf entries settings) fun (schedule, found) => do
          let text ← schedule.toText
          return .occurrences text found := by
  unfold listOccurrences guarded
  rw [configured]
  simp only [bind, Except.bind]
  cases service.previewOf entries settings <;> rfl

/-- A rule is taken apart, or it is rejected. -/
theorem parseRule_spec (configured : service.settings = .ok settings) :
    (∀ answer, service.parseRule entries = .ok answer → answer.isEnvelope = true) ∧
      ∀ failure, service.parseRule entries ≠ .error failure := by
  rw [parseRule_eq]
  have answers (schedule : Schedule) (made : service.scheduleOf entries false = .ok schedule) :
      ∃ answer, (do
        let parts ← showParts schedule
        let text ← schedule.toText
        return Answer.parsed parts text) = .ok answer ∧ answer.isEnvelope = true := by
    obtain ⟨text, read⟩ := exists_read_of_scheduleOf made
    obtain ⟨parts, hparts⟩ := exists_showParts read
    exact ⟨.parsed parts _, Except.bind_eq_ok.2 ⟨parts, hparts,
      Except.bind_eq_ok.2 ⟨_, Fields.write_of_read read, rfl⟩⟩, rfl⟩
  obtain ⟨envelope, fails⟩ := guarded_spec isRejection answers
  exact ⟨envelope, fun failure h => not_throws_scheduleOf configured ((fails failure).1 h)⟩

/-- The answer to a question for the next occurrence, and what escapes it. -/
theorem nextOccurrence_spec (configured : service.settings = .ok settings) :
    (∀ answer, service.nextOccurrence entries = .ok answer → answer.isEnvelope = true) ∧
      ∀ failure, service.nextOccurrence entries = .error failure ↔
        service.SearchEscapes entries 1 failure := by
  rw [nextOccurrence_eq]
  obtain ⟨envelope, fails⟩ := guarded_spec isRejection (x := service.findNext entries)
    fun found _ => ⟨.next found, rfl, rfl⟩
  exact ⟨envelope, fun failure => (fails failure).trans (throws_findNext configured)⟩

/-- The answer to a request for a preview, and what escapes it. -/
theorem listOccurrences_spec (configured : service.settings = .ok settings) :
    (∀ answer, service.listOccurrences entries = .ok answer → answer.isEnvelope = true) ∧
      ∀ failure, service.listOccurrences entries = .error failure ↔
        ((∃ negative, field entries "count" = .real (.infinite negative)) ∧
          failure = .infiniteNumber) ∨ ∃ requested,
            requestedCount entries = .ok requested ∧
              service.SearchEscapes entries (settings.preview.clamp requested) failure ∧
                isWrongKind failure = false := by
  rw [listOccurrences_eq configured]
  -- A rule that was read can be written, so a preview that is found is answered
  have answers (preview : Schedule × List Moment)
      (h : service.previewOf entries settings = .ok preview) : ∃ answer, (do
        let text ← preview.1.toText
        return Answer.occurrences text preview.2) = .ok answer ∧ answer.isEnvelope = true := by
    obtain ⟨_, -, h⟩ := Except.bind_eq_ok.1 h
    obtain ⟨schedule, made, h⟩ := Except.bind_eq_ok.1 h
    obtain ⟨text, read⟩ := exists_read_of_scheduleOf made
    have own : preview.1 = schedule := by
      split at h <;>
        · obtain ⟨found, -, h⟩ := Except.bind_eq_ok.1 h
          injection h with h
          rw [← h]
    rw [own]
    exact ⟨.occurrences _ preview.2,
      Except.bind_eq_ok.2 ⟨_, Fields.write_of_read read, rfl⟩, rfl⟩
  obtain ⟨envelope, fails⟩ :=
    guarded_spec (fun failure => isRejection failure || isWrongKind failure) answers
  refine ⟨envelope, fun failure => (fails failure).trans ?_⟩
  rw [Bool.or_eq_false_iff, ← and_assoc]
  show Throws _ _ ∧ _ ↔ _
  rw [throws_previewOf configured, or_and_right, throws_requestedCount]
  refine or_congr_right ?_
  constructor
  · rintro ⟨⟨requested, counted, h⟩, other⟩
    exact ⟨requested, counted, h, other⟩
  · rintro ⟨requested, counted, h, other⟩
    exact ⟨⟨requested, counted, h⟩, other⟩

/-- A request with an object is answered with an envelope, but for those whose failures escape. A
rule is always taken apart or rejected, and what escapes elsewhere are values that are no moments,
infinite counts, calculations that leave the calendar, and faults of the reader of spoken
moments. -/
theorem answer_object {path : String} {route : Route} (configured : service.settings = .ok settings)
    (hpath : Route.ofPath? path = some route) (ne : route ≠ .health) (entries : Entries) :
    (∀ answer, service.answer ⟨"POST", path, some (.object entries)⟩ = .ok answer →
        answer.isEnvelope = true) ∧
      (∀ failure, service.answer ⟨"POST", path, some (.object entries)⟩ = .error failure ↔
        service.Escapes settings entries route failure) ∧
      ∀ failure, service.Escapes settings entries route failure → route ≠ .parse ∧
        (failure = .infiniteNumber ∨ failure = .notMoment ∨ failure = .calendar .overflow ∨
          ∃ fault, failure = .spoken fault) := by
  have kinds (failure : Failure) (h : service.Escapes settings entries route failure) :
      route ≠ .parse ∧
        (failure = .infiniteNumber ∨ failure = .notMoment ∨ failure = .calendar .overflow ∨
          ∃ fault, failure = .spoken fault) := by
    cases h with
    | count h => exact ⟨nofun, .inl rfl⟩
    | next h => exact ⟨nofun, .inr h.kinds⟩
    | occurrences _ h => exact ⟨nofun, .inr h.kinds⟩
  simp only [answer, hpath]
  -- Each path has its own request behind it
  cases route with
  | health => exact absurd rfl ne
  | parse =>
    obtain ⟨envelope, total⟩ := parseRule_spec configured
    refine ⟨envelope, fun failure => ?_, kinds⟩
    exact iff_of_false (total failure) fun h => (kinds failure h).1 rfl
  | next =>
    obtain ⟨envelope, fails⟩ := nextOccurrence_spec configured
    refine ⟨envelope, fun failure => (fails failure).trans ⟨.next, ?_⟩, kinds⟩
    rintro (_ | h)
    exact h
  | occurrences =>
    obtain ⟨envelope, fails⟩ := listOccurrences_spec configured
    refine ⟨envelope, fun failure => (fails failure).trans ⟨?_, ?_⟩, kinds⟩
    · rintro (⟨⟨_, h⟩, rfl⟩ | ⟨_, counted, h, other⟩)
      · exact .count h
      · exact .occurrences counted h other
    · rintro (h | _ | ⟨counted, h, other⟩)
      · exact .inl ⟨⟨_, h⟩, rfl⟩
      · exact .inr ⟨_, counted, h, other⟩

end

/-- Every four millionth day, of which the calendar holds one. -/
def farDays : Entries :=
  [("rule", .text "FREQ=DAILY;INTERVAL=4000000"), ("start", .text "2012-01-01"),
    ("after", .text "2012-01-02")]

/-- Days from a start that is a number. -/
def numberedDays : Entries := [("rule", .text "FREQ=DAILY"), ("start", .int 5)]

/-- Infinitely many days. -/
def endlessDays : Entries :=
  [("rule", .text "FREQ=DAILY"), ("start", .text "2012-01-01"), ("count", .real (.infinite false))]

/-- Days from tomorrow on. -/
def daysFromTomorrow : Entries := [("rule", .text "FREQ=DAILY"), ("start", .text "tomorrow")]

/-- A reader whose calendar does not reach any further. -/
abbrev troubledReader : SpokenReader := ⟨fun _ _ => .error (.other "OverflowError")⟩

/-- One request for each of the failures that get past the service. -/
theorem requests_escape :
    (usual.askNext Spoken.reader farDays = .error (.calendar .overflow) ∧
        usual.Escapes .standard farDays .next (.calendar .overflow)) ∧
      (usual.askNext Spoken.reader numberedDays = .error .notMoment ∧
        usual.Escapes .standard numberedDays .next .notMoment) ∧
      (usual.askNext troubledReader daysFromTomorrow = .error (.spoken (.other "OverflowError")) ∧
        @Escapes _ troubledReader usual .standard daysFromTomorrow .next
          (.spoken (.other "OverflowError"))) ∧
      usual.askPreview Spoken.reader endlessDays = .error .infiniteNumber ∧
        usual.Escapes .standard endlessDays .occurrences .infiniteNumber := by
  have configured : usual.settings = .ok .standard := rfl
  have next : Route.ofPath? "/api/rules/next" = some .next := by decide
  have occurrences : Route.ofPath? "/api/rules/occurrences" = some .occurrences := by decide
  have far : usual.askNext Spoken.reader farDays = .error (.calendar .overflow) := by
    decide +kernel
  have numbered : usual.askNext Spoken.reader numberedDays = .error .notMoment := by
    decide +kernel
  have troubled : usual.askNext troubledReader daysFromTomorrow =
      .error (.spoken (.other "OverflowError")) := by
    decide +kernel
  have endless : usual.askPreview Spoken.reader endlessDays = .error .infiniteNumber := by
    decide +kernel
  -- Each failure is one of those that escape
  refine ⟨⟨far, ?_⟩, ⟨numbered, ?_⟩, ⟨troubled, ?_⟩, endless, ?_⟩
  · exact ((answer_object configured next nofun farDays).2.1 _).1 far
  · exact ((answer_object configured next nofun numberedDays).2.1 _).1 numbered
  · exact ((@answer_object _ troubledReader _ _ _ _ configured next nofun
      daysFromTomorrow).2.1 _).1 troubled
  · exact ((answer_object configured occurrences nofun endlessDays).2.1 _).1 endless

end Service

end Recurrence
