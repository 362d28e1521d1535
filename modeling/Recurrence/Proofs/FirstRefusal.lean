import Recurrence.Proofs.Refusals

/-!
# The first segment that is refused

The first segment that is refused decides the failure of a text. The segments before it have keys of
their own and values that are read, and what stands behind it is not looked at, so a text that goes
on after a semicolon fails as before.

* `RuleText.FirstRejected`: the failure of the first segment that is refused.
* `Fields.read_append_of_loop_error`: texts that go on.
-/

namespace Recurrence

/-- A text that goes on after a separator has the pieces of both parts. -/
theorem Text.split_append (separator : Char) (text rest : List Char) :
    split separator (text ++ separator :: rest) = split separator text ++ split separator rest := by
  induction text with
  | nil => simp [split]
  | cons c text ih =>
    rw [List.cons_append, split, split, ih]
    by_cases same : c = separator
    · rw [if_pos same, if_pos same, List.cons_append]
    · rw [if_neg same, if_neg same]
      obtain ⟨piece, pieces, cut⟩ := List.exists_cons_of_ne_nil (split_ne_nil separator text)
      rw [cut]
      rfl

namespace RuleText

variable {zone : Zone} {text : List Char} {failure : Failure}

/-- The failure of the first segment of a text that is refused. Those before it have different keys
and values that are read. A fault names no key but what stands before the first equals sign of the
segment, and quotes nothing but a part of it. -/
def FirstRejected (zone : Zone) (text : List Char) (failure : Failure) : Prop :=
  ∃ (entries : List (Key × List Char)) (refused : List Char) (after : List (List Char)),
    Text.split ';' text = entries.map segment ++ refused :: after ∧
      (entries.map Prod.fst).Nodup ∧
      (∀ entry ∈ entries, ∃ v, readPart zone entry.1 entry.2 = .ok v) ∧
      Rejects zone (entries.map Prod.fst) refused failure ∧
      ∀ fault, failure = .rule fault →
        (∀ key ∈ fault.key, key.toList = refused.takeWhile (· != '=')) ∧
          ∀ token ∈ fault.token, token.toList <:+: refused

/-- A fault names the key of the segment that it blames. -/
theorem key_of_blames {fault : RuleFault} (h : (Failure.rule fault).Blames (keyOf text) text)
    {key : String} (named : key ∈ fault.key) : key.toList = text.takeWhile (· != '=') := by
  have refused := h.refused
  generalize hkey : keyOf text = found at refused
  cases refused with
  | fault =>
    rw [Option.mem_def, ← hkey, keyOf] at named
    split at named
    · injection named with named
      rw [← named, String.toList_ofList]
    · injection named

/-- A text that fails while its segments are read fails for the first that is refused. -/
theorem firstRejected_of_foldlM
    (h : (Text.split ';' text).foldlM (readSegment zone) {} = .error failure) :
    FirstRejected zone text failure := by
  obtain ⟨before, refused, after, draft, pieces, read, h⟩ := Except.exists_of_foldlM_error h
  obtain ⟨entries, rfl, gathers⟩ := foldlM_readSegment_eq_ok.1 read
  -- What stands before the refused segment has been gathered, which gives its keys
  have rejected := rejects_of_readSegment h
  have blames := rejected.blames
  have keys : draft.keyOrder = entries.map Prod.fst := gathers.keys
  rw [keys] at rejected
  refine ⟨entries, refused, after, pieces, gathers.distinct, ?_, rejected, ?_⟩
  · intro entry mem
    exact ⟨_, gathers.read entry mem⟩
  · intro fault rule
    subst rule
    exact ⟨fun key named => key_of_blames blames named, blames.quoted fault rfl⟩

end RuleText

namespace Fields

open RuleText (readSegment)

variable {zone : Zone} {text : String} {failure : Failure}

/-- A text with content fails if its segments do. -/
theorem read_of_loop_error (content : Text.hasContent text.toList = true)
    (h : (Text.split ';' text.toList).foldlM (readSegment zone) {} = .error failure) :
    Fields.read zone text = .error failure := by
  unfold Fields.read RuleText.read
  rw [content, h]
  rfl

/-- If a text fails while its segments are read, it fails for the first that is refused, and fails
alike whatever follows after a semicolon. -/
theorem read_append_of_loop_error (content : Text.hasContent text.toList = true)
    (h : (Text.split ';' text.toList).foldlM (readSegment zone) {} = .error failure) :
    Fields.read zone text = .error failure ∧
      (∀ rest, Fields.read zone (text ++ ";" ++ rest) = .error failure) ∧
      RuleText.FirstRejected zone text.toList failure := by
  refine ⟨read_of_loop_error content h, ?_, RuleText.firstRejected_of_foldlM h⟩
  intro rest
  have longer : (text ++ ";" ++ rest).toList = text.toList ++ ';' :: rest.toList := by
    simp
  apply read_of_loop_error
  · rw [longer, Text.hasContent, List.any_append, Bool.or_eq_true]
    exact .inl content
  · -- The segments of the text come first, and they fail
    rw [longer, Text.split_append, List.foldlM_append, h]
    rfl

/-- The thirteenth month is refused before the month zero, and before a count of zero. -/
theorem thirteenthMonth_refused :
    Fields.read (.region .utc) ("FREQ=DAILY;BYMONTH=1,13,0" ++ ";" ++ "COUNT=0") =
        .error (.rule ⟨.monthRange, some "BYMONTH", some "13"⟩) ∧
      RuleText.FirstRejected (.region .utc) "FREQ=DAILY;BYMONTH=1,13,0".toList
        (.rule ⟨.monthRange, some "BYMONTH", some "13"⟩) := by
  have content : Text.hasContent "FREQ=DAILY;BYMONTH=1,13,0".toList = true := by decide +kernel
  have fails : (fun _ => ()) <$> (Text.split ';' "FREQ=DAILY;BYMONTH=1,13,0".toList).foldlM
      (readSegment (.region .utc)) {} =
        .error (.rule ⟨.monthRange, some "BYMONTH", some "13"⟩) := by
    decide +kernel
  obtain ⟨-, longer, first⟩ := read_append_of_loop_error content (Except.map_eq_error.1 fails)
  exact ⟨longer "COUNT=0", first⟩

end Fields

end Recurrence
