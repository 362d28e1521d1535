import Recurrence.Document.Check

/-!
# Settings

How far searches look ahead, and how many occurrences a preview shows.

* `Preview.clamp`: the size of a preview, never more than the largest.
-/

namespace Recurrence

/-- The bounds on previews. -/
structure Preview where
  /-- The size of a preview that asks for none. -/
  defaultCount : Positive := ⟨10, by decide⟩
  maxCount : Positive := ⟨366, by decide⟩
deriving DecidableEq

namespace Preview

/-- The bounds where none are given. -/
def standard : Preview := {}

/-- The size of a preview. A negative request stands for an empty one. -/
def clamp (preview : Preview) (requested : Option Int) : Nat :=
  match requested with
  | none => min preview.defaultCount.val preview.maxCount.val
  | some n => (min n preview.maxCount.val).toNat

/-- No request gets more occurrences than the settings allow. -/
theorem clamp_le (preview : Preview) (requested : Option Int) :
    preview.clamp requested ≤ preview.maxCount.val := by
  unfold clamp
  split <;> omega

/-- The bounds that a document gives. -/
def check (document : Document) : Checked Preview := do
  let entries ← document.checkObject
  let (defaultCount, maxCount) ←
    Checked.both (Document.optional entries "default_count" standard.defaultCount
      Document.checkPositive)
      (Document.optional entries "max_count" standard.maxCount Document.checkPositive)
  return ⟨defaultCount, maxCount⟩

end Preview

structure Settings where
  /-- A search ends this many years after its last result. -/
  lookahead : Positive := ⟨100, by decide⟩
  preview : Preview := .standard
deriving DecidableEq

namespace Settings

/-- The settings where none are given. -/
def standard : Settings := {}

/-- The lookahead that a document gives. -/
def checkLookahead (document : Document) : Checked Positive := do
  let entries ← document.checkObject
  Document.optional entries "lookahead_years" standard.lookahead Document.checkPositive

/-- The settings that a document gives. One that is not given at all stands for the defaults. -/
def check (document : Document) : Checked Settings := do
  if !document.isGiven then return standard
  let entries ← document.checkObject
  let (lookahead, preview) ←
    Checked.both (Document.optional entries "recurrence" standard.lookahead checkLookahead)
      (Document.optional entries "preview" standard.preview Preview.check)
  return ⟨lookahead, preview⟩

end Settings

end Recurrence
