/-!
# Splitting texts

Cutting a text at every occurrence of a separator, and putting the pieces back together.

* `Text.join_split`: joining the pieces gives the text back.
* `Text.split_join`: pieces without the separator are what splitting their join gives.
-/

namespace Recurrence.Text

/-- The pieces of a text between the separators. There is always at least one. -/
def split (separator : Char) : List Char → List (List Char)
  | [] => [[]]
  | c :: rest =>
    if c = separator then [] :: split separator rest
    else
      match split separator rest with
      | [] => [[c]]
      | piece :: pieces => (c :: piece) :: pieces

/-- The pieces with a separator between each two. -/
def join (separator : Char) : List (List Char) → List Char
  | [] => []
  | [piece] => piece
  | piece :: next :: pieces => piece ++ separator :: join separator (next :: pieces)

/-- Even the empty text has one piece. -/
theorem split_ne_nil (separator : Char) (text : List Char) : split separator text ≠ [] := by
  cases text with
  | nil => simp [split]
  | cons c rest =>
    rw [split]
    split
    · simp
    · split <;> simp

/-- The pieces of a text, joined again, are the text. -/
theorem join_split (separator : Char) (text : List Char) :
    join separator (split separator text) = text := by
  induction text with
  | nil => rfl
  | cons c rest ih =>
    have ne := split_ne_nil separator rest
    rw [split]
    split
    · -- A separator begins an empty piece, any other character goes to the piece that follows
      rename_i h
      match hs : split separator rest with
      | [] => exact absurd hs ne
      | piece :: pieces => rw [hs] at ih; simp [join, ih, h]
    · match hs : split separator rest with
      | [] => exact absurd hs ne
      | [piece] => rw [hs] at ih; simpa [join] using ih
      | piece :: next :: pieces => rw [hs] at ih; simpa [join] using ih

private theorem split_append_cons {separator : Char} {piece : List Char}
    (h : separator ∉ piece) (rest : List Char) :
    split separator (piece ++ separator :: rest) = piece :: split separator rest := by
  induction piece with
  | nil => simp [split]
  | cons c piece ih =>
    simp only [List.mem_cons, not_or] at h
    have ne : c ≠ separator := fun e => h.1 e.symm
    simp [split, ne, ih h.2]

private theorem split_of_not_mem {separator : Char} {piece : List Char} (h : separator ∉ piece) :
    split separator piece = [piece] := by
  induction piece with
  | nil => rfl
  | cons c piece ih =>
    simp only [List.mem_cons, not_or] at h
    have ne : c ≠ separator := fun e => h.1 e.symm
    simp [split, ne, ih h.2]

/-- Pieces without separators can be joined and split again. -/
theorem split_join {separator : Char} {pieces : List (List Char)} (ne : pieces ≠ [])
    (h : ∀ piece ∈ pieces, separator ∉ piece) :
    split separator (join separator pieces) = pieces := by
  induction pieces with
  | nil => exact absurd rfl ne
  | cons piece pieces ih =>
    cases pieces with
    | nil => exact split_of_not_mem (h piece (by simp))
    | cons next pieces =>
      rw [join, split_append_cons (h piece (by simp)),
        ih (by simp) fun p hp => h p (List.mem_cons_of_mem _ hp)]

end Recurrence.Text
