import Mathlib.Data.List.Chain
import Recurrence.Zone.Settled

/-!
# Shifts that keep apart

A list of shifts is tidy if each begins with the offset that the one before it leads to, and if no
reading that one repeats or skips is touched by the next. In a tidy list the offset in force at an
instant is also the one that belongs to the reading of that instant.

* `Shift.Tidy`: tidy lists.
* `Shift.Cut`, `Shift.exists_cut`: the shifts that an instant or a reading comes after.
* `Shift.Cut.reading`: the reading of an instant comes after the same shifts as the instant.
* `Shift.cut_first_pass`, `Shift.cut_second_pass`: the passes over a reading that a shift touches.
* `Shift.Cut.lt_instant`, `Shift.Cut.instant_le`: the instant of a reading lies between two shifts.
-/

namespace Recurrence

namespace Shift

/-! ## Order -/

/-- Whether all that a shift touches comes before all that another one does. -/
def IsEarlier (a b : Shift) : Prop :=
  a.instant ≤ b.instant ∧ a.wallStart false ≤ b.wallStart true

/-- In the second pass the new offset begins with no later reading than in the first. -/
theorem wallStart_true_le (s : Shift) : s.wallStart true ≤ s.wallStart false := by
  simp only [wallStart, Bool.false_eq_true, if_true, if_false]
  omega

/-- A shift is earlier than one that can follow it. -/
theorem Precedes.isEarlier {a b : Shift} (h : a.Precedes b) : a.IsEarlier b := by
  obtain ⟨link, apart⟩ := h
  refine ⟨?_, apart⟩
  simp only [wallStart, Bool.false_eq_true, if_true, if_false] at apart
  omega

instance : Trans IsEarlier IsEarlier IsEarlier where
  trans {a b c} hab hbc := by
    have := b.wallStart_true_le
    exact ⟨Int.le_trans hab.1 hbc.1, by have := hab.2; have := hbc.2; omega⟩

/-- In either pass the earlier shift begins with an earlier reading. -/
theorem IsEarlier.wallStart_le {a b : Shift} (h : a.IsEarlier b) (second : Bool) :
    a.wallStart second ≤ b.wallStart second := by
  have := h.2
  have := a.wallStart_true_le
  have := b.wallStart_true_le
  cases second <;> omega

/-- A list of shifts that keep apart and begin with an offset. -/
structure Tidy (initial : Int) (shifts : List Shift) : Prop where
  linked : shifts.IsChain Precedes
  first : ∀ s ∈ shifts.head?, s.before = initial

variable {initial : Int} {shifts past coming : List Shift} {key : Shift → Int} {x t : Int}

/-- Shifts are linked if each one can follow the one before. -/
theorem linked_iff : Linked shifts ↔ shifts.IsChain Precedes := by
  induction shifts with
  | nil => exact iff_of_true nofun .nil
  | cons a rest ih =>
    cases rest with
    | nil => exact iff_of_true nofun (.singleton a)
    | cons b rest =>
      rw [List.isChain_cons_cons, ← ih]
      exact List.forall_mem_cons

/-- Shifts that are linked and begin with an offset are tidy. -/
theorem linkedFrom_iff : LinkedFrom initial shifts ↔ Tidy initial shifts :=
  ⟨fun h => ⟨linked_iff.1 h.1, h.2⟩, fun h => ⟨linked_iff.2 h.linked, h.first⟩⟩

/-- In a tidy list every shift is earlier than all that follow. -/
theorem Tidy.pairwise (h : Tidy initial shifts) : shifts.Pairwise IsEarlier :=
  List.isChain_iff_pairwise.1 (h.linked.imp fun _ _ => Precedes.isEarlier)

/-- In a stretch of a tidy list the first shift is no later than the others. -/
theorem Tidy.head_le {s last : Shift} {rest : List Shift}
    (h : Tidy initial (past ++ (s :: rest ++ coming))) (mem : last ∈ s :: rest) :
    s.instant ≤ last.instant := by
  rcases List.mem_cons.1 mem with same | mem
  · exact Int.le_of_eq (congrArg Shift.instant same.symm)
  · have ordered := (List.pairwise_append.1 h.pairwise).2.1
    exact ((List.pairwise_cons.1 ordered).1 last (List.mem_append_left _ mem)).1

/-! ## Looking up -/

/-- The last shift whose key has come. -/
def latest (key : Shift → Int) (x : Int) (shifts : List Shift) : Option Shift :=
  (shifts.filter fun s => key s ≤ x).getLast?

/-- The offset after some shifts. -/
def offsetAfter (initial : Int) (past : List Shift) : Int :=
  (past.getLast?.map (·.after)).getD initial

/-- After some shifts the offset is that of the last one. -/
@[simp] theorem offsetAfter_concat (initial : Int) (past : List Shift) (s : Shift) :
    offsetAfter initial (past ++ [s]) = s.after := by
  rw [offsetAfter, List.getLast?_concat]
  rfl

/-- A list cut in two: the shifts whose key has come, and the others. -/
structure Cut (key : Shift → Int) (x : Int) (past coming : List Shift) : Prop where
  past : ∀ s ∈ past, key s ≤ x
  coming : ∀ s ∈ coming, x < key s

/-- The latest shift is the last one before the cut. -/
theorem Cut.latest_eq (h : Cut key x past coming) :
    latest key x (past ++ coming) = past.getLast? := by
  have all : past.filter (fun s => decide (key s ≤ x)) = past :=
    List.filter_eq_self.2 fun s hs => decide_eq_true (h.past s hs)
  have none_left : coming.filter (fun s => decide (key s ≤ x)) = [] := by
    refine List.filter_eq_nil_iff.2 fun s hs => ?_
    have := h.coming s hs
    simpa using this
  rw [latest, List.filter_append, all, none_left, List.append_nil]

/-- A list whose keys ascend can be cut anywhere. -/
theorem exists_cut (h : shifts.Pairwise fun a b => key a ≤ key b) (x : Int) :
    ∃ past coming, shifts = past ++ coming ∧ Cut key x past coming := by
  induction shifts with
  | nil => exact ⟨[], [], rfl, ⟨by simp, by simp⟩⟩
  | cons s shifts ih =>
    obtain ⟨later, h⟩ := List.pairwise_cons.1 h
    by_cases come : key s ≤ x
    · obtain ⟨past, coming, rfl, cut⟩ := ih h
      exact ⟨s :: past, coming, rfl, ⟨List.forall_mem_cons.2 ⟨come, cut.past⟩, cut.coming⟩⟩
    · refine ⟨[], s :: shifts, rfl, ⟨by simp, ?_⟩⟩
      refine List.forall_mem_cons.2 ⟨by omega, fun b hb => ?_⟩
      have := later b hb
      omega

/-- An instant cuts a tidy list in two. -/
theorem Tidy.exists_cut_instant (h : Tidy initial shifts) (t : Int) :
    ∃ past coming, shifts = past ++ coming ∧ Cut (·.instant) t past coming :=
  exists_cut (h.pairwise.imp fun earlier => earlier.1) t

/-- The shift to come begins with the offset in force. -/
theorem Tidy.before_eq {next : Shift} (h : Tidy initial (past ++ next :: coming)) :
    next.before = offsetAfter initial past := by
  cases hlast : past.getLast? with
  | none =>
    rw [List.getLast?_eq_none_iff.1 hlast] at h ⊢
    exact h.first next rfl
  | some s =>
    have linked := (List.isChain_append.1 h.linked).2.2 s hlast next rfl
    rw [linked.1, offsetAfter, hlast]
    rfl

/-- In a list whose keys ascend, the last shift that has come and the first one to come decide where
it is cut. -/
theorem cut_of_ends (h : (past ++ coming).Pairwise fun a b => key a ≤ key b)
    (last : ∀ s ∈ past.getLast?, key s ≤ x) (next : ∀ s ∈ coming.head?, x < key s) :
    Cut key x past coming := by
  obtain ⟨hpast, hcoming, -⟩ := List.pairwise_append.1 h
  constructor
  · -- All that is before the cut is no later than the last shift there
    intro a ha
    obtain ⟨front, s, rfl⟩ := List.eq_nil_or_concat' past |>.resolve_left (List.ne_nil_of_mem ha)
    have come := last s (by simp)
    rcases List.mem_append.1 ha with ha | ha
    · have earlier := (List.pairwise_append.1 hpast).2.2 a ha s List.mem_cons_self
      omega
    · rw [List.mem_singleton.1 ha]
      exact come
  · -- And all that is behind it is no earlier than the first one there
    intro b hb
    obtain ⟨s, rest, rfl⟩ := List.exists_cons_of_ne_nil (List.ne_nil_of_mem hb)
    have wait := next s rfl
    rcases List.mem_cons.1 hb with rfl | hb
    · exact wait
    · have := (List.pairwise_cons.1 hcoming).1 b hb
      omega

/-- What comes in time is all that does not come before a shift that does. -/
theorem cut_wallStart (h : (past ++ coming).Pairwise IsEarlier) {second : Bool}
    (last : ∀ s ∈ past.getLast?, s.wallStart second ≤ x)
    (next : ∀ s ∈ coming.head?, x < s.wallStart second) :
    Cut (·.wallStart second) x past coming :=
  cut_of_ends (h.imp fun earlier => earlier.wallStart_le second) last next

/-! ## Instants and their readings -/

/-- Whether the reading of an instant comes for the second time: the last shift went back, and the
clock has not yet made up for it. -/
def isSecond (past : List Shift) (t : Int) : Bool :=
  match past.getLast? with
  | none => false
  | some s => t - s.instant < s.before - s.after

/-- The reading of an instant comes after the same shifts as the instant. -/
theorem Cut.reading (h : Tidy initial (past ++ coming)) (cut : Cut (·.instant) t past coming) :
    Cut (·.wallStart (isSecond past t)) (t + offsetAfter initial past) past coming := by
  refine cut_wallStart h.pairwise ?_ ?_
  · -- The last shift has also come by its reading, in the pass that the instant belongs to
    intro s hs
    have hs : past.getLast? = some s := hs
    have come := cut.past s (List.mem_of_getLast? hs)
    simp only [isSecond, offsetAfter, hs, Option.map_some, Option.getD_some, wallStart]
    by_cases again : t - s.instant < s.before - s.after
    · simp only [again, decide_true, if_true]
      omega
    · simp only [again, decide_false, Bool.false_eq_true, if_false]
      omega
  · intro next hnext
    obtain ⟨rest, rfl⟩ := List.head?_eq_some_iff.1 hnext
    have wait := cut.coming next List.mem_cons_self
    have link := h.before_eq
    cases second : isSecond past t with
    | false =>
      simp only [wallStart, Bool.false_eq_true, if_false]
      omega
    | true =>
      -- The readings that the last shift repeats end before the next one
      unfold isSecond at second
      split at second
      · injection second
      · rename_i s hs
        have apart := ((List.isChain_append.1 h.linked).2.2 s hs next rfl).2
        have again := of_decide_eq_true second
        simp only [offsetAfter, hs, Option.map_some, Option.getD_some]
        have : s.instant + s.before ≤ s.wallStart false := by
          simp only [wallStart, Bool.false_eq_true, if_false]
          omega
        omega

/-! ## Repeated readings -/

/-- In its first pass, a reading that a shift repeats comes before the shift. -/
theorem cut_first_pass {s : Shift} (h : Tidy initial (past ++ s :: coming))
    (begun : s.wallStart true ≤ x) (going : x < s.wallStart false) :
    Cut (·.wallStart false) x past (s :: coming) := by
  refine cut_wallStart h.pairwise ?_ ?_
  · intro last hlast
    have apart := ((List.isChain_append.1 h.linked).2.2 last hlast s rfl).2
    omega
  · intro next hnext
    injection hnext with same
    rw [← same]
    exact going

/-- In its second pass it comes after it. -/
theorem cut_second_pass {s : Shift} (h : Tidy initial (past ++ s :: coming))
    (begun : s.wallStart true ≤ x) (going : x < s.wallStart false) :
    Cut (·.wallStart true) x (past ++ [s]) coming := by
  have regrouped : past ++ s :: coming = (past ++ [s]) ++ coming := by simp
  rw [regrouped] at h
  refine cut_wallStart h.pairwise ?_ ?_
  · intro last hlast
    rw [List.getLast?_concat] at hlast
    injection hlast with same
    rw [← same]
    exact begun
  · intro next hnext
    have apart := ((List.isChain_append.1 h.linked).2.2 s List.getLast?_concat next hnext).2
    omega

/-! ## Readings and their instants -/

variable {wall : Int}

/-- A reading in one of its passes cuts a tidy list in two. -/
theorem Tidy.exists_cut_wallStart (h : Tidy initial shifts) (second : Bool) (wall : Int) :
    ∃ past coming, shifts = past ++ coming ∧ Cut (·.wallStart second) wall past coming :=
  exists_cut (h.pairwise.imp fun earlier => earlier.wallStart_le second) wall

/-- Before a shift has come, a reading belongs to an instant before it, unless it is the first pass
over a reading that the shift skips. -/
theorem Cut.lt_instant {s : Shift} {second : Bool}
    (cut : Cut (·.wallStart second) wall past (s :: coming)) :
    wall - s.before < s.instant ∨
      (second = false ∧ s.before < s.after ∧
        s.wallStart true ≤ wall ∧ wall < s.wallStart false) := by
  have wait := cut.coming s List.mem_cons_self
  by_cases early : wall - s.before < s.instant
  · exact .inl early
  · cases second with
    | true =>
      simp only [wallStart, if_true] at wait
      omega
    | false =>
      refine .inr ⟨rfl, ?_⟩
      simp only [wallStart, Bool.false_eq_true, if_true, if_false] at wait ⊢
      omega

/-- Once a shift has come, a reading belongs to no instant before it, unless it is the second pass
over a reading that the shift skips. -/
theorem Cut.instant_le {s : Shift} {second : Bool}
    (cut : Cut (·.wallStart second) wall (past ++ [s]) coming) :
    s.instant ≤ wall - s.after ∨
      (second = true ∧ s.before < s.after ∧
        s.wallStart true ≤ wall ∧ wall < s.wallStart false) := by
  have come := cut.past s (by simp)
  by_cases late : s.instant ≤ wall - s.after
  · exact .inl late
  · cases second with
    | false =>
      simp only [wallStart, Bool.false_eq_true, if_false] at come
      omega
    | true =>
      refine .inr ⟨rfl, ?_⟩
      simp only [wallStart, Bool.false_eq_true, if_true, if_false] at come ⊢
      omega

end Shift

end Recurrence
