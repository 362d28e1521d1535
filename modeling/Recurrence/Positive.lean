/-!
# Positive integers
-/

namespace Recurrence

/-- A positive integer. -/
abbrev Positive := { n : Nat // 0 < n }

namespace Positive

def one : Positive := ⟨1, Nat.one_pos⟩

/-- An integer as a positive one. -/
def ofInt? (n : Int) : Option Positive :=
  if h : 0 < n then some ⟨n.toNat, by omega⟩ else none

/-- An integer is taken for a positive one just if it is that. -/
theorem ofInt?_eq_some {n : Int} {p : Positive} : ofInt? n = some p ↔ n = p.val := by
  unfold ofInt?
  have := p.property
  split
  · simp only [Option.some.injEq, Subtype.ext_iff]
    omega
  · simp only [reduceCtorEq, false_iff]
    omega

end Positive

end Recurrence
