import Mathlib.Data.List.Perm.Basic
import Mathlib.Data.List.Sort

/-!
# Ascending lists, and lists of results

General facts about lists that are ordered by a strict relation, and about calculations that may
fail at any member of a list.

* `List.filter_or_of_pairwise`: in an ordered list, a filter falls into an early and a late part.
* `List.getElem?_eq_some_iff_countP`: a member's place is the number of members up to it.
* `List.takeWhile_eq_filter_of_pairwise`: what passes comes first.
* `Except.mem_mapM`: the results of a calculation on a list.
* `Except.Rel`: two calculations that fail alike or have related results.
* `List.take_prefix_take`: two beginnings of a list, each cut at a limit.
-/

/-! ## Results -/

namespace Except

variable {ε α β : Type}

/-- Two steps succeed if the second one does on what the first one gives. -/
theorem bind_eq_ok {x : Except ε α} {f : α → Except ε β} {b : β} :
    x >>= f = .ok b ↔ ∃ a, x = .ok a ∧ f a = .ok b := by
  cases x with
  | error fault =>
    refine ⟨fun h => ?_, fun ⟨a, h, _⟩ => ?_⟩
    · injection h
    · injection h
  | ok a =>
    refine ⟨fun h => ⟨a, rfl, h⟩, fun ⟨a', h, h'⟩ => ?_⟩
    injection h with h
    subst h
    exact h'

/-- What a result is mapped to is there just if the result is. -/
theorem map_eq_ok {x : Except ε α} {f : α → β} {b : β} :
    f <$> x = .ok b ↔ ∃ a, x = .ok a ∧ f a = b := by
  cases x with
  | error fault =>
    refine ⟨fun h => ?_, fun ⟨a, h, _⟩ => ?_⟩
    · injection h
    · injection h
  | ok a =>
    refine ⟨fun h => ⟨a, rfl, ?_⟩, fun ⟨a', h, h'⟩ => ?_⟩
    · injection h
    · injection h with h
      subst h
      exact congrArg Except.ok h'

/-- What comes after a calculation matters only for its result. -/
theorem bind_congr_ok {x : Except ε α} {f g : α → Except ε β} (h : ∀ a, x = .ok a → f a = g a) :
    x >>= f = x >>= g := by
  cases x with
  | error fault => rfl
  | ok a => exact h a rfl

/-- Two steps fail if one of them does. -/
theorem bind_eq_error {x : Except ε α} {f : α → Except ε β} {e : ε} :
    x >>= f = .error e ↔ x = .error e ∨ ∃ a, x = .ok a ∧ f a = .error e := by
  cases x with
  | error fault =>
    refine ⟨fun h => .inl ?_, fun h => ?_⟩
    · injection h with h
      rw [h]
    · rcases h with h | ⟨a, h, -⟩
      · injection h with h
        rw [h]
        rfl
      · injection h
  | ok a =>
    -- With the first step done the failure is the second one's
    refine ⟨fun h => .inr ⟨a, rfl, h⟩, fun h => ?_⟩
    rcases h with h | ⟨a', h, h'⟩
    · injection h
    · injection h with h
      subst h
      exact h'

/-- Mapping a result changes no failure. -/
theorem map_eq_error {x : Except ε α} {f : α → β} {e : ε} :
    f <$> x = .error e ↔ x = .error e := by
  cases x with
  | error fault =>
    refine ⟨fun h => ?_, fun h => ?_⟩
    · injection h with h
      rw [h]
    · injection h with h
      rw [h]
      rfl
  | ok a =>
    refine ⟨fun h => ?_, fun h => ?_⟩
    · injection h
    · injection h

/-- A calculation on a list yields the results for its members, one after the other. -/
theorem mapM_eq_ok {f : α → Except ε β} {l : List α} {r : List β} :
    l.mapM f = .ok r ↔ List.Forall₂ (fun a b => f a = .ok b) l r := by
  induction l generalizing r with
  | nil =>
    rw [List.mapM_nil, List.forall₂_nil_left_iff]
    constructor
    · intro h
      injection h with h
      exact h.symm
    · rintro rfl
      rfl
  | cons a l ih =>
    rw [List.mapM_cons, bind_eq_ok, List.forall₂_cons_left_iff]
    -- The results in hand are split as the list is, one calculation at a time
    constructor
    · intro ⟨b, hb, h⟩
      obtain ⟨rest, hrest, h⟩ := bind_eq_ok.1 h
      injection h with h
      exact ⟨b, rest, hb, ih.1 hrest, h.symm⟩
    · intro ⟨b, rest, hb, hrest, h⟩
      exact ⟨b, hb, bind_eq_ok.2 ⟨rest, ih.2 hrest, congrArg Except.ok h.symm⟩⟩

/-- A calculation on a list fails as it fails for the first member for which it does. -/
theorem exists_first_of_mapM_error {f : α → Except ε β} {l : List α} {e : ε}
    (h : l.mapM f = .error e) :
    ∃ before a after, l = before ++ a :: after ∧ (∀ b ∈ before, ∃ r, f b = .ok r) ∧
      f a = .error e := by
  induction l with
  | nil =>
    rw [List.mapM_nil] at h
    injection h
  | cons a l ih =>
    rw [List.mapM_cons] at h
    rcases bind_eq_error.1 h with h | ⟨r, hr, h⟩
    · -- The first member fails
      exact ⟨[], a, l, rfl, fun _ mem => absurd mem List.not_mem_nil, h⟩
    · -- A member of the rest fails, behind the first and those before it there
      rcases bind_eq_error.1 h with h | ⟨rest, -, h⟩
      · obtain ⟨before, b, after, rfl, accepted, h⟩ := ih h
        exact ⟨a :: before, b, after, rfl, List.forall_mem_cons.2 ⟨⟨r, hr⟩, accepted⟩, h⟩
      · injection h

/-- A calculation on a list fails only where it fails for one of its members. -/
theorem exists_of_mapM_error {f : α → Except ε β} {l : List α} {e : ε} (h : l.mapM f = .error e) :
    ∃ a ∈ l, f a = .error e := by
  obtain ⟨before, a, after, rfl, -, h⟩ := exists_first_of_mapM_error h
  exact ⟨a, by simp, h⟩

/-- A calculation along a list fails at the first member where a step of it fails. -/
theorem exists_of_foldlM_error {f : β → α → Except ε β} {l : List α} {b : β} {e : ε}
    (h : l.foldlM f b = .error e) :
    ∃ before a after c, l = before ++ a :: after ∧ before.foldlM f b = .ok c ∧
      f c a = .error e := by
  induction l generalizing b with
  | nil =>
    rw [List.foldlM_nil] at h
    injection h
  | cons a l ih =>
    rw [List.foldlM_cons] at h
    rcases bind_eq_error.1 h with h | ⟨c, hc, h⟩
    · -- The first step fails
      exact ⟨[], a, l, b, rfl, rfl, h⟩
    · -- A later one fails, from the state that the first step leads to
      obtain ⟨before, d, after, r, rfl, hbefore, h⟩ := ih h
      refine ⟨a :: before, d, after, r, rfl, ?_, h⟩
      rw [List.foldlM_cons]
      exact bind_eq_ok.2 ⟨c, hc, hbefore⟩

/-- A map behind all calculations of a list is one over their results. -/
theorem mapM_map {γ : Type} (f : α → Except ε β) (g : β → γ) (l : List α) :
    l.mapM (fun a => g <$> f a) = List.map g <$> l.mapM f := by
  induction l with
  | nil => rfl
  | cons a l ih =>
    rw [List.mapM_cons, List.mapM_cons, ih]
    cases f a with
    | error fault => rfl
    | ok b =>
      cases l.mapM f with
      | error fault => rfl
      | ok rest => rfl

/-- A calculation on a list yields what it yields for each member. -/
theorem mem_mapM {f : α → Except ε β} {l : List α} {r : List β} (h : l.mapM f = .ok r) {b : β} :
    b ∈ r ↔ ∃ a ∈ l, f a = .ok b := by
  induction l generalizing r with
  | nil =>
    rw [List.mapM_nil] at h
    injection h with h
    subst h
    simp
  | cons a l ih =>
    rw [List.mapM_cons] at h
    obtain ⟨c, hc, h⟩ := bind_eq_ok.1 h
    obtain ⟨rest, hrest, h⟩ := bind_eq_ok.1 h
    injection h with h
    subst h
    -- The first result is that of the first member only
    simp only [List.mem_cons, ih hrest, exists_eq_or_imp, hc, Except.ok.injEq]
    exact or_congr_left eq_comm

/-- A calculation that succeeds for each member of a list succeeds on the list. -/
theorem exists_mapM_eq_ok {f : α → Except ε β} {l : List α} (h : ∀ a ∈ l, ∃ b, f a = .ok b) :
    ∃ r, l.mapM f = .ok r := by
  induction l with
  | nil => exact ⟨[], rfl⟩
  | cons a l ih =>
    obtain ⟨first, others⟩ := List.forall_mem_cons.1 h
    obtain ⟨b, hb⟩ := first
    obtain ⟨rest, hrest⟩ := ih others
    exact ⟨b :: rest, mapM_eq_ok.2 (.cons hb (mapM_eq_ok.1 hrest))⟩

/-- A calculation that succeeds on a list succeeds for each member. -/
theorem exists_of_mapM {f : α → Except ε β} {l : List α} {r : List β} (h : l.mapM f = .ok r)
    {a : α} (ha : a ∈ l) : ∃ b, f a = .ok b := by
  induction l generalizing r with
  | nil => exact absurd ha List.not_mem_nil
  | cons c l ih =>
    rw [List.mapM_cons] at h
    obtain ⟨d, hd, h⟩ := bind_eq_ok.1 h
    obtain ⟨rest, hrest, -⟩ := bind_eq_ok.1 h
    rcases List.mem_cons.1 ha with rfl | ha
    · exact ⟨d, hd⟩
    · exact ih hrest ha

/-! ### Two calculations -/

section Rel

variable {γ δ : Type} {r : α → β → Prop} {s : γ → δ → Prop} {x : Except ε α} {y : Except ε β}

/-- Whether two calculations fail alike or have related results. -/
inductive Rel (r : α → β → Prop) : Except ε α → Except ε β → Prop where
  | ok {a : α} {b : β} (h : r a b) : Rel r (.ok a) (.ok b)
  | error (e : ε) : Rel r (.error e) (.error e)

/-- Equal calculations are related by equality. -/
theorem Rel.of_eq {y : Except ε α} (h : x = y) : Rel Eq x y := by
  subst h
  cases x with
  | error e => exact .error e
  | ok a => exact .ok rfl

/-- Calculations that are related by equality are equal. -/
theorem Rel.eq {y : Except ε α} (h : Rel Eq x y) : x = y := by
  cases h with
  | ok same => rw [same]
  | error e => rfl

/-- A result and what is made of it are related. -/
theorem Rel.self_map {t : α → γ → Prop} {f : α → γ} (h : ∀ a, x = .ok a → t a (f a)) :
    Rel t x (f <$> x) := by
  cases x with
  | error e => exact .error e
  | ok a => exact .ok (h a rfl)

/-- Related steps from related results are related. -/
theorem Rel.bind {f : α → Except ε γ} {g : β → Except ε δ} (h : Rel r x y)
    (next : ∀ a b, r a b → Rel s (f a) (g b)) : Rel s (x >>= f) (y >>= g) := by
  cases h with
  | ok h => exact next _ _ h
  | error e => exact .error e

/-- Calculations are also related by anything that follows from the relation. -/
theorem Rel.mono {t : α → β → Prop} (h : Rel r x y) (next : ∀ a b, r a b → t a b) : Rel t x y := by
  cases h with
  | ok h => exact .ok (next _ _ h)
  | error e => exact .error e

/-- What is related is what the calculations result in. -/
theorem Rel.and_ok (h : Rel r x y) : Rel (fun a b => r a b ∧ x = .ok a ∧ y = .ok b) x y := by
  cases h with
  | ok h => exact .ok ⟨h, rfl, rfl⟩
  | error e => exact .error e

/-- Related results are mapped to related ones. -/
theorem Rel.map {f : α → γ} {g : β → δ} (h : Rel r x y) (next : ∀ a b, r a b → s (f a) (g b)) :
    Rel s (f <$> x) (g <$> y) := by
  cases h with
  | ok h => exact .ok (next _ _ h)
  | error e => exact .error e

/-- Calculations on related lists have one result if related members have. -/
theorem eq_of_mapM {f : α → Except ε γ} {g : β → Except ε γ} {as : List α} {bs : List β}
    {cs ds : List γ} (h : List.Forall₂ r as bs) (hc : as.mapM f = .ok cs) (hd : bs.mapM g = .ok ds)
    (same : ∀ a b c d, r a b → f a = .ok c → g b = .ok d → c = d) : cs = ds := by
  rw [mapM_eq_ok] at hc hd
  induction h generalizing cs ds with
  | nil =>
    cases hc
    cases hd
    rfl
  | cons related _ ih =>
    cases hc with
    | cons first rest =>
      cases hd with
      | cons first' rest' => rw [same _ _ _ _ related first first', ih rest rest']

end Rel

end Except

/-! ## Optional values -/

namespace Option

variable {α β γ : Type} {r : α → β → Prop} {s : β → γ → Prop} {x : Option α} {y : Option β}
  {z : Option γ}

/-- A relation that holds of a value and itself does so with nothing added. -/
theorem Rel.refl {r : α → α → Prop} (h : ∀ a, r a a) (x : Option α) : Rel r x x := by
  cases x with
  | none => exact .none
  | some a => exact .some (h a)

/-- Relations of optional values turn around with those of values. -/
theorem Rel.flip {t : β → α → Prop} (h : ∀ a b, r a b → t b a) (hxy : Rel r x y) : Rel t y x := by
  cases hxy with
  | none => exact .none
  | some same => exact .some (h _ _ same)

/-- Relations of optional values compose as those of values do. -/
theorem Rel.comp {t : α → γ → Prop} (h : ∀ a ∈ x, ∀ b c, r a b → s b c → t a c)
    (hxy : Rel r x y) (hyz : Rel s y z) : Rel t x z := by
  cases hxy with
  | none =>
    cases hyz
    exact .none
  | some first =>
    cases hyz with
    | some second => exact .some (h _ rfl _ _ first second)

/-- Optional values are also related by anything that follows from the relation. -/
theorem Rel.mono {t : α → β → Prop} (h : ∀ a b, r a b → t a b) (hxy : Rel r x y) : Rel t x y := by
  cases hxy with
  | none => exact .none
  | some related => exact .some (h _ _ related)

end Option

/-! ## Related lists -/

namespace List

variable {α β : Type} {r s : α → β → Prop} {as : List α} {bs : List β}

/-- Lists that are related in two ways are related by both at once. -/
theorem Forall₂.and (h : Forall₂ r as bs) (h' : Forall₂ s as bs) :
    Forall₂ (fun a b => r a b ∧ s a b) as bs := by
  induction h with
  | nil => exact .nil
  | cons related _ ih =>
    cases h' with
    | cons related' rest' => exact .cons ⟨related, related'⟩ (ih rest')

/-- Related members are kept together. -/
theorem Forall₂.filter {p : α → Bool} {q : β → Bool} (h : Forall₂ r as bs)
    (alike : ∀ a b, r a b → q b = p a) :
    Forall₂ (fun a b => r a b ∧ p a = true) (as.filter p) (bs.filter q) := by
  induction h with
  | nil => exact .nil
  | @cons a b _ _ related _ ih =>
    rw [List.filter_cons, List.filter_cons, alike a b related]
    split
    · rename_i kept
      exact .cons ⟨related, kept⟩ ih
    · exact ih

end List

/-! ## Beginnings and orders of lists -/

namespace List

variable {α β : Type}

/-- Of two beginnings of a list, each cut at a limit, the shorter is a beginning of the longer. If
it is strictly shorter, it was not cut. -/
theorem take_prefix_take {l k k' : List α} (hk : k <+: l) (hk' : k' <+: l) (n : Nat)
    (le : (k.take n).length ≤ (k'.take n).length) : k.take n <+: k'.take n ∧
      ∀ m, (k'.take n)[(k.take n).length]? = some m → k.take n = k ∧ l[k.length]? = some m := by
  have cut : k.take n <+: l := IsPrefix.trans ( take_prefix n k) hk
  have cut' : k'.take n <+: l := IsPrefix.trans ( take_prefix n k') hk'
  refine ⟨prefix_of_prefix_length_le cut cut' le, ?_⟩
  intro m hm
  obtain ⟨lt, -⟩ := getElem?_eq_some_iff.1 hm
  -- The first list ends before its limit, so nothing of it has been cut off
  have whole : k.take n = k := by
    apply take_of_length_le
    rw [length_take, length_take] at lt
    omega
  refine ⟨whole, ?_⟩
  obtain ⟨rest, rfl⟩ := cut'
  rw [whole] at hm lt
  rw [getElem?_append_left lt, hm]

/-- What images become in another order are the images in some order. -/
theorem exists_perm_of_perm_map {f : α → β} {l : List α} {m : List β} (h : m.Perm (l.map f)) :
    ∃ l' : List α, m = l'.map f ∧ l'.Perm l :=
  (congrFun (congrFun (eq_map_comp_perm f) m) l).mpr h

/-- A list without repetitions keeps all of its members. -/
theorem eraseDups_of_nodup [BEq α] [LawfulBEq α] {l : List α} (h : l.Nodup) : l.eraseDups = l := by
  induction l with
  | nil => rfl
  | cons a l ih =>
    obtain ⟨new, distinct⟩ := nodup_cons.1 h
    have others : l.filter (fun b => !b == a) = l := by
      apply filter_eq_self.2
      intro b hb
      rw [Bool.not_eq_true', beq_eq_false_iff_ne]
      rintro rfl
      exact new hb
    rw [eraseDups_cons, others, ih distinct]

end List

/-! ## Ascending lists -/

namespace List

variable {α : Type} {r : α → α → Prop} [Std.Irrefl r] [Std.Antisymm r]

/-- If in an ordered list all that passes `p` comes before all that passes `q`, then what passes
either is what passes `p` followed by what passes `q`. -/
theorem filter_or_of_pairwise {l : List α} (h : l.Pairwise r) {p q : α → Bool}
    (before : ∀ a b, p a → q b → r a b) :
    l.filter (fun a => p a || q a) = l.filter p ++ l.filter q := by
  -- Both sides are ordered, so it is enough that they have the same members
  refine Pairwise.eq_of_mem_iff (r := r) (h.filter _) ?_ fun a => ?_
  · refine pairwise_append.2 ⟨h.filter _, h.filter _, fun a ha b hb => ?_⟩
    exact before a b (mem_filter.1 ha).2 (mem_filter.1 hb).2
  · simp only [mem_filter, mem_append, Bool.or_eq_true]
    tauto

/-- The place of a member of an ordered list is one less than the number of members up to it. -/
theorem getElem?_eq_some_iff_countP [DecidableEq α] [DecidableRel r] {l : List α}
    (h : l.Pairwise r) {i : Nat} {a : α} :
    l[i]? = some a ↔ a ∈ l ∧ l.countP (fun b => b = a ∨ r b a) = i + 1 := by
  induction l generalizing i with
  | nil => simp
  | cons c l ih =>
    obtain ⟨hc, hl⟩ := pairwise_cons.1 h
    have irrefl : ∀ b, ¬ r b b := Std.Irrefl.irrefl
    have asymm : ∀ {b d}, r b d → ¬ (d = b ∨ r d b) := by
      rintro b d hbd (rfl | hdb)
      · exact irrefl d hbd
      · exact irrefl b (Std.Antisymm.antisymm b d hbd hdb ▸ hbd)
    -- None of the members after the first counts up to the first
    have none_up : l.countP (fun b => b = c ∨ r b c) = 0 :=
      countP_eq_zero.2 fun b hb => by simpa using asymm (hc b hb)
    -- The first member is counted just by those after it, so every other place is one further on
    cases i with
    | zero =>
      rw [getElem?_cons_zero, Option.some.injEq]
      constructor
      · rintro rfl
        exact ⟨mem_cons_self, by rw [countP_cons, none_up]; simp⟩
      · rintro ⟨ha, hcount⟩
        rcases mem_cons.1 ha with rfl | ha
        · rfl
        · have pos : 0 < l.countP (fun b => b = a ∨ r b a) :=
            countP_pos_iff.2 ⟨a, ha, by simp⟩
          rw [countP_cons, if_pos (by simpa using Or.inr (hc a ha))] at hcount
          omega
    | succ i =>
      rw [getElem?_cons_succ, ih hl]
      constructor
      · rintro ⟨ha, hcount⟩
        refine ⟨mem_cons_of_mem _ ha, ?_⟩
        rw [countP_cons, hcount, if_pos (by simpa using Or.inr (hc a ha))]
      · rintro ⟨ha, hcount⟩
        rcases mem_cons.1 ha with rfl | ha
        · rw [countP_cons, none_up] at hcount
          split at hcount <;> omega
        · refine ⟨ha, ?_⟩
          rw [countP_cons, if_pos (by simpa using Or.inr (hc a ha))] at hcount
          omega

/-- Relations that agree on the members of a list relate it to the same lists. -/
theorem forall₂_congr_of_mem {α β : Type} {R S : α → β → Prop} {l : List α} {u : List β}
    (h : ∀ a ∈ l, ∀ b, R a b ↔ S a b) : Forall₂ R l u ↔ Forall₂ S l u := by
  induction l generalizing u with
  | nil => simp
  | cons a l ih =>
    obtain ⟨head, rest⟩ := forall_mem_cons.1 h
    cases u with
    | nil => simp
    | cons b u => rw [forall₂_cons, forall₂_cons, head b, ih rest]

/-- A condition may be replaced by one that is the same on all members. -/
theorem takeWhile_congr {α : Type} {p q : α → Bool} {l : List α} (h : ∀ a ∈ l, p a = q a) :
    l.takeWhile p = l.takeWhile q := by
  induction l with
  | nil => rfl
  | cons a l ih =>
    obtain ⟨head, rest⟩ := forall_mem_cons.1 h
    rw [takeWhile_cons, takeWhile_cons, head, ih rest]

/-- If after what does not pass nothing passes, then what passes comes first. -/
theorem takeWhile_eq_filter_of_pairwise {α : Type} {p : α → Bool} {l : List α}
    (h : l.Pairwise fun a b => p b = true → p a = true) : l.takeWhile p = l.filter p := by
  induction l with
  | nil => rfl
  | cons a l ih =>
    obtain ⟨first, rest⟩ := pairwise_cons.1 h
    rw [takeWhile_cons, filter_cons]
    split
    · rw [ih rest]
    · rename_i stops
      exact (filter_eq_nil_iff.2 fun b hb passes => stops (first b hb passes)).symm

/-- Before a member that is not the first there is another one. -/
theorem exists_getElem?_of_succ {l : List α} {i : Nat} {b : α} (h : l[i + 1]? = some b) :
    ∃ a, l[i]? = some a :=
  ⟨_, getElem?_eq_getElem (Nat.lt_of_succ_lt (getElem?_eq_some_iff.1 h).1)⟩

end List
