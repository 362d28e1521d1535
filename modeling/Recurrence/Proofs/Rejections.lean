import Recurrence.Proofs.PartValues
import Recurrence.Proofs.TokenShapes

/-!
# How segments are refused

Why a segment of rule text is refused after others, told by the segment and by the keys that were
given before it. A value that is a list is refused for an empty item before any item is looked at,
and then for the first item that is refused after those that stand before it.

* `RuleText.RefusesItem`, `RuleText.RefusesValue`: items and values that are refused.
* `RuleText.Rejects`: segments that are refused.
* `RuleText.rejects_of_readSegment`: each failure of the reader is one of these.
-/

namespace Recurrence

/-- Whether the values of a key are lists of items. -/
def Key.isList : Key → Bool
  | byMonth | byMonthDay | byDay | exdate => true
  | freq | interval | count | ending => false

namespace RuleText

/-! ## What is refused -/

/-- How an item of a list is refused that stands after others. Only months have to differ from
those before them. -/
inductive RefusesItem (zone : Zone) (before : List (List Char)) (item : List Char) :
    Key → Failure → Prop
  | month {failure : Failure} (h : readMonth Key.byMonth.name item = .error failure) :
      RefusesItem zone before item .byMonth failure
  | monthAgain {month : MonthNumber} {earlier : List Char}
      (h : readMonth Key.byMonth.name item = .ok month) (mem : earlier ∈ before)
      (same : readMonth Key.byMonth.name earlier = .ok month) :
      RefusesItem zone before item .byMonth
        (.rule ⟨.monthRepeated, some Key.byMonth.name, some (String.ofList item)⟩)
  | monthDay {failure : Failure} (h : readMonthDay Key.byMonthDay.name item = .error failure) :
      RefusesItem zone before item .byMonthDay failure
  | dayEntry {failure : Failure} (h : readDayEntry Key.byDay.name item = .error failure) :
      RefusesItem zone before item .byDay failure
  | exdate {failure : Failure}
      (h : DateToken.read zone (some Key.exdate.name) item = .error failure) :
      RefusesItem zone before item .exdate failure

/-- The failure of the first item that is refused after those before it. -/
def FirstRefused (zone : Zone) (key : Key) (items : List (List Char)) (failure : Failure) : Prop :=
  ∃ before item after, items = before ++ item :: after ∧
    RefusesItem zone before item key failure ∧
    ∀ front earlier back, before = front ++ earlier :: back →
      ∀ other, ¬RefusesItem zone front earlier key other

/-- How the value of a key is refused. -/
inductive RefusesValue (zone : Zone) (key : Key) (value : List Char) : Failure → Prop
  | single {failure : Failure} (single : key.isList = false)
      (h : readPart zone key value = .error failure) : RefusesValue zone key value failure
  | emptyItem (list : key.isList = true) (empty : [] ∈ Text.split ',' value) :
      RefusesValue zone key value
        (.rule ⟨.emptyItem, some key.name, some (String.ofList value)⟩)
  | item {failure : Failure} (list : key.isList = true) (given : [] ∉ Text.split ',' value)
      (h : FirstRefused zone key (Text.split ',' value) failure) :
      RefusesValue zone key value failure

/-- How a segment is refused after segments with some keys. -/
inductive Rejects (zone : Zone) (given : List Key) : List Char → Failure → Prop
  /-- There is no equals sign, or nothing before it. -/
  | noKeyValue {text : List Char} (h : '=' ∉ text ∨ text.head? = some '=') :
      Rejects zone given text (.rule ⟨.noKeyValue, none, some (String.ofList text)⟩)
  | unknownKey {name value : List Char} (ne : name ≠ []) (apart : '=' ∉ name)
      (unknown : ∀ key : Key, key.name.toList ≠ name) :
      Rejects zone given (name ++ '=' :: value)
        (.rule ⟨.unknownKey, some (String.ofList name), some (String.ofList value)⟩)
  /-- The key is found to stand twice before the value is looked at. -/
  | duplicateKey {key : Key} {value : List Char} (again : key ∈ given) :
      Rejects zone given (segment (key, value))
        (.rule ⟨.duplicateKey, some key.name, some (String.ofList value)⟩)
  | missingValue {key : Key} (new : key ∉ given) :
      Rejects zone given (segment (key, [])) (.rule ⟨.missingValue, some key.name, none⟩)
  | value {key : Key} {value : List Char} {failure : Failure} (new : key ∉ given)
      (ne : value ≠ []) (h : RefusesValue zone key value failure) :
      Rejects zone given (segment (key, value)) failure

variable {zone : Zone} {draft : Draft} {key : Key} {items : List (List Char)}
  {value text : List Char} {failure : Failure}

/-! ## Values -/

/-- Where items are read apart from each other, the first that is not read is the first that is
refused. -/
theorem firstRefused_of_mapM {α : Type} {read : List Char → Except Failure α}
    (refused : ∀ before item failure,
      RefusesItem zone before item key failure ↔ read item = .error failure)
    (h : items.mapM read = .error failure) : FirstRefused zone key items failure := by
  obtain ⟨before, item, after, pieces, accepted, h⟩ := Except.exists_first_of_mapM_error h
  refine ⟨before, item, after, pieces, (refused _ _ _).2 h, ?_⟩
  intro front earlier back split other again
  have mem : earlier ∈ before := by simp [split]
  obtain ⟨v, hv⟩ := accepted earlier mem
  rw [(refused _ _ _).1 again] at hv
  injection hv

/-- A month that is none of those before it is not refused. -/
theorem not_refusesItem_month {before : List (List Char)} {item : List Char} {month : MonthNumber}
    (hmonth : readMonth Key.byMonth.name item = .ok month)
    (new : ∀ earlier ∈ before, readMonth Key.byMonth.name earlier ≠ .ok month) :
    ¬RefusesItem zone before item .byMonth failure := by
  intro refused
  cases refused with
  | month h =>
    rw [hmonth] at h
    injection h
  | monthAgain h mem same =>
    rw [hmonth] at h
    injection h with h
    subst h
    exact new _ mem same

/-- Months are read one after the other, and each is compared with those that were read before. -/
theorem exists_of_readMonthsFrom_error {seen : List (List Char)} {months : MonthList}
    (hseen : ∀ month, month ∈ months.val ↔
      ∃ item ∈ seen, readMonth Key.byMonth.name item = .ok month)
    (h : readMonthsFrom Key.byMonth.name months items = .error failure) :
    ∃ before item after, items = before ++ item :: after ∧
      RefusesItem zone (seen ++ before) item .byMonth failure ∧
      ∀ front earlier back, before = front ++ earlier :: back →
        ∀ other, ¬RefusesItem zone (seen ++ front) earlier .byMonth other := by
  induction items generalizing seen months with
  | nil =>
    rw [readMonthsFrom] at h
    injection h
  | cons item items ih =>
    -- Nothing stands before an item that is refused itself
    have here (refused : RefusesItem zone seen item .byMonth failure) :
        ∃ before item' after, item :: items = before ++ item' :: after ∧
          RefusesItem zone (seen ++ before) item' .byMonth failure ∧
          ∀ front earlier back, before = front ++ earlier :: back →
            ∀ other, ¬RefusesItem zone (seen ++ front) earlier .byMonth other := by
      refine ⟨[], item, items, rfl, ?_, ?_⟩
      · rw [List.append_nil]
        exact refused
      · intro front earlier back nothing
        exact absurd nothing.symm (by simp)
    rw [readMonthsFrom] at h
    rcases Except.bind_eq_error.1 h with h | ⟨month, hmonth, h⟩
    · exact here (.month h)
    -- The item is a month: given again, or new, so that it counts among those before the next
    · split at h
      · rename_i again
        obtain ⟨earlier, mem, same⟩ := (hseen month).1 again
        injection h with h
        subst h
        exact here (.monthAgain hmonth mem same)
      · rename_i new
        have hseen' : ∀ other, other ∈ months.val ++ [month] ↔
            ∃ earlier ∈ seen ++ [item], readMonth Key.byMonth.name earlier = .ok other := by
          intro other
          simp only [List.mem_append, List.mem_singleton, or_and_right, exists_or, exists_eq_left,
            ← hseen, hmonth, Except.ok.injEq]
          exact or_congr_right eq_comm
        obtain ⟨before, later, after, rfl, refused, accepted⟩ := ih hseen' h
        rw [List.append_assoc] at refused
        refine ⟨item :: before, later, after, rfl, refused, ?_⟩
        intro front earlier back split other again
        cases front with
        | nil =>
          -- The item itself is not refused, being new
          injection split with same
          subst same
          rw [List.append_nil] at again
          refine not_refusesItem_month hmonth ?_ again
          intro earlier mem same
          exact new ((hseen month).2 ⟨earlier, mem, same⟩)
        | cons first front =>
          injection split with same split
          subst same
          have last := accepted front earlier back split other
          rw [List.append_assoc] at last
          exact last again

/-- A list is refused for an empty item, or for the first of its items that is refused. -/
theorem refusesValue_of_items {α : Type} {read : List (List Char) → Except Failure α}
    (list : key.isList = true) (h : readItems key.name value >>= read = .error failure)
    (first : read (Text.split ',' value) = .error failure →
      FirstRefused zone key (Text.split ',' value) failure) :
    RefusesValue zone key value failure := by
  rcases Except.bind_eq_error.1 h with h | ⟨items, hitems, h⟩
  · unfold readItems at h
    simp only at h
    split at h
    · rename_i empty
      injection h with h
      subst h
      exact .emptyItem list (by simpa using empty)
    · injection h
  · obtain ⟨rfl, given⟩ := readItems_eq_ok.1 hitems
    exact .item list given (first h)

/-- Whatever the key, its value is refused alone or as a list. -/
theorem refusesValue_of_readPart (h : readPart zone key value = .error failure) :
    RefusesValue zone key value failure := by
  -- Only lists have items, and only months depend on those before them
  cases key with
  | freq | interval | count | ending => exact .single rfl h
  | byMonth =>
    refine refusesValue_of_items rfl h ?_
    intro h
    have none_seen : ∀ month, month ∈ MonthList.empty.val ↔
        ∃ item ∈ ([] : List (List Char)), readMonth Key.byMonth.name item = .ok month := by
      simp [MonthList.empty]
    exact exists_of_readMonthsFrom_error none_seen h
  | byMonthDay =>
    refine refusesValue_of_items rfl h (firstRefused_of_mapM ?_)
    intro before item failure
    exact ⟨fun h => by cases h; assumption, .monthDay⟩
  | byDay =>
    refine refusesValue_of_items rfl h (firstRefused_of_mapM ?_)
    intro before item failure
    exact ⟨fun h => by cases h; assumption, .dayEntry⟩
  | exdate =>
    refine refusesValue_of_items rfl h (firstRefused_of_mapM ?_)
    intro before item failure
    exact ⟨fun h => by cases h; assumption, .exdate⟩

/-! ## Segments -/

/-- The reader refuses a segment for the first thing that is wrong with it. -/
theorem rejects_of_readSegment (h : readSegment zone draft text = .error failure) :
    Rejects zone draft.keyOrder text failure := by
  have parts : text.takeWhile (· != '=') ++ text.dropWhile (· != '=') = text :=
    List.takeWhile_append_dropWhile
  have apart : '=' ∉ text.takeWhile (· != '=') := by
    intro mem
    exact absurd (List.all_eq_true.1 List.all_takeWhile _ mem) (by decide)
  have sign := List.head?_dropWhile_not (· != '=') text
  unfold readSegment at h
  simp only [List.span_eq_takeWhile_dropWhile] at h
  -- Either there is no name, or no sign behind it, or the text is a name with a value
  split at h
  · rename_i name
    injection h with h
    subst h
    apply Rejects.noKeyValue
    -- The text begins where its name would end
    rw [name, List.nil_append] at parts
    rw [parts] at sign
    cases text with
    | nil => exact .inl List.not_mem_nil
    | cons c rest => exact .inr (by simpa using sign)
  · rename_i rest _
    injection h with h
    subst h
    rw [rest, List.append_nil] at parts
    rw [parts] at apart
    exact .noKeyValue (.inl apart)
  · rename_i equals value hrest ne
    rw [hrest] at sign parts
    have sign : equals = '=' := by simpa using sign
    subst sign
    have named : text.takeWhile (· != '=') ≠ [] := fun empty => ne empty
    split at h
    · rename_i unknown
      injection h with h
      subst h
      have unknown : ∀ key : Key, key.name.toList ≠ text.takeWhile (· != '=') := by
        intro key same
        rw [← same, Key.ofName?_eq_some.2 rfl] at unknown
        injection unknown
      have refused : Rejects zone draft.keyOrder (text.takeWhile (· != '=') ++ '=' :: value) _ :=
        .unknownKey named apart unknown
      rwa [parts] at refused
    · rename_i key hkey
      have segmented : text = segment (key, value) := by
        rw [segment, ← Key.ofName?_eq_some.1 hkey]
        exact parts.symm
      rw [segmented]
      split at h
      · rename_i again
        injection h with h
        subst h
        exact .duplicateKey again
      · rename_i new
        split at h
        · rename_i missing
          injection h with h
          subst h
          rw [List.isEmpty_iff.1 missing]
          exact .missingValue new
        · rename_i given
          rw [readValue_eq] at h
          have h := Except.map_eq_error.1 (Except.map_eq_error.1 h)
          exact .value new (by simpa using given) (refusesValue_of_readPart h)

end RuleText

end Recurrence
