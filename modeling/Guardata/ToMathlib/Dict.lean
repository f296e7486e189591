import Mathlib.Data.List.Nodup
import Mathlib.Data.List.Basic
import Mathlib.Data.Finset.Card

/-! # Insertion-ordered dictionaries

Mathlib's `AList` and `Finmap` re-insert at the head or forget the order altogether. A `Dict`
keeps one entry for each key in the order of first insertion: overwriting a key leaves it where
it stands, a new key goes to the end. Iteration order is observable through `items`, while
`Same` compares two dictionaries as mappings. The uniqueness of keys is a field, so every
dictionary that can be written down has it.
-/

universe u v

/-- A finite mapping together with the order in which its keys were first inserted. -/
structure Dict (κ : Type u) (α : Type v) where
  items : List (κ × α)
  nodup : (items.map Prod.fst).Nodup

namespace Dict

variable {κ : Type u} {α : Type v}

instance : EmptyCollection (Dict κ α) := ⟨⟨[], List.nodup_nil⟩⟩
instance : Inhabited (Dict κ α) := ⟨∅⟩

instance [DecidableEq κ] [DecidableEq α] : DecidableEq (Dict κ α) := fun left right =>
  decidable_of_iff (left.items = right.items) (by cases left; cases right; simp)

@[simp] theorem items_empty : (∅ : Dict κ α).items = [] := rfl

theorem eq_empty_iff {dict : Dict κ α} : dict = ∅ ↔ dict.items = [] := by
  constructor
  · rintro rfl
    rfl
  · intro nothing
    cases dict
    cases nothing
    rfl

def keys (dict : Dict κ α) : List κ := dict.items.map Prod.fst

theorem nodup_keys (dict : Dict κ α) : dict.keys.Nodup := dict.nodup

def values (dict : Dict κ α) : List α := dict.items.map Prod.snd

/-- Keep the entries that satisfy a test, in their order. -/
def filter (keep : κ → α → Bool) (dict : Dict κ α) : Dict κ α where
  items := dict.items.filter fun entry => keep entry.1 entry.2
  nodup := (List.filter_sublist.map Prod.fst).nodup dict.nodup

/-- Apply a function to every value. -/
def mapValues {β : Type*} (change : α → β) (dict : Dict κ α) : Dict κ β where
  items := dict.items.map fun entry => (entry.1, change entry.2)
  nodup := by
    rw [List.map_map]
    exact dict.nodup

section Lookup
variable [DecidableEq κ]

def get? (dict : Dict κ α) (key : κ) : Option α := dict.items.lookup key

def contains (dict : Dict κ α) (key : κ) : Bool := (dict.get? key).isSome

/-- Overwrite in place, or append a new key. -/
def insert (dict : Dict κ α) (key : κ) (value : α) : Dict κ α :=
  if present : key ∈ dict.items.map Prod.fst then
    { items := dict.items.map fun entry => if entry.1 = key then (key, value) else entry
      nodup := by
        have keys : (dict.items.map fun entry => if entry.1 = key then (key, value) else entry).map
            Prod.fst = dict.items.map Prod.fst := by
          rw [List.map_map]
          apply List.map_congr_left
          intro entry _
          by_cases same : entry.1 = key <;> simp [same]
        rw [keys]
        exact dict.nodup }
  else
    { items := dict.items ++ [(key, value)]
      nodup := by
        rw [List.map_append, List.nodup_append]
        refine ⟨dict.nodup, List.nodup_singleton _, ?_⟩
        rintro left member right single rfl
        obtain rfl := List.mem_singleton.mp single
        exact present member }

/-- Forget a key, if it is there. -/
def erase (dict : Dict κ α) (key : κ) : Dict κ α := dict.filter fun other _ => other ≠ key

/-- Insert a list of entries from left to right. -/
def insertMany (dict : Dict κ α) (entries : List (κ × α)) : Dict κ α :=
  entries.foldl (fun dict entry => dict.insert entry.1 entry.2) dict

def ofList (entries : List (κ × α)) : Dict κ α := (∅ : Dict κ α).insertMany entries

/-- Lay the entries of another dictionary over this one. -/
def update (dict other : Dict κ α) : Dict κ α := dict.insertMany other.items

/-- Equality as mappings, whatever the order of the keys. -/
def Same (left right : Dict κ α) : Prop := ∀ key, left.get? key = right.get? key

private theorem lookup_cons_ite (entry : κ × α) (rest : List (κ × α)) (query : κ) :
    (entry :: rest).lookup query = if query = entry.1 then some entry.2 else rest.lookup query := by
  rw [List.lookup_cons]
  by_cases same : query = entry.1
  · simp [same]
  · rw [beq_eq_false_iff_ne.mpr same, if_neg same]

/-- With keys that are all different, a lookup finds what is there. -/
theorem lookup_iff {entries : List (κ × α)} (nodup : (entries.map Prod.fst).Nodup)
    {key : κ} {value : α} : entries.lookup key = some value ↔ (key, value) ∈ entries := by
  induction entries with
  | nil => simp
  | cons entry rest ih =>
    simp only [List.map_cons, List.nodup_cons] at nodup
    rw [lookup_cons_ite, List.mem_cons, ← ih nodup.2]
    by_cases same : key = entry.1
    · have absent : rest.lookup key ≠ some value := fun found =>
        nodup.1 (same ▸ List.mem_map_of_mem (f := Prod.fst) ((ih nodup.2).mp found))
      simp [same, Prod.ext_iff, eq_comm, same ▸ absent]
    · simp [same, Prod.ext_iff]

theorem get?_eq_some_iff {dict : Dict κ α} {key : κ} {value : α} :
    dict.get? key = some value ↔ (key, value) ∈ dict.items := lookup_iff dict.nodup

theorem get?_eq_none_iff {dict : Dict κ α} {key : κ} :
    dict.get? key = none ↔ key ∉ dict.keys := by
  rw [Option.eq_none_iff_forall_ne_some]
  constructor
  · intro absent member
    obtain ⟨⟨other, value⟩, entry, rfl⟩ := List.mem_map.mp member
    exact absent value (get?_eq_some_iff.mpr entry)
  · intro absent value found
    exact absent (List.mem_map_of_mem (f := Prod.fst) (get?_eq_some_iff.mp found))

theorem mem_keys_iff {dict : Dict κ α} {key : κ} :
    key ∈ dict.keys ↔ ∃ value, dict.get? key = some value := by
  rw [← not_iff_not, ← get?_eq_none_iff, Option.eq_none_iff_forall_ne_some]
  simp

theorem mem_values_iff {dict : Dict κ α} {value : α} :
    value ∈ dict.values ↔ ∃ key, dict.get? key = some value := by
  simp [values, get?_eq_some_iff]

@[simp] theorem get?_empty (key : κ) : (∅ : Dict κ α).get? key = none := rfl

theorem contains_eq_true_iff {dict : Dict κ α} {key : κ} :
    dict.contains key = true ↔ ∃ value, dict.get? key = some value := Option.isSome_iff_exists

@[simp] theorem get?_filter (keep : κ → α → Bool) (dict : Dict κ α) (key : κ) :
    (dict.filter keep).get? key = (dict.get? key).filter (keep key) := by
  apply Option.ext
  intro value
  rw [get?_eq_some_iff, Option.filter_eq_some_iff, get?_eq_some_iff]
  simp [filter]

@[simp] theorem get?_mapValues {β : Type*} (change : α → β) (dict : Dict κ α) (key : κ) :
    (dict.mapValues change).get? key = (dict.get? key).map change := by
  apply Option.ext
  intro value
  rw [get?_eq_some_iff, Option.map_eq_some_iff]
  simp only [get?_eq_some_iff, mapValues, List.mem_map, Prod.mk.injEq, Prod.exists]
  constructor
  · rintro ⟨_, old, member, rfl, rfl⟩
    exact ⟨old, member, rfl⟩
  · rintro ⟨old, member, rfl⟩
    exact ⟨key, old, member, rfl, rfl⟩

@[simp] theorem get?_erase (dict : Dict κ α) (key query : κ) :
    (dict.erase key).get? query = if query = key then none else dict.get? query := by
  rw [erase, get?_filter]
  by_cases same : query = key
  · simp [same]
  · cases dict.get? query <;> simp [same]

theorem keys_erase (dict : Dict κ α) (key : κ) : (dict.erase key).keys = dict.keys.filter (· ≠ key) := by
  rw [keys, keys, erase, filter, List.filter_map]
  rfl

private theorem lookup_append_single (entries : List (κ × α)) (key query : κ) (value : α)
    (absent : key ∉ entries.map Prod.fst) :
    (entries ++ [(key, value)]).lookup query =
      if query = key then some value else entries.lookup query := by
  induction entries with
  | nil => rw [List.nil_append, lookup_cons_ite]
  | cons entry rest ih =>
    simp only [List.map_cons, List.mem_cons, not_or] at absent
    rw [List.cons_append, lookup_cons_ite, lookup_cons_ite, ih absent.2]
    by_cases same : query = key
    · rw [if_pos same, if_neg (same ▸ absent.1)]
      simp [same]
    · simp [same]

private theorem lookup_overwrite (entries : List (κ × α)) (key query : κ) (value : α)
    (present : key ∈ entries.map Prod.fst) :
    (entries.map fun entry => if entry.1 = key then (key, value) else entry).lookup query =
      if query = key then some value else entries.lookup query := by
  induction entries with
  | nil => simp at present
  | cons entry rest ih =>
    rw [List.map_cons, lookup_cons_ite, lookup_cons_ite]
    by_cases later : key ∈ rest.map Prod.fst
    · rw [ih later]
      by_cases same : query = key <;> by_cases here : entry.1 = key <;> simp [same, here]
      intro equal
      exact absurd equal.symm here
    · -- The key stands at the head only, so the tail is left as it is.
      have here : entry.1 = key := by
        rcases List.mem_cons.mp present with equal | member
        · exact equal.symm
        · exact absurd member later
      have tail : rest.map (fun entry => if entry.1 = key then (key, value) else entry) = rest := by
        conv_rhs => rw [← List.map_id rest]
        apply List.map_congr_left
        intro other member
        rw [if_neg fun equal : other.1 = key =>
          later (equal ▸ List.mem_map_of_mem (f := Prod.fst) member), id]
      rw [tail, if_pos here]
      by_cases same : query = key <;> simp [same, here]

@[simp] theorem get?_insert (dict : Dict κ α) (key query : κ) (value : α) :
    (dict.insert key value).get? query = if query = key then some value else dict.get? query := by
  unfold insert get?
  split
  · next present => exact lookup_overwrite _ _ _ _ present
  · next absent => exact lookup_append_single _ _ _ _ absent

/-- A run of insertions is read from its end: the last entry for a key wins. -/
theorem get?_insertMany (dict : Dict κ α) (entries : List (κ × α)) (key : κ) :
    (dict.insertMany entries).get? key =
      (entries.reverse.lookup key).or (dict.get? key) := by
  induction entries generalizing dict with
  | nil => simp [insertMany]
  | cons entry rest ih =>
    change ((dict.insert entry.1 entry.2).insertMany rest).get? key = _
    rw [ih, get?_insert, List.reverse_cons, List.lookup_append, Option.or_assoc, lookup_cons_ite]
    congr 1
    by_cases same : key = entry.1 <;> simp [same]

@[simp] theorem get?_update (dict other : Dict κ α) (key : κ) :
    (dict.update other).get? key = (other.get? key).or (dict.get? key) := by
  have reversed : (other.items.reverse.map Prod.fst).Nodup := by
    rw [List.map_reverse, List.nodup_reverse]
    exact other.nodup
  have lookup : other.items.reverse.lookup key = other.get? key := by
    apply Option.ext
    intro value
    rw [lookup_iff reversed, List.mem_reverse, get?_eq_some_iff]
  rw [update, get?_insertMany, lookup]

theorem items_insert_of_absent {dict : Dict κ α} {key : κ} (absent : key ∉ dict.keys) (value : α) :
    (dict.insert key value).items = dict.items ++ [(key, value)] := by
  rw [insert, dif_neg (show key ∉ dict.items.map Prod.fst from absent)]

/-- Entries with new and distinct keys are appended as they are. -/
theorem items_insertMany_of_nodup {dict : Dict κ α} {entries : List (κ × α)}
    (distinct : (dict.keys ++ entries.map Prod.fst).Nodup) :
    (dict.insertMany entries).items = dict.items ++ entries := by
  induction entries generalizing dict with
  | nil => simp [insertMany]
  | cons entry rest ih =>
    have absent : entry.1 ∉ dict.keys := fun present =>
      (List.disjoint_of_nodup_append distinct) present (by simp)
    have appended := items_insert_of_absent absent entry.2
    change ((dict.insert entry.1 entry.2).insertMany rest).items = _
    rw [ih, appended, List.append_assoc]
    · rfl
    · simpa [keys, appended] using distinct

theorem items_ofList_of_nodup {entries : List (κ × α)} (distinct : (entries.map Prod.fst).Nodup) :
    (ofList entries).items = entries := by
  rw [ofList, items_insertMany_of_nodup (by simpa [keys] using distinct), items_empty, List.nil_append]

theorem ofList_items (dict : Dict κ α) : ofList dict.items = dict := by
  have same := items_ofList_of_nodup dict.nodup
  generalize ofList dict.items = rebuilt at same ⊢
  cases rebuilt
  cases dict
  cases same
  rfl

/-- Entries that agree with the first ones leave them where they are. -/
theorem items_insertMany_of_agree {front tail entries : List (κ × α)} {dict : Dict κ α}
    (starts : dict.items = front ++ tail)
    (agree : ∀ entry ∈ entries, ∀ first ∈ front, first.1 = entry.1 → first = entry) :
    ∃ rest, (dict.insertMany entries).items = front ++ rest := by
  induction entries generalizing dict tail with
  | nil => exact ⟨tail, starts⟩
  | cons entry others ih =>
    have inserted : ∃ rest, (dict.insert entry.1 entry.2).items = front ++ rest := by
      by_cases present : entry.1 ∈ dict.items.map Prod.fst
      · have same : front.map (fun first => if first.1 = entry.1 then (entry.1, entry.2) else first) =
            front := by
          refine (List.map_congr_left fun first member => ?_).trans (List.map_id front)
          split
          · next key => exact (agree entry (by simp) first member key).symm
          · rfl
        refine ⟨tail.map fun first => if first.1 = entry.1 then (entry.1, entry.2) else first, ?_⟩
        rw [insert, dif_pos present]
        simp only [starts, List.map_append, same]
      · refine ⟨tail ++ [(entry.1, entry.2)], ?_⟩
        rw [insert, dif_neg present]
        simp only [starts, List.append_assoc]
    obtain ⟨rest, starts⟩ := inserted
    exact ih starts fun other member => agree other (List.mem_cons_of_mem _ member)

/-- What stands in a dictionary after insertions was there before or was inserted. -/
theorem contains_insert_iff {dict : Dict κ α} {key query : κ} {value : α} :
    (dict.insert key value).contains query = true ↔ query = key ∨ dict.contains query = true := by
  rw [contains, contains, get?_insert]
  split <;> simp_all

theorem length_erase_of_contains {dict : Dict κ α} {key : κ} (here : dict.contains key = true) :
    (dict.erase key).items.length + 1 = dict.items.length := by
  have member : key ∈ dict.keys := mem_keys_iff.mpr (contains_eq_true_iff.mp here)
  have size (some : Dict κ α) : some.items.length = some.keys.length := by simp [keys]
  have filtered : (dict.keys.filter (· ≠ key)) = dict.keys.erase key := by
    rw [dict.nodup_keys.erase_eq_filter]
    congr 1
    funext other
    by_cases same : other = key <;> simp [same]
  rw [size, size, keys_erase, filtered, List.length_erase_of_mem member]
  have := List.length_pos_of_mem member
  omega

theorem length_insert_of_absent {dict : Dict κ α} {key : κ} (absent : dict.contains key = false) (value : α) :
    (dict.insert key value).items.length = dict.items.length + 1 := by
  have missing : key ∉ dict.keys := fun member => by
    simp [contains_eq_true_iff.mpr (mem_keys_iff.mp member)] at absent
  rw [items_insert_of_absent missing, List.length_append, List.length_singleton]

/-- A mapping has as many items as a set has members if its keys are these. -/
theorem length_items_eq_card {dict : Dict κ α} {members : Finset κ}
    (same : ∀ key, dict.contains key = true ↔ key ∈ members) : dict.items.length = members.card := by
  have set : dict.keys.toFinset = members := by
    ext key
    rw [List.mem_toFinset, mem_keys_iff, ← contains_eq_true_iff, same]
  rw [← set, List.toFinset_card_of_nodup dict.nodup_keys, keys, List.length_map]

theorem mem_of_get?_insertMany {dict : Dict κ α} {entries : List (κ × α)} {key : κ} {value : α}
    (found : (dict.insertMany entries).get? key = some value) :
    (key, value) ∈ entries ∨ dict.get? key = some value := by
  rw [get?_insertMany, Option.or_eq_some_iff] at found
  rcases found with inserted | ⟨-, old⟩
  · obtain ⟨before, after, split, -⟩ := List.lookup_eq_some_iff.mp inserted
    exact .inl (List.mem_reverse.mp (by rw [split]; simp))
  · exact .inr old

theorem contains_insertMany_iff {dict : Dict κ α} {entries : List (κ × α)} {key : κ} :
    (dict.insertMany entries).contains key = true ↔
      key ∈ entries.map Prod.fst ∨ dict.contains key = true := by
  induction entries generalizing dict with
  | nil => simp [insertMany]
  | cons entry rest ih =>
    change ((dict.insert entry.1 entry.2).insertMany rest).contains key = true ↔ _
    rw [ih, contains, contains, get?_insert, List.map_cons, List.mem_cons]
    by_cases same : key = entry.1 <;> simp [same]

theorem get?_insertMany_eq_or (dict : Dict κ α) (entries : List (κ × α)) (key : κ) :
    (dict.insertMany entries).get? key = ((ofList entries).get? key).or (dict.get? key) := by
  rw [ofList, get?_insertMany, get?_insertMany, get?_empty, Option.or_none]

/-- A dictionary of entries that agree wherever they have a key in common. -/
theorem get?_ofList_eq_some_iff {entries : List (κ × α)}
    (functional : ∀ key first second, (key, first) ∈ entries → (key, second) ∈ entries → first = second)
    {key : κ} {value : α} : (ofList entries).get? key = some value ↔ (key, value) ∈ entries := by
  have entered {found : α} (is : (ofList entries).get? key = some found) : (key, found) ∈ entries := by
    rcases mem_of_get?_insertMany is with member | nothing
    · exact member
    · cases nothing
  refine ⟨entered, fun member => ?_⟩
  have present : (ofList entries).contains key = true :=
    contains_insertMany_iff.mpr (.inl (List.mem_map.mpr ⟨_, member, rfl⟩))
  obtain ⟨found, is⟩ := contains_eq_true_iff.mp present
  rw [is, functional key found value (entered is) member]

/-- No value stands under two keys. -/
def Injective (dict : Dict κ α) : Prop :=
  ∀ first second value, dict.get? first = some value → dict.get? second = some value → first = second

theorem injective_iff_nodup_values {dict : Dict κ α} : dict.Injective ↔ dict.values.Nodup := by
  rw [values, List.nodup_map_iff_inj_on (List.Nodup.of_map _ dict.nodup)]
  simp only [Injective, get?_eq_some_iff]
  constructor
  · rintro unique ⟨first, value⟩ left ⟨second, other⟩ right same
    obtain rfl : value = other := same
    rw [unique first second value left right]
  · intro unique first second value left right
    exact congrArg Prod.fst (unique (first, value) left (second, value) right rfl)

theorem Injective.insert {dict : Dict κ α} (unique : dict.Injective) {value : α}
    (new : value ∉ dict.values) (key : κ) : (dict.insert key value).Injective := by
  have absent : ∀ other, dict.get? other ≠ some value :=
    fun other found => new (mem_values_iff.mpr ⟨other, found⟩)
  intro first second shared atFirst atSecond
  rw [get?_insert] at atFirst atSecond
  split at atFirst <;> split at atSecond
  · next left right => rw [left, right]
  · cases atFirst
    exact absurd atSecond (absent second)
  · cases atSecond
    exact absurd atFirst (absent first)
  · exact unique first second shared atFirst atSecond

theorem Same.refl (dict : Dict κ α) : dict.Same dict := fun _ => rfl

theorem Same.symm {left right : Dict κ α} (same : left.Same right) : right.Same left :=
  fun key => (same key).symm

theorem Same.trans {first middle last : Dict κ α} (left : first.Same middle)
    (right : middle.Same last) : first.Same last := fun key => (left key).trans (right key)

theorem same_iff_items {left right : Dict κ α} :
    left.Same right ↔ ∀ entry, entry ∈ left.items ↔ entry ∈ right.items := by
  constructor
  · rintro same ⟨key, value⟩
    rw [← get?_eq_some_iff, ← get?_eq_some_iff, same]
  · intro same key
    apply Option.ext
    intro value
    rw [get?_eq_some_iff, get?_eq_some_iff, same]

instance [DecidableEq α] (left right : Dict κ α) : Decidable (left.Same right) :=
  decidable_of_iff ((∀ entry ∈ left.items, entry ∈ right.items) ∧
      ∀ entry ∈ right.items, entry ∈ left.items) <| by
    rw [same_iff_items]
    exact ⟨fun both entry => ⟨both.1 entry, both.2 entry⟩,
      fun same => ⟨fun entry => (same entry).mp, fun entry => (same entry).mpr⟩⟩

end Lookup

end Dict
