import Mathlib.Data.Finset.Card
import Mathlib.Data.List.Nodup

/-! # Caches that drop what was accessed least recently

The rows of a cache stand in the order of their last access, the oldest first. A row that is inserted
beyond the limit pushes out the oldest ones, and some more (`slack`). As long as the rows of a working set
trail the others, a row of the working set is only pushed out when nothing else is left; so a working set
that fits is complete after two rounds of inserting what is missing, and one that does not fit never is.
-/

/-- Rows with different keys, the least recently accessed first. -/
@[ext]
structure RecencyCache (κ α : Type*) where
  rows : List (κ × α)
  unique : (rows.map Prod.fst).Nodup

namespace RecencyCache

variable {κ α : Type*}

instance : EmptyCollection (RecencyCache κ α) := ⟨⟨[], List.nodup_nil⟩⟩

def keys (cache : RecencyCache κ α) : List κ := cache.rows.map Prod.fst

def dropOldest (cache : RecencyCache κ α) (count : ℕ) : RecencyCache κ α where
  rows := cache.rows.drop count
  unique := by
    rw [List.map_drop]
    exact cache.unique.sublist (List.drop_sublist count _)

/-- If there are more rows than the limit, drop as many of the oldest, and some more. -/
def trim (limit slack : ℕ) (cache : RecencyCache κ α) : RecencyCache κ α :=
  if limit < cache.rows.length then cache.dropOldest (cache.rows.length - limit + slack) else cache

/-- The rows of a working set come after all the others. -/
def Trails (wanted : κ → Prop) (cache : RecencyCache κ α) : Prop :=
  ∃ old recent, cache.rows = old ++ recent ∧ (∀ row ∈ old, ¬ wanted row.1) ∧ ∀ row ∈ recent, wanted row.1

section Trim

variable {cache : RecencyCache κ α} {wanted : κ → Prop} {limit slack : ℕ}

theorem rows_dropOldest {count : ℕ} :
    (cache.dropOldest count).rows = cache.rows.drop count := rfl

theorem length_trim_le : (cache.trim limit slack).rows.length ≤ limit := by
  unfold trim
  split
  · rw [rows_dropOldest, List.length_drop]
    omega
  · omega

theorem Trails.congr {others : κ → Prop} (trails : cache.Trails wanted)
    (same : ∀ key, wanted key ↔ others key) : cache.Trails others := by
  rwa [← funext fun key => propext (same key)]

theorem Trails.dropOldest (trails : cache.Trails wanted) (count : ℕ) :
    (cache.dropOldest count).Trails wanted := by
  obtain ⟨old, recent, rows, before, after⟩ := trails
  refine ⟨old.drop count, recent.drop (count - old.length), ?_, ?_, ?_⟩
  · rw [rows_dropOldest, rows, List.drop_append]
  · exact fun row member => before row (List.mem_of_mem_drop member)
  · exact fun row member => after row (List.mem_of_mem_drop member)

theorem Trails.trim (trails : cache.Trails wanted) : (cache.trim limit slack).Trails wanted := by
  unfold RecencyCache.trim
  split
  · exact trails.dropOldest _
  · exact trails

/-- Nothing wanted is dropped as long as there is something else to drop. -/
theorem Trails.kept_or_all (trails : cache.Trails wanted) (limit slack : ℕ) :
    (∀ key ∈ cache.keys, wanted key → key ∈ (cache.trim limit slack).keys) ∨
      ∀ key ∈ (cache.trim limit slack).keys, wanted key := by
  unfold RecencyCache.trim
  split
  · generalize cache.rows.length - limit + slack = count
    obtain ⟨old, recent, rows, before, after⟩ := trails
    have dropped : (cache.dropOldest count).keys =
        (old.drop count).map Prod.fst ++ (recent.drop (count - old.length)).map Prod.fst := by
      rw [keys, rows_dropOldest, rows, List.drop_append, List.map_append]
    rw [keys, rows, dropped, List.map_append]
    rcases le_total count old.length with few | many
    · left
      intro key member is
      rw [Nat.sub_eq_zero_of_le few, List.drop_zero]
      refine List.mem_append_right _ ((List.mem_append.mp member).resolve_left fun early => ?_)
      obtain ⟨row, stands, rfl⟩ := List.mem_map.mp early
      exact before row stands is
    · right
      intro key member
      rw [List.drop_eq_nil_of_le many, List.map_nil, List.nil_append] at member
      obtain ⟨row, stands, rfl⟩ := List.mem_map.mp member
      exact after row (List.mem_of_mem_drop stands)
  · exact .inl fun key member _ => member

end Trim

variable [DecidableEq κ]

def get? (cache : RecencyCache κ α) (key : κ) : Option α :=
  (cache.rows.find? fun row => row.1 = key).map Prod.snd

/-- The row comes last. -/
def put (cache : RecencyCache κ α) (key : κ) (value : α) : RecencyCache κ α where
  rows := cache.rows.filter (fun row => row.1 ≠ key) ++ [(key, value)]
  unique := by
    rw [List.map_append, List.nodup_append]
    refine ⟨cache.unique.sublist (List.filter_sublist.map _), List.nodup_singleton _, ?_⟩
    intro other member last single same
    obtain ⟨row, kept, rfl⟩ := List.mem_map.mp member
    have different := (List.mem_filter.mp kept).2
    rw [same, List.mem_singleton.mp single] at different
    simp at different

def erase (cache : RecencyCache κ α) (key : κ) : RecencyCache κ α where
  rows := cache.rows.filter fun row => row.1 ≠ key
  unique := cache.unique.sublist (List.filter_sublist.map _)

/-- Look up a key, which is the most recently accessed one then. -/
def access (cache : RecencyCache κ α) (key : κ) : RecencyCache κ α :=
  match cache.get? key with
  | some value => cache.put key value
  | none => cache

def accessAll (cache : RecencyCache κ α) (keys : List κ) : RecencyCache κ α := keys.foldl access cache

/-- Put a row, and keep to the limit. -/
def insert (limit slack : ℕ) (cache : RecencyCache κ α) (key : κ) (value : α) : RecencyCache κ α :=
  (cache.put key value).trim limit slack

def insertAll (limit slack : ℕ) (cache : RecencyCache κ α) (entries : List (κ × α)) : RecencyCache κ α :=
  entries.foldl (fun cache entry => cache.insert limit slack entry.1 entry.2) cache

section Lookup

variable {cache : RecencyCache κ α} {key other : κ} {value found : α} {limit slack : ℕ} {row : κ × α}

theorem get?_eq_some_iff : cache.get? key = some value ↔ (key, value) ∈ cache.rows := by
  constructor
  · intro found
    obtain ⟨⟨other, stored⟩, first, rfl⟩ := Option.map_eq_some_iff.mp found
    have same : other = key := by simpa using List.find?_some first
    exact same ▸ List.mem_of_find?_eq_some first
  · intro member
    rw [get?, Option.map_eq_some_iff]
    cases first : cache.rows.find? fun row => row.1 = key with
    | none => exact absurd (List.find?_eq_none.mp first _ member) (by simp)
    | some row =>
      have same : row.1 = key := by simpa using List.find?_some first
      have only := List.inj_on_of_nodup_map cache.unique (List.mem_of_find?_eq_some first) member same
      exact ⟨row, rfl, by rw [only]⟩

theorem mem_keys_iff : key ∈ cache.keys ↔ ∃ value, cache.get? key = some value := by
  simp [keys, get?_eq_some_iff]

theorem get?_eq_none_iff : cache.get? key = none ↔ key ∉ cache.keys := by
  rw [mem_keys_iff, Option.eq_none_iff_forall_ne_some, not_exists]

theorem rows_put : (cache.put key value).rows =
    cache.rows.filter (fun row => row.1 ≠ key) ++ [(key, value)] := rfl

theorem rows_erase : (cache.erase key).rows = cache.rows.filter (fun row => row.1 ≠ key) := rfl

theorem get?_put : (cache.put key value).get? other = if other =
    key then some value else cache.get? other := by
  apply Option.ext
  intro found
  rw [get?_eq_some_iff, rows_put, List.mem_append, List.mem_filter, List.mem_singleton, Prod.mk.injEq]
  split
  · next here => simp [here, eq_comm]
  · next elsewhere => simp [elsewhere, get?_eq_some_iff]

theorem mem_keys_put : other ∈ (cache.put key value).keys ↔ other = key ∨ other ∈ cache.keys := by
  simp only [mem_keys_iff, get?_put]
  by_cases here : other = key <;> simp [here]

/-- An access changes nothing but the order. -/
theorem get?_access : (cache.access key).get? other = cache.get? other := by
  unfold access
  split
  · next value found =>
    rw [get?_put]
    split
    · next here => rw [here, found]
    · rfl
  · rfl

@[simp] theorem get?_accessAll {keys : List κ} : (cache.accessAll keys).get? other = cache.get? other := by
  induction keys generalizing cache with
  | nil => rfl
  | cons key rest ih => exact ih.trans get?_access

theorem mem_keys_accessAll {keys : List κ} : other ∈ (cache.accessAll keys).keys ↔ other ∈ cache.keys := by
  simp only [mem_keys_iff, get?_accessAll]

/-- What is found after trimming was there. -/
theorem get?_of_trim (is : (cache.trim limit slack).get? key = some found) : cache.get? key = some found := by
  rw [get?_eq_some_iff] at is ⊢
  unfold trim at is
  split at is
  · exact List.mem_of_mem_drop is
  · exact is

/-- The row just inserted is kept, if the limit leaves room for any. -/
theorem get?_insert_self (room : slack < limit) : (cache.insert limit slack key value).get? key = some value := by
  rw [get?_eq_some_iff, insert, trim]
  split
  · next beyond =>
    have length : (cache.put key value).rows.length = (cache.rows.filter (fun row => row.1 ≠ key)).length + 1 := by
      rw [rows_put, List.length_append, List.length_singleton]
    have older : (cache.put key value).rows.length - limit + slack ≤
        (cache.rows.filter (fun row => row.1 ≠ key)).length := by omega
    rw [rows_dropOldest]
    generalize (cache.put key value).rows.length - limit + slack = count at older
    rw [rows_put, List.drop_append, Nat.sub_eq_zero_of_le older, List.drop_zero]
    exact List.mem_append_right _ (List.mem_singleton_self _)
  · exact List.mem_append_right _ (List.mem_singleton_self _)

/-- After something was inserted, there are no more rows than the limit. -/
theorem length_insertAll_le {entries : List (κ × α)} (some : entries ≠ []) :
    (cache.insertAll limit slack entries).keys.length ≤ limit := by
  induction entries generalizing cache with
  | nil => exact absurd rfl some
  | cons entry rest ih =>
    rcases List.eq_nil_or_concat rest with rfl | ⟨_, _, rfl⟩
    · rw [keys, List.length_map]
      exact length_trim_le
    · exact ih (by simp)

/-- What holds of all rows and of what is inserted holds of all rows afterwards. -/
theorem forall_get?_insertAll {good : κ → α → Prop} {entries : List (κ × α)}
    (before : ∀ key value, cache.get? key = some value → good key value)
    (inserted : ∀ entry ∈ entries, good entry.1 entry.2) :
    ∀ key value, (cache.insertAll limit slack entries).get? key = some value → good key value := by
  induction entries generalizing cache with
  | nil => exact before
  | cons entry rest ih =>
    obtain ⟨here, later⟩ := List.forall_mem_cons.mp inserted
    refine ih ?_ later
    intro key value is
    have put := get?_of_trim is
    rw [get?_put] at put
    split at put
    · next same => exact same ▸ Option.some.inj put ▸ here
    · exact before key value put

/-- A working set within the limit is not trimmed. -/
theorem trim_eq_of_subset {wanted : Finset κ} (fits : wanted.card ≤ limit)
    (all : ∀ key ∈ cache.keys, key ∈ wanted) : cache.trim limit slack = cache := by
  have count : cache.rows.length ≤ wanted.card := by
    rw [← List.length_map Prod.fst, ← List.toFinset_card_of_nodup cache.unique]
    exact Finset.card_le_card fun key member => all key (List.mem_toFinset.mp member)
  rw [trim, if_neg (by omega)]

/-- The rows of a working set within the limit are all kept. -/
theorem mem_keys_insertAll_of_subset {wanted : Finset κ} {entries : List (κ × α)} (fits : wanted.card ≤ limit)
    (all : ∀ key ∈ cache.keys, key ∈ wanted) (inserted : ∀ entry ∈ entries, entry.1 ∈ wanted) :
    key ∈ (cache.insertAll limit slack entries).keys ↔ key ∈ entries.map Prod.fst ∨ key ∈ cache.keys := by
  induction entries generalizing cache with
  | nil => simp [insertAll]
  | cons entry rest ih =>
    obtain ⟨here, later⟩ := List.forall_mem_cons.mp inserted
    have within : ∀ key ∈ (cache.put entry.1 entry.2).keys, key ∈ wanted := fun key member =>
      (mem_keys_put.mp member).elim (fun same => same ▸ here) (all key)
    have step : cache.insert limit slack entry.1 entry.2 = cache.put entry.1 entry.2 :=
      trim_eq_of_subset fits within
    change key ∈ ((cache.insert limit slack entry.1 entry.2).insertAll limit slack rest).keys ↔ _
    rw [step, ih within later, mem_keys_put, List.map_cons, List.mem_cons]
    tauto

/-- A working set beyond the limit does not fit into what an insertion leaves. -/
theorem exists_not_mem_keys {wanted : Finset κ} (beyond : limit < wanted.card)
    (count : cache.keys.length ≤ limit) : ∃ key ∈ wanted, key ∉ cache.keys := by
  by_contra all
  push Not at all
  have few := Finset.card_le_card fun key member => List.mem_toFinset.mpr (all key member)
  have := List.toFinset_card_le cache.keys
  omega

end Lookup

section WorkingSet

variable {wanted : κ → Prop} {cache : RecencyCache κ α} {key other : κ} {value : α} {limit slack : ℕ}
  {entries : List (κ × α)}

theorem Trails.put (trails : cache.Trails wanted) (is : wanted key) :
    (cache.put key value).Trails wanted := by
  obtain ⟨old, recent, rows, before, after⟩ := trails
  refine ⟨old.filter fun row => row.1 ≠ key, recent.filter (fun row => row.1 ≠ key) ++ [(key, value)],
    ?_, ?_, ?_⟩
  · rw [rows_put, rows, List.filter_append, List.append_assoc]
  · exact fun row member => before row (List.mem_of_mem_filter member)
  · intro row member
    rcases List.mem_append.mp member with kept | last
    · exact after row (List.mem_of_mem_filter kept)
    · rw [List.mem_singleton.mp last]
      exact is

/-- Accessed keys join the working set. -/
theorem Trails.access (trails : cache.Trails wanted) :
    (cache.access key).Trails fun other => wanted other ∨ other = key := by
  obtain ⟨old, recent, rows, before, after⟩ := trails
  unfold RecencyCache.access
  split
  · next value found =>
    refine ⟨old.filter fun row => row.1 ≠ key, recent.filter (fun row => row.1 ≠ key) ++ [(key, value)],
      ?_, ?_, ?_⟩
    · rw [rows_put, rows, List.filter_append, List.append_assoc]
    · intro row member
      obtain ⟨there, different⟩ := List.mem_filter.mp member
      exact not_or.mpr ⟨before row there, of_decide_eq_true different⟩
    · intro row member
      rcases List.mem_append.mp member with kept | last
      · exact .inl (after row (List.mem_of_mem_filter kept))
      · rw [List.mem_singleton.mp last]
        exact .inr rfl
  · next missing =>
    refine ⟨old, recent, rows, fun row member => ?_, fun row member => .inl (after row member)⟩
    refine not_or.mpr ⟨before row member, fun same => get?_eq_none_iff.mp missing ?_⟩
    rw [← same, keys, rows]
    exact List.mem_map_of_mem (List.mem_append_left _ member)

theorem Trails.accessAll (trails : cache.Trails wanted) (accessed : List κ) :
    (cache.accessAll accessed).Trails fun other => wanted other ∨ other ∈ accessed := by
  induction accessed generalizing cache wanted with
  | nil => exact trails.congr (by simp)
  | cons key rest ih =>
    refine (ih trails.access).congr fun other => ?_
    rw [List.mem_cons, or_assoc]

/-- Accessed keys come after all the others. -/
theorem trails_accessAll (cache : RecencyCache κ α) (accessed : List κ) :
    (cache.accessAll accessed).Trails (· ∈ accessed) := by
  have nothing : cache.Trails fun _ => False := ⟨cache.rows, [], by simp, by simp, by simp⟩
  exact (nothing.accessAll accessed).congr (by simp)

/-- Once only wanted rows are left, an insertion of a wanted row leaves only wanted ones. -/
theorem forall_mem_keys_insertAll (all : ∀ key ∈ cache.keys, wanted key)
    (inserted : ∀ entry ∈ entries, wanted entry.1) :
    ∀ key ∈ (cache.insertAll limit slack entries).keys, wanted key := by
  intro key member
  obtain ⟨value, found⟩ := mem_keys_iff.mp member
  exact forall_get?_insertAll (fun key value is => all key
    (mem_keys_iff.mpr ⟨value, is⟩)) inserted key value found

/-- Inserting rows of the working set drops none of it, or leaves nothing else. -/
theorem Trails.insertAll (trails : cache.Trails wanted) (inserted : ∀ entry ∈ entries, wanted entry.1) :
    (∀ key, key ∈ entries.map Prod.fst ∨ key ∈ cache.keys → wanted key →
        key ∈ (cache.insertAll limit slack entries).keys) ∨
      ∀ key ∈ (cache.insertAll limit slack entries).keys, wanted key := by
  induction entries generalizing cache with
  | nil => exact .inl fun key member _ => member.resolve_left List.not_mem_nil
  | cons entry rest ih =>
    obtain ⟨here, later⟩ := List.forall_mem_cons.mp inserted
    have put : (cache.put entry.1 entry.2).Trails wanted := trails.put here
    rcases put.kept_or_all limit slack with kept | only
    · refine (ih put.trim later).imp_left fun complete key member is => complete key ?_ is
      rw [List.map_cons, List.mem_cons, or_assoc] at member
      rcases member with rfl | further | old
      · exact .inr (kept _ (mem_keys_put.mpr (.inl rfl)) is)
      · exact .inl further
      · exact .inr (kept _ (mem_keys_put.mpr (.inr old)) is)
    · right
      change ∀ key ∈ (((cache.put entry.1 entry.2).trim limit slack).insertAll limit slack rest).keys, _
      exact forall_mem_keys_insertAll only later

end WorkingSet

end RecencyCache
