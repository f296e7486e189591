import Mathlib.Data.List.Sort

/-! # Stable sorting by a key

`List.sortedBy` is Mathlib's insertion sort on the order of a key; equal keys keep the order of
the list. What a program observes when it appends one item and sorts again is where that item
lands: behind every item whose key is not larger, and in front of the others. The additions
belong beside `List.insertionSort` upstream.
-/

namespace List

variable {α γ : Type*} [LinearOrder γ]

/-- Stable sort by increasing key. -/
def sortedBy (key : α → γ) (items : List α) : List α :=
  items.insertionSort fun left right => key left ≤ key right

/-- Insert behind every item whose key is not larger. -/
def insertBehind (key : α → γ) (item : α) : List α → List α
  | [] => [item]
  | head :: rest =>
      if key item < key head then item :: head :: rest else head :: insertBehind key item rest

theorem mem_sortedBy (key : α → γ) {items : List α} {item : α} :
    item ∈ items.sortedBy key ↔ item ∈ items := mem_insertionSort _

private theorem orderedInsert_insertBehind (key : α → γ) (first last : α) (items : List α) :
    (insertBehind key last items).orderedInsert (fun left right => key left ≤ key right) first =
      insertBehind key last (items.orderedInsert (fun left right => key left ≤ key right) first) := by
  induction items with
  | nil =>
    rcases lt_or_ge (key last) (key first) with before | after
    · simp [insertBehind, before, not_le.mpr before]
    · simp [insertBehind, after, not_lt.mpr after]
  | cons head rest ih =>
    simp only [insertBehind, orderedInsert_cons]
    by_cases lastHead : key last < key head <;> by_cases firstHead : key first ≤ key head
    · rcases lt_or_ge (key last) (key first) with before | after
      · simp [insertBehind, lastHead, firstHead, before, not_le.mpr before]
      · simp [insertBehind, lastHead, firstHead, after, not_lt.mpr after]
    · have before : ¬ key first ≤ key last := fun after => firstHead (after.trans lastHead.le)
      simp [insertBehind, lastHead, firstHead, before]
    · have after : ¬ key last < key first := fun before => lastHead (before.trans_le firstHead)
      simp [insertBehind, lastHead, firstHead, after]
    · simp [insertBehind, lastHead, firstHead, ih]

/-- Sorting after an append only inserts the appended item. -/
theorem sortedBy_append_singleton (key : α → γ) (items : List α) (item : α) :
    (items ++ [item]).sortedBy key = insertBehind key item (items.sortedBy key) := by
  induction items with
  | nil => rfl
  | cons head rest ih =>
    change (sortedBy key (rest ++ [item])).orderedInsert _ head = _
    rw [ih, orderedInsert_insertBehind]
    rfl

/-- On a sorted list the insertion point separates the later keys from the others. -/
theorem insertBehind_split (key : α → γ) (item : α) {items : List α}
    (sorted : items.Pairwise fun left right => key left ≤ key right) :
    ∃ before after, items = before ++ after ∧ insertBehind key item items = before ++ item :: after ∧
      (∀ other ∈ before, key other ≤ key item) ∧ ∀ other ∈ after, key item < key other := by
  induction items with
  | nil => exact ⟨[], [], rfl, rfl, by simp, by simp⟩
  | cons head rest ih =>
    obtain ⟨headLe, restSorted⟩ := pairwise_cons.mp sorted
    by_cases first : key item < key head
    · refine ⟨[], head :: rest, rfl, by simp [insertBehind, first], by simp, ?_⟩
      intro other member
      rcases mem_cons.mp member with rfl | member
      · exact first
      · exact first.trans_le (headLe other member)
    · obtain ⟨before, after, split, inserted, lower, upper⟩ := ih restSorted
      refine ⟨head :: before, after, by rw [split, cons_append], ?_, ?_, upper⟩
      · simp [insertBehind, first, inserted]
      · intro other member
        rcases mem_cons.mp member with rfl | member
        · exact not_lt.mp first
        · exact lower other member

theorem sortedBy_pairwise (key : α → γ) (items : List α) :
    (items.sortedBy key).Pairwise fun left right => key left ≤ key right := by
  have : Std.Total (fun left right : α => key left ≤ key right) := ⟨fun _ _ => le_total _ _⟩
  have : IsTrans α (fun left right => key left ≤ key right) := ⟨fun _ _ _ => le_trans⟩
  exact pairwise_insertionSort _ items

/-- Different keys end up strictly in order. -/
theorem sortedBy_pairwise_lt {items : List γ} (distinct : items.Nodup) :
    (items.sortedBy id).Pairwise (· < ·) := by
  have apart : (items.sortedBy id).Nodup := ((perm_insertionSort _ items).nodup_iff).mpr distinct
  exact ((sortedBy_pairwise id items).and apart).imp fun both => lt_of_le_of_ne both.1 both.2

/-- The appended item splits the sorted list at its own key. -/
theorem sortedBy_append_split (key : α → γ) (items : List α) (item : α) :
    ∃ before after, items.sortedBy key = before ++ after ∧
      (items ++ [item]).sortedBy key = before ++ item :: after ∧
      (∀ other ∈ before, key other ≤ key item) ∧ ∀ other ∈ after, key item < key other := by
  rw [sortedBy_append_singleton]
  exact insertBehind_split key item (sortedBy_pairwise key items)

/-- A list whose keys never decrease is already in order. -/
theorem sortedBy_eq_self (key : α → γ) {items : List α}
    (sorted : items.Pairwise fun left right => key left ≤ key right) : items.sortedBy key = items :=
  sorted.insertionSort_eq

/-- With different keys there is one way only to put a list in order. -/
theorem sortedBy_eq_of_perm (key : α → γ) {items sorted : List α}
    (ordered : sorted.Pairwise fun left right => key left < key right) (perm : sorted.Perm items) :
    items.sortedBy key = sorted := by
  have same : (items.sortedBy key).Perm sorted := (perm_insertionSort _ items).trans perm.symm
  have distinct : (sorted.map key).Nodup := pairwise_map.mpr (ordered.imp ne_of_lt)
  refine same.eq_of_pairwise ?_ (sortedBy_pairwise key items) (ordered.imp le_of_lt)
  intro first second here there before behind
  exact inj_on_of_nodup_map distinct (same.mem_iff.mp here) there (le_antisymm before behind)

theorem map_sortedBy {β : Type*} (key : β → γ) (project : α → β) (items : List α) :
    (items.sortedBy (key ∘ project)).map project = (items.map project).sortedBy key := by
  apply map_insertionSort
  intros
  rfl

end List
