import Mathlib.Data.List.Nodup
import Mathlib.Data.List.Basic

/-! # Lists that change while they are walked through

A walk keeps the index of the element that comes next, and the list may change meanwhile. Ahead of the walk are the
elements from that index on. What is appended comes ahead or not at all; what is removed in front of the index
takes the next element out of the walk with it.
-/

namespace List

variable {α : Type*} {list : List α} {element : α} {index position : ℕ}

theorem mem_drop_iff_getElem? : element ∈ list.drop index ↔ ∃ place, index ≤ place ∧ list[place]? = some element := by
  rw [mem_iff_getElem?]
  constructor
  · rintro ⟨offset, found⟩
    exact ⟨index + offset, Nat.le_add_right .., by rwa [getElem?_drop] at found⟩
  · rintro ⟨place, behind, found⟩
    exact ⟨place - index, by rwa [getElem?_drop, Nat.add_sub_cancel' behind]⟩

/-- Removing puts nothing ahead. -/
theorem mem_drop_of_mem_drop_eraseIdx (ahead : element ∈ (list.eraseIdx position).drop index) :
    element ∈ list.drop index := by
  obtain ⟨place, behind, found⟩ := mem_drop_iff_getElem?.mp ahead
  rw [getElem?_eraseIdx] at found
  split at found
  · exact mem_drop_iff_getElem?.mpr ⟨place, behind, found⟩
  · exact mem_drop_iff_getElem?.mpr ⟨place + 1, by omega, found⟩

/-- Of what is ahead and stays in the list, only the next element is lost, if something in front of it goes. -/
theorem mem_drop_eraseIdx_iff (distinct : list.Nodup) (stays : element ∈ list.eraseIdx position)
    (ahead : element ∈ list.drop index) :
    element ∈ (list.eraseIdx position).drop index ↔ index ≤ position ∨ list[index]? ≠ some element := by
  obtain ⟨place, behind, found⟩ := mem_drop_iff_getElem?.mp ahead
  obtain ⟨kept, other, there⟩ := mem_eraseIdx_iff_getElem?.mp stays
  obtain ⟨inside, is⟩ := getElem?_eq_some_iff.mp found
  have only {place' : ℕ} (found' : list[place']? = some element) : place' = place := by
    obtain ⟨inside', is'⟩ := getElem?_eq_some_iff.mp found'
    exact (distinct.getElem_inj_iff).mp (is'.trans is.symm)
  obtain rfl := only there
  constructor
  · intro still
    by_contra lost
    obtain ⟨early, next⟩ := not_or.mp lost
    obtain rfl := only (not_not.mp next)
    obtain ⟨place', behind', found'⟩ := mem_drop_iff_getElem?.mp still
    rw [getElem?_eraseIdx] at found'
    split at found'
    · have := only found'
      omega
    · have := only found'
      omega
  · intro why
    by_cases before : kept < position
    · exact mem_drop_iff_getElem?.mpr ⟨kept, behind, by rwa [getElem?_eraseIdx_of_lt before]⟩
    · have different : index ≠ kept := by
        rintro rfl
        rcases why with late | next
        · omega
        · exact next found
      refine mem_drop_iff_getElem?.mpr ⟨kept - 1, by omega, ?_⟩
      rw [getElem?_eraseIdx_of_ge (by omega), Nat.sub_add_cancel (by omega)]
      exact found

theorem mem_drop_concat {other : α} (ahead : element ∈ list.drop index) : element ∈ (list ++ [other]).drop index := by
  obtain ⟨place, behind, found⟩ := mem_drop_iff_getElem?.mp ahead
  refine mem_drop_iff_getElem?.mpr ⟨place, behind, ?_⟩
  rw [getElem?_append_left (getElem?_eq_some_iff.mp found).1]
  exact found

theorem of_mem_drop_concat {other : α} (ahead : element ∈ (list ++ [other]).drop index) :
    element ∈ list.drop index ∨ element = other := by
  obtain ⟨place, behind, found⟩ := mem_drop_iff_getElem?.mp ahead
  rw [getElem?_append] at found
  split at found
  · exact .inl (mem_drop_iff_getElem?.mpr ⟨place, behind, found⟩)
  · exact .inr (by simpa using mem_of_getElem? found)

end List
