import Mathlib.Data.List.Nodup

/-! # Looking up a row by a unique key

A table is a list of rows. Where no two rows share a key, `List.find?` on the key is membership, and it
commutes with an update of the rows that leaves their keys alone.
-/

namespace List

variable {α κ : Type*} [DecidableEq κ] {key : α → κ} {rows : List α}

theorem find?_key_eq_some_iff (unique : (rows.map key).Nodup) (wanted : κ) (row : α) :
    rows.find? (key · = wanted) = some row ↔ row ∈ rows ∧ key row = wanted := by
  constructor
  · intro found
    exact ⟨mem_of_find?_eq_some found, by simpa using find?_some found⟩
  · rintro ⟨member, rfl⟩
    cases found : rows.find? (key · = key row) with
    | none => simpa using find?_eq_none.mp found row member
    | some other =>
      have same : key other = key row := by simpa using find?_some found
      rw [inj_on_of_nodup_map unique (mem_of_find?_eq_some found) member same]

theorem find?_key_map {change : α → α} (keeps : ∀ row, key (change row) = key row) (wanted : κ) :
    (rows.map change).find? (key · = wanted) = (rows.find? (key · = wanted)).map change := by
  rw [find?_map]
  congr 2
  funext row
  simp [keeps]

/-- Up to the order, a change of one row puts the changed row behind all the others. -/
theorem perm_map_change {row : α} (unique : (rows.map key).Nodup) (change : α → α) (member : row ∈ rows) :
    (rows.filter (key · ≠ key row) ++ [change row]).Perm
      (rows.map fun other => if key other = key row then change other else other) := by
  induction rows with
  | nil => cases member
  | cons head rest ih =>
    rw [map_cons, nodup_cons] at unique
    obtain ⟨new, unique⟩ := unique
    rw [map_cons]
    by_cases here : key head = key row
    · have others : ∀ other ∈ rest, key other ≠ key row := fun other found same =>
        new (mem_map.mpr ⟨other, found, same.trans here.symm⟩)
      obtain rfl : row = head := by
        rcases mem_cons.mp member with same | found
        · exact same
        · exact absurd rfl (others row found)
      have kept : rest.filter (key · ≠ key row) = rest :=
        filter_eq_self.mpr fun other found => decide_eq_true (others other found)
      have same : (rest.map fun other => if key other = key row then change other else other) = rest := by
        exact (map_congr_left fun other found => if_neg (others other found)).trans (map_id' rest)
      rw [filter_cons_of_neg (by simp), kept, if_pos rfl, same]
      exact perm_append_singleton _ _
    · have found : row ∈ rest := (mem_cons.mp member).resolve_left fun same => here (same ▸ rfl)
      rw [filter_cons_of_pos (by simpa using here), if_neg here, cons_append]
      exact (ih unique found).cons head

/-- Without the rows under the keys of a front part, the rest is left. -/
theorem filter_not_mem_take (unique : (rows.map key).Nodup) (count : ℕ) :
    rows.filter (fun row => key row ∉ (rows.take count).map key) = rows.drop count := by
  have apart : ∀ row ∈ rows.drop count, key row ∉ (rows.take count).map key := by
    intro row behind before
    rw [← take_append_drop count rows, map_append, nodup_append] at unique
    exact unique.2.2 _ before _ (mem_map_of_mem behind) rfl
  have front : (rows.take count).filter (fun row => key row ∉ (rows.take count).map key) = [] :=
    filter_eq_nil_iff.mpr fun row before => by
      rw [decide_eq_true_eq, not_not]
      exact mem_map_of_mem before
  have back : (rows.drop count).filter (fun row => key row ∉ (rows.take count).map key) = rows.drop count :=
    filter_eq_self.mpr fun row behind => decide_eq_true (apart row behind)
  conv_lhs => arg 2; rw [← take_append_drop count rows]
  rw [filter_append, front, back, nil_append]

omit [DecidableEq κ] in
theorem nodup_map_append_singleton {row : α} (unique : (rows.map key).Nodup)
    (new : ∀ other ∈ rows, key other ≠ key row) : ((rows ++ [row]).map key).Nodup := by
  rw [map_append, nodup_append]
  refine ⟨unique, nodup_singleton _, ?_⟩
  rintro _ before _ last rfl
  obtain ⟨other, member, same⟩ := mem_map.mp before
  exact new other member (same.trans (mem_singleton.mp last))

end List
