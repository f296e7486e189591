import Guardata.Model.ManifestStorage

/-! # Calls on the manifest storage

What the statements do to the rows, and what every call comes to when it runs alone.
-/

namespace Guardata

open Machine Coroutine

namespace LocalDatabase

variable {μ : Type} (localdb : LocalDatabase μ)

/-- An update leaves the row of any other entry as it is. -/
theorem get?_updateRemoteVersion (entryId other : EntryID) (version : ℕ) :
    (localdb.updateRemoteVersion entryId version).vlobs.get? other =
      (localdb.vlobs.get? other).map fun row =>
        if other = entryId then { row with remoteVersion := version } else row := by
  unfold updateRemoteVersion
  cases found : localdb.vlobs.get? entryId with
  | none =>
    by_cases same : other = entryId
    · simp [same, found]
    · simp [same]
  | some row =>
    by_cases same : other = entryId
    · simp [same, found]
    · simp [same]

private theorem get?_foldl_updateRemoteVersion {changes : List (EntryID × ℕ)}
    (distinct : (changes.map Prod.fst).Nodup) (entryId : EntryID) :
    (changes.foldl (fun localdb change => localdb.updateRemoteVersion change.1 change.2) localdb).vlobs.get?
        entryId =
      (localdb.vlobs.get? entryId).map fun row =>
        { row with remoteVersion := (changes.lookup entryId).getD row.remoteVersion } := by
  induction changes generalizing localdb with
  | nil => simp
  | cons change rest ih =>
    obtain ⟨changed, version⟩ := change
    simp only [List.map_cons, List.nodup_cons] at distinct
    rw [List.foldl_cons, ih _ distinct.2, get?_updateRemoteVersion, Option.map_map]
    congr 1
    funext row
    by_cases same : entryId = changed
    · subst same
      have last : rest.lookup entryId = none := by
        rw [List.lookup_eq_none_iff]
        intro other member
        exact bne_iff_ne.mpr fun equal => distinct.1 (List.mem_map.mpr ⟨other, member, equal.symm⟩)
      simp [last]
    · have differs : (entryId == changed) = false := beq_eq_false_iff_ne.mpr same
      simp [same, List.lookup_cons, differs]

/-- The rows of the changed entries get their new versions, and no row appears. -/
theorem get?_updateRealmCheckpoint (newCheckpoint : ℕ) (changedVlobs : Dict EntryID ℕ) (entryId : EntryID) :
    (localdb.updateRealmCheckpoint newCheckpoint changedVlobs).vlobs.get? entryId =
      (localdb.vlobs.get? entryId).map fun row =>
        { row with remoteVersion := (changedVlobs.get? entryId).getD row.remoteVersion } :=
  get?_foldl_updateRemoteVersion localdb changedVlobs.nodup entryId

theorem get?_insertOrReplace [BaseLocalManifest μ] (entryId other : EntryID) (ciphered : Ciphered μ)
    (manifest : μ) :
    (localdb.insertOrReplace entryId ciphered manifest).vlobs.get? other =
      if other = entryId then some
        { blob := ciphered
          needSync := BaseLocalManifest.needSync manifest
          baseVersion := BaseLocalManifest.baseVersion manifest
          remoteVersion := max (BaseLocalManifest.baseVersion manifest)
            (((localdb.vlobs.get? entryId).map (·.remoteVersion)).getD 0) }
      else localdb.vlobs.get? other := by
  simp [insertOrReplace]

private theorem mem_keys_of_rows {keep : EntryID × VlobRow μ → Bool} {entryId : EntryID} :
    entryId ∈ (localdb.vlobs.items.filter keep).map Prod.fst ↔
      ∃ row, localdb.vlobs.get? entryId = some row ∧ keep (entryId, row) := by
  simp only [List.mem_map, List.mem_filter, Dict.get?_eq_some_iff, Prod.exists, exists_and_right,
    exists_eq_right]

theorem mem_localChanges_iff {entryId : EntryID} :
    entryId ∈ localdb.needSyncEntries.1 ↔
      ∃ row, localdb.vlobs.get? entryId = some row ∧ row.needSync = true := by
  rw [needSyncEntries, List.mem_toFinset, List.filter_filter, mem_keys_of_rows]
  simp only [Bool.and_eq_true, Bool.or_eq_true, decide_eq_true_eq]
  exact exists_congr fun row => and_congr_right fun _ => and_iff_left_of_imp Or.inl

theorem mem_remoteChanges_iff {entryId : EntryID} :
    entryId ∈ localdb.needSyncEntries.2 ↔
      ∃ row, localdb.vlobs.get? entryId = some row ∧ row.baseVersion ≠ row.remoteVersion := by
  rw [needSyncEntries, List.mem_toFinset, List.filter_filter, mem_keys_of_rows]
  simp only [Bool.and_eq_true, Bool.or_eq_true, decide_eq_true_eq]
  exact exists_congr fun row => and_congr_right fun _ => and_iff_left_of_imp Or.inr

end LocalDatabase

namespace ManifestStorage

variable {μ : Type} [BaseLocalManifest μ] {storage : ManifestStorage μ}

theorem mem_cachedChanges_iff {entryId : EntryID} :
    entryId ∈ storage.cachedChanges ↔
      ∃ manifest, storage.cache.get? entryId = some manifest ∧
      BaseLocalManifest.needSync manifest = true := by
  simp only [cachedChanges, List.mem_toFinset, List.mem_map, List.mem_filter, Dict.get?_eq_some_iff,
    Prod.exists, exists_and_right, exists_eq_right]

omit [BaseLocalManifest μ] in
theorem run_openCursor {α : Type}
    {statements : ManifestStorage μ → Except StorageError (α × ManifestStorage μ)} {value : α}
    {next : ManifestStorage μ} (answered : statements storage = .ok (value, next)) :
    (openCursor statements).run storage = some (.ok value, next) := by
  rw [openCursor, run_bind_of_ok _ (run_transact_of_ok _ answered)]
  rfl

end ManifestStorage

end Guardata
