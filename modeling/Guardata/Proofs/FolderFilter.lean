import Guardata.Proofs.FolderManifest

/-! # Restoring the confined entries over remote children

A new filter and a new remote version are handled alike: the remote children that match the filter
are hidden, and the local entries that were confined, or that are hidden now, are laid over the
rest. `Rebuilt` says what the manifest is then. It fails only if a confined entry is found among the
remote children under a name that nothing is laid over.
-/

namespace Guardata.LocalFolderishManifest

section Edit

variable {manifest next : LocalFolderishManifest} {data : Dict EntryName (Option EntryID)}
  {patternFilter : Pattern} {now : DateTime}

/-- The names of an edit get what the edit says, the others keep what they have. -/
theorem get?_evolveChildren
    (edited : manifest.evolveChildrenAndMarkUpdated data patternFilter now = .ok next)
    (name : EntryName) :
    next.children.get? name = (data.get? name).getD (manifest.children.get? name) := by
  obtain ⟨-, -, -, children, -⟩ := evolveChildrenAndMarkUpdated_eq_ok edited
  rw [children]
  cases mentioned : data.get? name with
  | none =>
    have absent := Dict.get?_eq_none_iff.mp mentioned
    rw [ChildrenEdit.get?_foldl_add_of_absent, removeChildren, ChildrenEdit.get?_foldl_remove,
      if_neg absent, Option.getD_none]
    exact fun entryId member => absent (List.mem_map.mpr ⟨_, member, rfl⟩)
  | some added =>
    have item := Dict.get?_eq_some_iff.mp mentioned
    cases added with
    | some entryId =>
      rw [ChildrenEdit.get?_foldl_add_of_mem data.nodup item, Option.getD_some]
    | none =>
      have present : name ∈ data.keys := Dict.mem_keys_iff.mpr ⟨none, mentioned⟩
      rw [ChildrenEdit.get?_foldl_add_of_absent, removeChildren, ChildrenEdit.get?_foldl_remove,
        if_pos present, Option.getD_some]
      intro entryId again
      rw [← Dict.get?_eq_some_iff, mentioned] at again
      cases again

/-- An edit confines what it adds under a matching name, and releases what it removes. -/
theorem mem_confinedEntries_evolveChildren
    (edited : manifest.evolveChildrenAndMarkUpdated data patternFilter now = .ok next)
    (entryId : EntryID) :
    entryId ∈ next.confinedEntries ↔
      (entryId ∈ manifest.confinedEntries ∧
        ∀ name ∈ data.keys, manifest.children.get? name ≠ some entryId) ∨
      ∃ name, data.get? name = some (some entryId) ∧ patternFilter name := by
  obtain ⟨-, -, -, -, confined, -⟩ := evolveChildrenAndMarkUpdated_eq_ok edited
  rw [confined, ChildrenEdit.mem_confinedEntries_foldl_add, removeChildren,
    ChildrenEdit.mem_confinedEntries_foldl_remove data.nodup_keys]
  simp only [List.mem_filterMap, Dict.get?_eq_some_iff, not_exists, not_and, ne_eq]

/-- The assertion of an edit: an id that it adds stands under no name that it leaves alone. -/
theorem evolveChildren_returns_iff :
    (∃ next, manifest.evolveChildrenAndMarkUpdated data patternFilter now = .ok next) ↔
      ∀ added kept entryId, data.get? added = some (some entryId) →
        manifest.children.get? kept = some entryId → kept ∈ data.keys := by
  have asserted : (∃ next, manifest.evolveChildrenAndMarkUpdated data patternFilter now = .ok next) ↔
      ∀ entryId ∈ data.values.reduceOption,
        entryId ∉ (manifest.removeChildren data).children.values := by
    simp only [evolveChildrenAndMarkUpdated, Except.bind_eq_ok_iff, Except.require_eq_ok_iff,
      exists_const]
    constructor
    · rintro ⟨next, unique, -⟩
      exact unique
    · intro unique
      split
      · exact ⟨_, unique, rfl⟩
      · exact ⟨_, unique, rfl⟩
  rw [asserted]
  simp only [List.reduceOption_mem_iff, Dict.mem_values_iff, removeChildren,
    ChildrenEdit.get?_foldl_remove, not_exists]
  constructor
  · intro unique added kept entryId adds keeps
    by_contra absent
    exact unique entryId ⟨added, adds⟩ kept (by rw [if_neg absent]; exact keeps)
  · rintro covered entryId ⟨added, adds⟩ kept stands
    split at stands
    · cases stands
    · next absent => exact absent (covered added kept entryId adds stands)

end Edit

/-- The pattern hides an entry that remote children have under a matching name. -/
def Hides (remoteChildren : Dict EntryName EntryID) (patternFilter : Pattern) (entryId : EntryID) :
    Prop :=
  ∃ name, remoteChildren.get? name = some entryId ∧ patternFilter name

/-- What is laid over the remote children: the confined entries, and those that get hidden. -/
def Restores (localManifest : LocalFolderishManifest) (remoteChildren : Dict EntryName EntryID)
    (patternFilter : Pattern) (name : EntryName) (entryId : EntryID) : Prop :=
  localManifest.children.get? name = some entryId ∧
    (entryId ∈ localManifest.confinedEntries ∨ Hides remoteChildren patternFilter entryId)

/-- A manifest made of remote children and of the entries that a device restores over them. -/
structure Rebuilt (localManifest : LocalFolderishManifest) (remoteChildren : Dict EntryName EntryID)
    (patternFilter : Pattern) (next : LocalFolderishManifest) : Prop where
  filtered : ∀ entryId, entryId ∈ next.filteredEntries ↔ Hides remoteChildren patternFilter entryId
  children : ∀ name entryId, next.children.get? name = some entryId ↔
    localManifest.Restores remoteChildren patternFilter name entryId ∨
      (∀ other, ¬ localManifest.Restores remoteChildren patternFilter name other) ∧
        remoteChildren.get? name = some entryId ∧ ¬ Hides remoteChildren patternFilter entryId
  confined : ∀ entryId, entryId ∈ next.confinedEntries ↔
    ∃ name, localManifest.Restores remoteChildren patternFilter name entryId ∧ patternFilter name

/-- Every confined entry among the remote children that stays visible there has its remote name
covered by an entry that is restored. -/
def CanRestore (localManifest : LocalFolderishManifest) (remoteChildren : Dict EntryName EntryID)
    (patternFilter : Pattern) : Prop :=
  ∀ name entryId, remoteChildren.get? name = some entryId → ¬ Hides remoteChildren patternFilter entryId →
    entryId ∈ localManifest.confinedEntries → entryId ∈ localManifest.children.values →
    ∃ other, localManifest.Restores remoteChildren patternFilter name other

section Rebuild

variable {plain localManifest next : LocalFolderishManifest} {patternFilter : Pattern} {now : DateTime}

theorem mem_filteredEntries_filterRemoteEntries (unfiltered : plain.filteredEntries = ∅)
    {entryId : EntryID} : entryId ∈ (plain.filterRemoteEntries patternFilter).filteredEntries ↔
      Hides plain.children patternFilter entryId := by
  have hidden : entryId ∈ (plain.children.filter fun name _ => patternFilter name).values.toFinset ↔
      Hides plain.children patternFilter entryId := by
    rw [List.mem_toFinset, Dict.mem_values_iff]
    simp [Hides, Option.filter_eq_some_iff]
  rw [← hidden]
  simp only [filterRemoteEntries]
  split
  · next nothing => rw [nothing, unfiltered]
  · exact Iff.rfl

theorem get?_filterRemoteEntries {name : EntryName} {entryId : EntryID} :
    (plain.filterRemoteEntries patternFilter).children.get? name = some entryId ↔
      plain.children.get? name = some entryId ∧ ¬ Hides plain.children patternFilter entryId := by
  have hidden : ∀ entryId, entryId ∈
      (plain.children.filter fun name _ => patternFilter name).values.toFinset ↔
        Hides plain.children patternFilter entryId := by
    intro entryId
    rw [List.mem_toFinset, Dict.mem_values_iff]
    simp [Hides, Option.filter_eq_some_iff]
  simp only [filterRemoteEntries]
  split
  · next nothing =>
    have visible : ¬ Hides plain.children patternFilter entryId := by
      rw [← hidden, nothing]
      exact Finset.notMem_empty _
    simp [visible]
  · simp only [Dict.get?_filter, Option.filter_eq_some_iff, decide_eq_true_eq, hidden]

theorem filterRemoteEntries_kept (plain : LocalFolderishManifest) (patternFilter : Pattern) :
    (plain.filterRemoteEntries patternFilter).base = plain.base ∧
      (plain.filterRemoteEntries patternFilter).confinedEntries = plain.confinedEntries := by
  simp only [filterRemoteEntries]
  split <;> exact ⟨rfl, rfl⟩

/-- The entries that are restored, as the edit that restores them. -/
theorem get?_restoredEntries (unfiltered : plain.filteredEntries = ∅) {name : EntryName}
    {added : Option EntryID} :
    ((localManifest.children.filter fun _ entryId => entryId ∈ localManifest.confinedEntries ∨
        entryId ∈ (plain.filterRemoteEntries patternFilter).filteredEntries).mapValues some).get? name =
        some added ↔
      ∃ entryId, added = some entryId ∧
        localManifest.Restores plain.children patternFilter name entryId := by
  simp only [Dict.get?_mapValues, Dict.get?_filter, Option.map_eq_some_iff, Option.filter_eq_some_iff,
    decide_eq_true_eq, mem_filteredEntries_filterRemoteEntries unfiltered, Restores]
  constructor
  · rintro ⟨entryId, restores, rfl⟩
    exact ⟨entryId, rfl, restores⟩
  · rintro ⟨entryId, rfl, restores⟩
    exact ⟨entryId, restores, rfl⟩

/-- Without anything to restore, the hidden entries are the only difference. -/
theorem not_restores (unfiltered : plain.filteredEntries = ∅)
    (nothing : localManifest.confinedEntries = ∅ ∧
      (plain.filterRemoteEntries patternFilter).filteredEntries = ∅) (name : EntryName)
    (entryId : EntryID) : ¬ localManifest.Restores plain.children patternFilter name entryId := by
  rintro ⟨-, confined | hidden⟩
  · rw [nothing.1] at confined
    exact Finset.notMem_empty _ confined
  · rw [← mem_filteredEntries_filterRemoteEntries unfiltered, nothing.2] at hidden
    exact Finset.notMem_empty _ hidden

theorem rebuilt_of_restore (unconfined : plain.confinedEntries = ∅)
    (unfiltered : plain.filteredEntries = ∅)
    (restored : (plain.filterRemoteEntries patternFilter).restoreConfinedEntries localManifest
      patternFilter now = .ok next) :
    next.base = plain.base ∧ localManifest.Rebuilt plain.children patternFilter next := by
  obtain ⟨base, confined⟩ := filterRemoteEntries_kept plain patternFilter
  rw [unconfined] at confined
  unfold restoreConfinedEntries at restored
  split at restored
  · next nothing =>
    cases restored
    have absent := not_restores unfiltered nothing
    refine ⟨base, fun entryId => mem_filteredEntries_filterRemoteEntries unfiltered, ?_, ?_⟩
    · intro name entryId
      rw [get?_filterRemoteEntries]
      simp [absent]
    · intro entryId
      simp [confined, absent]
  · obtain ⟨-, kept, filtered, -⟩ := evolveChildrenAndMarkUpdated_eq_ok restored
    refine ⟨kept.trans base, ?_, ?_, ?_⟩
    · intro entryId
      rw [filtered, mem_filteredEntries_filterRemoteEntries unfiltered]
    · intro name entryId
      rw [get?_evolveChildren restored]
      cases found : ((localManifest.children.filter fun _ entryId =>
          entryId ∈ localManifest.confinedEntries ∨ entryId ∈
            (plain.filterRemoteEntries patternFilter).filteredEntries).mapValues some).get? name with
      | none =>
        have absent : ∀ other, ¬ localManifest.Restores plain.children patternFilter name other := by
          intro other restores
          have := (get?_restoredEntries unfiltered).mpr ⟨other, rfl, restores⟩
          rw [found] at this
          cases this
        rw [Option.getD_none, get?_filterRemoteEntries]
        simp [absent]
      | some added =>
        obtain ⟨other, rfl, restores⟩ := (get?_restoredEntries unfiltered).mp found
        rw [Option.getD_some]
        constructor
        · intro same
          cases same
          exact .inl restores
        · rintro (again | ⟨absent, -⟩)
          · exact restores.1.symm.trans again.1
          · exact absurd restores (absent other)
    · intro entryId
      rw [mem_confinedEntries_evolveChildren restored, confined]
      simp only [Finset.notMem_empty, false_and, false_or, get?_restoredEntries unfiltered,
        Option.some.injEq, exists_eq_left']

/-- What is restored marks the manifest, unless it stands under matching names at which nothing else
is left. -/
theorem needSync_restore_eq_false_iff (unconfined : plain.confinedEntries = ∅)
    (unfiltered : plain.filteredEntries = ∅)
    (restored : (plain.filterRemoteEntries patternFilter).restoreConfinedEntries localManifest
      patternFilter now = .ok next) :
    next.needSync = false ↔ plain.needSync = false ∧
      ∀ name entryId, localManifest.Restores plain.children patternFilter name entryId →
        patternFilter name ∧ ∀ other, plain.children.get? name = some other →
          Hides plain.children patternFilter other := by
  obtain ⟨-, needSync, emptied, -⟩ := filterRemoteEntries_spec plain patternFilter unconfined unfiltered
  unfold restoreConfinedEntries at restored
  split at restored
  · next nothing =>
    cases restored
    rw [needSync]
    exact (and_iff_left fun name entryId restores =>
      absurd restores (not_restores unfiltered nothing name entryId)).symm
  · obtain ⟨-, -, -, -, -, marked⟩ := evolveChildrenAndMarkUpdated_eq_ok restored
    rw [marked, needSync]
    refine and_congr_right fun _ => ?_
    constructor
    · rintro ⟨-, confined, added⟩ name entryId restores
      have adds := (get?_restoredEntries unfiltered).mpr ⟨entryId, rfl, restores⟩
      refine ⟨added _ (Dict.get?_eq_some_iff.mp adds) rfl, fun other stands => ?_⟩
      by_contra visible
      have popped := confined other (List.mem_filterMap.mpr
        ⟨name, Dict.mem_keys_iff.mpr ⟨_, adds⟩, get?_filterRemoteEntries.mpr ⟨stands, visible⟩⟩)
      rw [emptied] at popped
      exact Finset.notMem_empty other popped
    · intro silent
      have none : ∀ other, other ∉ (plain.filterRemoteEntries patternFilter).poppedEntries
          ((localManifest.children.filter fun _ entryId => entryId ∈ localManifest.confinedEntries ∨
            entryId ∈ (plain.filterRemoteEntries patternFilter).filteredEntries).mapValues some) := by
        intro other popped
        obtain ⟨name, mentioned, stands⟩ := List.mem_filterMap.mp popped
        obtain ⟨added, adds⟩ := Dict.mem_keys_iff.mp mentioned
        obtain ⟨entryId, -, restores⟩ := (get?_restoredEntries unfiltered).mp adds
        obtain ⟨remote, visible⟩ := get?_filterRemoteEntries.mp stands
        exact visible ((silent name entryId restores).2 other remote)
      refine ⟨?_, fun other popped => absurd popped (none other), ?_⟩
      · rw [List.eq_nil_iff_forall_not_mem.mpr none]
        exact List.nodup_nil
      · rintro ⟨name, added⟩ item -
        obtain ⟨entryId, -, restores⟩ :=
          (get?_restoredEntries unfiltered).mp (Dict.get?_eq_some_iff.mpr item)
        exact (silent name entryId restores).1

theorem restore_returns_iff (unfiltered : plain.filteredEntries = ∅) :
    (∃ next, (plain.filterRemoteEntries patternFilter).restoreConfinedEntries localManifest
      patternFilter now = .ok next) ↔ localManifest.CanRestore plain.children patternFilter := by
  unfold restoreConfinedEntries
  split
  · next nothing =>
    refine iff_of_true ⟨_, rfl⟩ ?_
    intro name entryId _ _ confined _
    rw [nothing.1] at confined
    exact absurd confined (Finset.notMem_empty _)
  · rw [evolveChildren_returns_iff]
    constructor
    · intro covered name entryId remote visible confined present
      obtain ⟨added, stands⟩ := Dict.mem_values_iff.mp present
      have laid : localManifest.Restores plain.children patternFilter added entryId :=
        ⟨stands, .inl confined⟩
      have adds := (get?_restoredEntries unfiltered).mpr ⟨entryId, rfl, laid⟩
      obtain ⟨value, mentioned⟩ := Dict.mem_keys_iff.mp
        (covered added name entryId adds (get?_filterRemoteEntries.mpr ⟨remote, visible⟩))
      obtain ⟨other, -, restores⟩ := (get?_restoredEntries unfiltered).mp mentioned
      exact ⟨other, restores⟩
    · intro can added kept entryId adds keeps
      obtain ⟨_, same, stands, reason⟩ := (get?_restoredEntries unfiltered).mp adds
      cases same
      obtain ⟨remote, visible⟩ := get?_filterRemoteEntries.mp keeps
      have confined := reason.resolve_right visible
      obtain ⟨other, restores⟩ := can kept entryId remote visible confined
        (Dict.mem_values_iff.mpr ⟨added, stands⟩)
      exact Dict.mem_keys_iff.mpr ⟨_, (get?_restoredEntries unfiltered).mpr ⟨other, rfl, restores⟩⟩

end Rebuild

section Apply

variable {manifest next : LocalFolderishManifest} {patternFilter : Pattern} {now : DateTime}

theorem restoreFilteredEntries_kept (manifest : LocalFolderishManifest) :
    manifest.filterConfinedEntries.restoreFilteredEntries.base = manifest.base ∧
      manifest.filterConfinedEntries.restoreFilteredEntries.needSync = manifest.needSync ∧
      manifest.filterConfinedEntries.restoreFilteredEntries.confinedEntries = ∅ ∧
      manifest.filterConfinedEntries.restoreFilteredEntries.filteredEntries = ∅ := by
  unfold filterConfinedEntries restoreFilteredEntries
  split <;> split <;> simp_all

theorem visible?_eq_some_iff {name : EntryName} {entryId : EntryID} :
    manifest.visible? name = some entryId ↔
      manifest.children.get? name = some entryId ∧ entryId ∉ manifest.confinedEntries := by
  simp [visible?, Option.filter_eq_some_iff]

/-- What is uploaded under a name: a filtered entry of the base, or else a visible one. -/
theorem get?_toRemote_eq_some_iff {author : DeviceID} {timestamp : DateTime} {name : EntryName}
    {entryId : EntryID} :
    (manifest.toRemote author timestamp).children.get? name = some entryId ↔
      (manifest.base.children.get? name = some entryId ∧ entryId ∈ manifest.filteredEntries) ∨
      ((∀ other, manifest.base.children.get? name = some other → other ∉ manifest.filteredEntries) ∧
        manifest.children.get? name = some entryId ∧ entryId ∉ manifest.confinedEntries) := by
  rw [get?_toRemote, Option.or_eq_some_iff, visible?_eq_some_iff, Option.filter_eq_some_iff,
    Option.filter_eq_none_iff]
  simp only [decide_eq_true_eq]

theorem of_get?_toRemote {author : DeviceID} {timestamp : DateTime} {name : EntryName}
    {entryId : EntryID} (found : (manifest.toRemote author timestamp).children.get? name = some entryId) :
    (manifest.base.children.get? name = some entryId ∧ entryId ∈ manifest.filteredEntries) ∨
      (manifest.children.get? name = some entryId ∧ entryId ∉ manifest.confinedEntries) :=
  (get?_toRemote_eq_some_iff.mp found).imp_right And.right

/-- A filter rebuilds the manifest over what it would be uploaded as. -/
theorem rebuilt_of_applyFilter (applied : manifest.applyFilter patternFilter now = .ok next)
    (author : DeviceID) (timestamp : DateTime) :
    next.base = manifest.base ∧
      manifest.Rebuilt (manifest.toRemote author timestamp).children patternFilter next := by
  obtain ⟨base, -, unconfined, unfiltered⟩ := restoreFilteredEntries_kept manifest
  obtain ⟨kept, rebuilt⟩ := rebuilt_of_restore unconfined unfiltered applied
  exact ⟨kept.trans base, rebuilt⟩

theorem needSync_applyFilter_eq_false_iff (applied : manifest.applyFilter patternFilter now = .ok next)
    (author : DeviceID) (timestamp : DateTime) :
    next.needSync = false ↔ manifest.needSync = false ∧ ∀ name entryId,
      manifest.Restores (manifest.toRemote author timestamp).children patternFilter name entryId →
        patternFilter name ∧ ∀ other, (manifest.toRemote author timestamp).children.get? name = some other →
          Hides (manifest.toRemote author timestamp).children patternFilter other := by
  obtain ⟨-, needSync, unconfined, unfiltered⟩ := restoreFilteredEntries_kept manifest
  rw [needSync_restore_eq_false_iff unconfined unfiltered applied, needSync]
  rfl

theorem applyFilter_returns_iff (author : DeviceID) (timestamp : DateTime) :
    (∃ next, manifest.applyFilter patternFilter now = .ok next) ↔
      manifest.CanRestore (manifest.toRemote author timestamp).children patternFilter :=
  restore_returns_iff (restoreFilteredEntries_kept manifest).2.2.2

/-- A remote version is the ground on which the manifest is rebuilt. -/
theorem rebuilt_of_fromRemote {remote : RemoteFolderishManifest}
    (loaded : fromRemote remote patternFilter (some manifest) now = .ok next) :
    next.base = remote ∧ manifest.Rebuilt remote.children patternFilter next :=
  rebuilt_of_restore rfl rfl loaded

theorem fromRemote_returns_iff {remote : RemoteFolderishManifest} :
    (∃ next, fromRemote remote patternFilter (some manifest) now = .ok next) ↔
      manifest.CanRestore remote.children patternFilter :=
  restore_returns_iff rfl

end Apply

end Guardata.LocalFolderishManifest
