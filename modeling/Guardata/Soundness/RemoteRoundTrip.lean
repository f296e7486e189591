import Guardata.Proofs.FolderFilter

/-! # Loading a remote version and uploading it again

What the filter hides of a remote version is put back from the base, so the remote version that a local
manifest was made from is the one it would upload. Confined children come through, as long as the remote
version has nothing to do with them.
-/

namespace Guardata

open LocalFolderishManifest

namespace LocalFolderishManifest

/-- The filter matches the names of the confined children, and the remote version does not have them. -/
def ConfinedApart (manifest : LocalFolderishManifest) (patternFilter : Pattern)
    (remote : RemoteFolderishManifest) : Prop :=
  ∀ name entryId, manifest.children.get? name = some entryId → entryId ∈ manifest.confinedEntries →
    patternFilter name ∧ entryId ∉ remote.children.values

/-- No local child is hidden in the remote version. -/
def HidesNone (manifest : LocalFolderishManifest) (patternFilter : Pattern)
    (remote : RemoteFolderishManifest) : Prop :=
  ∀ name entryId, manifest.children.get? name = some entryId → ¬ Hides remote.children patternFilter entryId

instance (remoteChildren : Dict EntryName EntryID) (patternFilter : Pattern) (entryId : EntryID) :
    Decidable (Hides remoteChildren patternFilter entryId) :=
  decidable_of_iff (∃ entry ∈ remoteChildren.items, entry.2 = entryId ∧ patternFilter entry.1)
    ⟨fun ⟨entry, member, same, matched⟩ =>
        ⟨entry.1, same ▸ Dict.get?_eq_some_iff.mpr member, matched⟩,
      fun ⟨name, found, matched⟩ => ⟨(name, entryId), Dict.get?_eq_some_iff.mp found, rfl, matched⟩⟩

instance (manifest : LocalFolderishManifest) (patternFilter : Pattern) (remote : RemoteFolderishManifest) :
    Decidable (manifest.ConfinedApart patternFilter remote) :=
  decidable_of_iff (∀ entry ∈ manifest.children.items, entry.2 ∈ manifest.confinedEntries →
      patternFilter entry.1 ∧ entry.2 ∉ remote.children.values)
    ⟨fun apart name entryId shown => apart (name, entryId) (Dict.get?_eq_some_iff.mp shown),
      fun apart entry member => apart entry.1 entry.2 (Dict.get?_eq_some_iff.mpr member)⟩

instance (manifest : LocalFolderishManifest) (patternFilter : Pattern) (remote : RemoteFolderishManifest) :
    Decidable (manifest.HidesNone patternFilter remote) :=
  decidable_of_iff (∀ entry ∈ manifest.children.items, ¬ Hides remote.children patternFilter entry.2)
    ⟨fun visible name entryId shown => visible (name, entryId) (Dict.get?_eq_some_iff.mp shown),
      fun visible entry member => visible entry.1 entry.2 (Dict.get?_eq_some_iff.mpr member)⟩

section Loaded

variable {remote : RemoteFolderishManifest} {patternFilter : Pattern} {now : DateTime}
  {manifest next : LocalFolderishManifest}

/-- Without a local manifest, the hidden entries are the only difference. -/
theorem fromRemote_none_eq_ok (loaded : fromRemote remote patternFilter none now = .ok next) :
    next.base = remote ∧ next.needSync = false ∧ next.updated = remote.updated ∧ next.ShowsBase := by
  obtain ⟨base, shows⟩ := fromRemote_spec loaded
  have kept : next.needSync = false ∧ next.updated = remote.updated := by
    cases loaded
    simp only [filterRemoteEntries]
    split <;> exact ⟨rfl, rfl⟩
  exact ⟨base, kept.1, kept.2, shows kept.1⟩

theorem matchRemote_of_showsBase (base : next.base = remote) (updated : next.updated = remote.updated)
    (shows : next.ShowsBase) : next.matchRemote remote = true := by
  have children := shows remote.author remote.timestamp
  rw [base] at children
  have id : next.base.id = remote.id := by rw [base]
  have parent : next.base.parent = remote.parent := by rw [base]
  have created : next.base.created = remote.created := by rw [base]
  exact decide_eq_true ⟨rfl, rfl, id, parent, rfl, created, updated, children⟩

section Restored

variable (apart : manifest.ConfinedApart patternFilter remote)
    (visible : manifest.HidesNone patternFilter remote)
include visible

/-- Only the confined children are restored. -/
theorem restores_iff_confined {name : EntryName} {entryId : EntryID} :
    manifest.Restores remote.children patternFilter name entryId ↔
      manifest.children.get? name = some entryId ∧ entryId ∈ manifest.confinedEntries :=
  and_congr_right fun shown => or_iff_left (visible name entryId shown)

include apart

theorem restores_matched {name : EntryName} {entryId : EntryID}
    (restores : manifest.Restores remote.children patternFilter name entryId) :
    patternFilter name ∧ entryId ∉ remote.children.values := by
  obtain ⟨shown, confined⟩ := (restores_iff_confined visible).mp restores
  exact apart name entryId shown confined

/-- A child that is restored covers nothing but hidden entries. -/
theorem hidden_of_covered {name : EntryName} {entryId other : EntryID}
    (restores : manifest.Restores remote.children patternFilter name entryId)
    (found : remote.children.get? name = some other) : Hides remote.children patternFilter other :=
  ⟨name, found, (restores_matched apart visible restores).1⟩

omit visible in
theorem canRestore_of_apart : manifest.CanRestore remote.children patternFilter := by
  intro name entryId found _ confined present
  obtain ⟨other, shown⟩ := Dict.mem_values_iff.mp present
  exact absurd (Dict.mem_values_iff.mpr ⟨name, found⟩) (apart other entryId shown confined).2

theorem needSync_fromRemote (loaded : fromRemote remote patternFilter (some manifest) now = .ok next) :
    next.needSync = false := by
  refine (needSync_restore_eq_false_iff rfl rfl loaded).mpr ⟨rfl, fun name entryId restores => ?_⟩
  exact ⟨(restores_matched apart visible restores).1, fun other => hidden_of_covered apart visible restores⟩

theorem showsBase_fromRemote (loaded : fromRemote remote patternFilter (some manifest) now = .ok next) :
    next.ShowsBase :=
  (fromRemote_spec loaded).2 (needSync_fromRemote apart visible loaded)

theorem confined_kept (loaded : fromRemote remote patternFilter (some manifest) now = .ok next)
    {name : EntryName} {entryId : EntryID} (shown : manifest.children.get? name = some entryId)
    (confined : entryId ∈ manifest.confinedEntries) :
    next.children.get? name = some entryId ∧ entryId ∈ next.confinedEntries := by
  have rebuilt := (rebuilt_of_fromRemote loaded).2
  have restores : manifest.Restores remote.children patternFilter name entryId := ⟨shown, .inl confined⟩
  exact ⟨(rebuilt.children name entryId).mpr (.inl restores),
    (rebuilt.confined entryId).mpr ⟨name, restores, (restores_matched apart visible restores).1⟩⟩

end Restored

end Loaded

end LocalFolderishManifest

/-- A remote version comes back unchanged from a local manifest that was made of it, alone or over the
confined children of an earlier one. -/
theorem from_remote_round_trip (remote : RemoteFolderishManifest) (patternFilter : Pattern)
    (now : DateTime) :
    (∃ manifest, fromRemote remote patternFilter none now = .ok manifest ∧
      manifest.matchRemote remote = true ∧ manifest.needSync = false ∧
      ∀ author timestamp, (manifest.toRemote author timestamp).children.Same remote.children) ∧
    ∀ manifest : LocalFolderishManifest, manifest.ConfinedApart patternFilter remote →
      manifest.HidesNone patternFilter remote →
      ∃ next, fromRemote remote patternFilter (some manifest) now = .ok next ∧
        (∀ name entryId, manifest.children.get? name = some entryId → entryId ∈ manifest.confinedEntries →
          next.children.get? name = some entryId ∧ entryId ∈ next.confinedEntries) ∧
        next.needSync = false ∧
        ∀ author timestamp, (next.toRemote author timestamp).children.Same remote.children := by
  constructor
  · obtain ⟨next, loaded⟩ : ∃ next, fromRemote remote patternFilter none now = .ok next := ⟨_, rfl⟩
    obtain ⟨base, silent, updated, shows⟩ := fromRemote_none_eq_ok loaded
    refine ⟨next, loaded, matchRemote_of_showsBase base updated shows, silent, fun author timestamp => ?_⟩
    have same := shows author timestamp
    rw [base] at same
    exact same
  · intro manifest apart visible
    obtain ⟨next, loaded⟩ : ∃ next, fromRemote remote patternFilter (some manifest) now = .ok next :=
      fromRemote_returns_iff.mpr (canRestore_of_apart apart)
    refine ⟨next, loaded, fun name entryId shown confined =>
      confined_kept apart visible loaded shown confined,
      needSync_fromRemote apart visible loaded, fun author timestamp => ?_⟩
    have same := showsBase_fromRemote apart visible loaded author timestamp
    rw [(rebuilt_of_fromRemote loaded).1] at same
    exact same

private def anyTmp : Pattern := fun name => name = "a.tmp"

private def tmpFolder : RemoteFolderishManifest :=
  ⟨⟨"bob", "desktop"⟩, 1, 5, none, 1, 1, 1, .ofList [("a.tmp", 1), ("b.txt", 2)]⟩

private def tmpConfined : LocalFolderishManifest where
  base := tmpFolder
  needSync := false
  updated := 1
  children := .ofList [("a.tmp", 3), ("b.txt", 2)]
  confinedEntries := {3}
  filteredEntries := {1}

/-- A confined file stands under the name of a filtered one. -/
theorem from_remote_round_trip_confined : ∃ next,
    fromRemote tmpFolder anyTmp (some tmpConfined) 2 = .ok next ∧
      (∀ name entryId, tmpConfined.children.get? name = some entryId → entryId ∈ tmpConfined.confinedEntries →
        next.children.get? name = some entryId ∧ entryId ∈ next.confinedEntries) ∧
      next.needSync = false ∧
      ∀ author timestamp, (next.toRemote author timestamp).children.Same tmpFolder.children :=
  (from_remote_round_trip tmpFolder anyTmp 2).2 tmpConfined (by decide) (by decide)

end Guardata
