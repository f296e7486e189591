import Guardata.Model.EntryTransactions
import Guardata.Proofs.FolderFilter
import Guardata.Proofs.FolderMerge

/-! # What can happen to the manifest of a folder

`FolderChanges` lists what a step comes to: an edit of one or two names, a new filter, or one of the ways
in which a remote version is received. `changes_of_step` is the inversion of the step function; no
proof unfolds a transaction after it. The children that a merge invents never have an id under two
names, whatever the names are.
-/

namespace Guardata

open LocalFolderishManifest EntryTransactions

/-- The remote version is met by local changes that are not those it has. -/
def LocalFolderishManifest.Diverges (manifest : LocalFolderishManifest)
    (remote : RemoteFolderishManifest) : Prop :=
  manifest.needSync = true ∧ manifest.matchRemote remote = false

/-- What a step does, change by change. -/
inductive FolderChanges (normalize : String → String) (manifest : LocalFolderishManifest)
    (event : FolderEvent) : LocalFolderishManifest → Prop
  | unchanged : FolderChanges normalize manifest event manifest
  | created {name childId next} (called : event.change = .create name childId)
      (fresh : manifest.Fresh childId) (absent : manifest.children.get? name = none)
      (edited : manifest.evolveChildrenAndMarkUpdated (.ofList [(name, some childId)])
        event.patternFilter event.now = .ok next) : FolderChanges normalize manifest event next
  | renamed {source destination overwrite entryId next}
      (called : event.change = .rename source destination overwrite)
      (stands : manifest.children.get? source = some entryId) (different : source ≠ destination)
      (edited : manifest.evolveChildrenAndMarkUpdated
        (.ofList [(destination, some entryId), (source, none)]) event.patternFilter event.now =
          .ok next) : FolderChanges normalize manifest event next
  | deleted {name next}
      (edited : manifest.evolveChildrenAndMarkUpdated (.ofList [(name, none)]) event.patternFilter
        event.now = .ok next) : FolderChanges normalize manifest event next
  | filtered {next} (called : event.change = .applyFilter)
      (applied : manifest.applyFilter event.patternFilter event.now = .ok next) :
      FolderChanges normalize manifest event next
  | adopted {localAuthor remote ids next} (called : event.change = .merge localAuthor remote ids)
      (unique : remote.children.values.Nodup) (newer : manifest.baseVersion < remote.version)
      (agrees : ¬ manifest.Diverges remote)
      (loaded : fromRemote remote event.patternFilter (some manifest) event.now = .ok next) :
      FolderChanges normalize manifest event next
  | acknowledged {localAuthor remote ids} (called : event.change = .merge localAuthor remote ids)
      (unique : remote.children.values.Nodup) (newer : manifest.baseVersion < remote.version)
      (diverges : manifest.Diverges remote) (own : remote.author = localAuthor) :
      FolderChanges normalize manifest event { manifest with base := remote }
  | reconciled {localAuthor remote ids localFromRemote children}
      (called : event.change = .merge localAuthor remote ids)
      (unique : remote.children.values.Nodup) (newer : manifest.baseVersion < remote.version)
      (diverges : manifest.Diverges remote) (foreign : remote.author ≠ localAuthor)
      (loaded : fromRemote remote event.patternFilter (some manifest) event.now = .ok localFromRemote)
      (walk : (manifest.conflictWith localFromRemote remote).IsWalk ids)
      (merged : mergeFolderChildren normalize (manifest.conflictWith localFromRemote remote) ids =
        .ok children) :
      FolderChanges normalize manifest event
        { localFromRemote with children := children, updated := event.now, needSync := true }

section Inversion

variable {normalize : String → String} {manifest next : LocalFolderishManifest} {event : FolderEvent}

theorem evolveParent_eq_ok_iff {data : Dict EntryName (Option EntryID)} :
    evolveParent manifest event.patternFilter event.now data = .ok next ↔
      manifest.evolveChildrenAndMarkUpdated data event.patternFilter event.now = .ok next :=
  Except.mapError_eq_ok_iff

theorem changes_of_rename {source destination : EntryName} {overwrite : Bool}
    (called : event.change = .rename source destination overwrite)
    (renamed : entryRename event.kindOf manifest event.patternFilter event.now source destination
      overwrite = .ok next) : FolderChanges normalize manifest event next := by
  unfold entryRename at renamed
  split at renamed
  · cases renamed
  · next entryId stands =>
    split at renamed
    · cases renamed
      exact .unchanged
    · next different =>
      obtain ⟨-, -, edited⟩ := Except.bind_eq_ok_iff.mp renamed
      exact .renamed called stands different (evolveParent_eq_ok_iff.mp edited)

theorem changes_of_delete {name : EntryName} {check : ChildKind → Except EntryError Unit}
    (deleted : entryDelete event.kindOf manifest event.patternFilter event.now check name = .ok next) :
    FolderChanges normalize manifest event next := by
  unfold entryDelete at deleted
  split at deleted
  · cases deleted
  · obtain ⟨-, -, edited⟩ := Except.bind_eq_ok_iff.mp deleted
    exact .deleted (evolveParent_eq_ok_iff.mp edited)

theorem changes_of_merge {localAuthor : DeviceID} {remote : RemoteFolderishManifest}
    {ids : List EntryID} (called : event.change = .merge localAuthor remote ids)
    (unique : remote.children.values.Nodup)
    (walks : manifest.Walks remote event.patternFilter event.now ids)
    (merged : mergeManifests normalize localAuthor event.patternFilter manifest (some remote) false ids
      event.now = .ok next) : FolderChanges normalize manifest event next := by
  rw [mergeManifests, reapplyFilter, if_neg (by simp), Except.ok_bind] at merged
  simp only at merged
  split at merged
  · cases merged
    exact .unchanged
  · next newer =>
    have newer : manifest.baseVersion < remote.version := by omega
    obtain ⟨localFromRemote, loaded, merged⟩ := Except.bind_eq_ok_iff.mp merged
    split at merged
    · next unmarked =>
      cases merged
      exact .adopted called unique newer (fun diverges => by simp [diverges.1] at unmarked) loaded
    · next marked =>
      have marked : manifest.needSync = true := by simpa using marked
      split at merged
      · next matched =>
        cases merged
        exact .adopted called unique newer (fun diverges => by simp [diverges.2] at matched) loaded
      · next unmatched =>
        have diverges : manifest.Diverges remote := ⟨marked, by simpa using unmatched⟩
        split at merged
        · next own =>
          cases merged
          exact .acknowledged called unique newer diverges own
        · next foreign =>
          obtain ⟨children, solved, same⟩ := Except.bind_eq_ok_iff.mp merged
          cases same
          exact .reconciled called unique newer diverges foreign loaded
            (walks localFromRemote (Except.toOption_eq_some_iff.mpr loaded))
            (Except.mapError_eq_ok_iff.mp solved)

theorem changes_of_step (step : manifest.step? normalize event = some next) :
    FolderChanges normalize manifest event next := by
  unfold LocalFolderishManifest.step? at step
  split at step
  · next name childId called =>
    split at step
    · next fresh =>
      have created := Except.toOption_eq_some_iff.mp step
      simp only [entryCreate, Except.bind_eq_ok_iff, Except.require_eq_ok_iff, exists_const] at created
      exact .created called fresh created.1 (evolveParent_eq_ok_iff.mp created.2)
    · cases step
  · next called => exact changes_of_rename called (Except.toOption_eq_some_iff.mp step)
  · exact changes_of_delete (Except.toOption_eq_some_iff.mp step)
  · exact changes_of_delete (Except.toOption_eq_some_iff.mp step)
  · next called => exact .filtered called (Except.toOption_eq_some_iff.mp step)
  · next called =>
    split at step
    · next guard => exact changes_of_merge called guard.1 guard.2 (Except.toOption_eq_some_iff.mp step)
    · cases step

end Inversion

section Merge

variable {normalize : String → String} {conflict : ConflictingChildren} {ids : List EntryID}

/-- Placing distinct ids one after the other gives no id two names, and brings in no other id. -/
theorem injective_foldlM_place
    {place : Dict EntryName EntryID → EntryName × EntryID × List String →
      Except InvalidEntryName (Dict EntryName EntryID)}
    (inserts : ∀ children entry next, place children entry = .ok next →
      ∃ name, next = children.insert name entry.2.1)
    {entries : List (EntryName × EntryID × List String)} (distinct : (entries.map (·.2.1)).Nodup)
    {children result : Dict EntryName EntryID} (unique : children.Injective)
    (new : ∀ entry ∈ entries, entry.2.1 ∉ children.values)
    (placed : entries.foldlM place children = .ok result) :
    result.Injective ∧
      ∀ id ∈ result.values, id ∈ children.values ∨ id ∈ entries.map (·.2.1) := by
  induction entries generalizing children with
  | nil =>
    cases placed
    exact ⟨unique, fun id member => .inl member⟩
  | cons entry rest ih =>
    obtain ⟨once, distinct⟩ := List.nodup_cons.mp distinct
    obtain ⟨here, later⟩ := List.forall_mem_cons.mp new
    rw [List.foldlM_cons, Except.bind_eq_ok_iff] at placed
    obtain ⟨next, first, placed⟩ := placed
    obtain ⟨name, rfl⟩ := inserts _ _ _ first
    have values : ∀ id ∈ (children.insert name entry.2.1).values,
        id ∈ children.values ∨ id = entry.2.1 := by
      intro id member
      obtain ⟨other, found⟩ := Dict.mem_values_iff.mp member
      rw [Dict.get?_insert] at found
      split at found
      · cases found
        exact .inr rfl
      · exact .inl (Dict.mem_values_iff.mpr ⟨other, found⟩)
    obtain ⟨injective, known⟩ := ih distinct (unique.insert here name) (by
      intro other member again
      rcases values _ again with old | same
      · exact later other member old
      · exact once (List.mem_map.mpr ⟨other, member, same⟩)) placed
    refine ⟨injective, fun id member => ?_⟩
    rcases known id member with before | after
    · rcases values id before with old | rfl
      · exact .inl old
      · exact .inr List.mem_cons_self
    · exact .inr (List.mem_cons_of_mem _ after)

/-- A merge gives no id two names, and brings in no id that neither side had. -/
theorem mergeFolderChildren_injective (walk : conflict.IsWalk ids)
    {children : Dict EntryName EntryID}
    (merged : mergeFolderChildren normalize conflict ids = .ok children) :
    children.Injective ∧ ∀ id ∈ children.values,
      id ∈ conflict.localChildren.values ∨ id ∈ conflict.remoteChildren.values := by
  rw [ConflictingChildren.mergeFolderChildren_eq walk.1, Except.bind_eq_ok_iff] at merged
  obtain ⟨remotes, remotePhase, localPhase⟩ := merged
  have distinct : ∀ (child? : EntryID → Option (EntryName × EntryID × List String)),
      (∀ id entry, child? id = some entry → entry.2.1 = id) →
      ((ids.filterMap child?).map (·.2.1)).Nodup := by
    intro child? own
    rw [List.map_filterMap]
    apply walk.1.filterMap
    intro first second id foundFirst foundSecond
    obtain ⟨entry, atFirst, rfl⟩ := Option.map_eq_some_iff.mp foundFirst
    obtain ⟨other, atSecond, same⟩ := Option.map_eq_some_iff.mp foundSecond
    rw [← own first entry atFirst, ← own second other atSecond, same]
  have localOwn : ∀ id entry, conflict.localChild? id = some entry → entry.2.1 = id := by
    intro id entry found
    rw [(ConflictingChildren.localChild?_eq_some_iff.mp found).2]
  have remoteOwn : ∀ id entry, conflict.remoteChild? id = some entry → entry.2.1 = id :=
    fun id entry found => (ConflictingChildren.remoteChild?_eq_some_iff.mp found).2
  have walked : ∀ (child? : EntryID → Option (EntryName × EntryID × List String)),
      (∀ id entry, child? id = some entry → entry.2.1 = id) →
      ∀ id ∈ (ids.filterMap child?).map (·.2.1), id ∈ ids ∧ ∃ entry, child? id = some entry := by
    intro child? own id member
    obtain ⟨entry, found, rfl⟩ := List.mem_map.mp member
    obtain ⟨origin, inside, at'⟩ := List.mem_filterMap.mp found
    rw [own origin entry at']
    exact ⟨inside, entry, at'⟩
  obtain ⟨remoteUnique, remoteKnown⟩ := injective_foldlM_place (by
    intro children entry next placed
    simp only [placeRemoteChild, Except.bind_eq_ok_iff, Except.pure_eq_ok_iff] at placed
    obtain ⟨name, -, rfl⟩ := placed
    exact ⟨name, rfl⟩) (distinct _ remoteOwn) (by intro first second value found; cases found)
    (by intro entry member; exact List.not_mem_nil) remotePhase
  obtain ⟨localUnique, localKnown⟩ := injective_foldlM_place (by
    intro children entry next placed
    simp only [placeLocalChild, Except.bind_eq_ok_iff, Except.pure_eq_ok_iff] at placed
    obtain ⟨name, -, rfl⟩ := placed
    exact ⟨name, rfl⟩) (distinct _ localOwn) remoteUnique (by
      -- An id is solved on one side only.
      intro entry member again
      rcases remoteKnown _ again with nothing | remote
      · exact absurd nothing List.not_mem_nil
      · obtain ⟨-, other, solvedRemote⟩ := walked _ remoteOwn _ remote
        obtain ⟨-, same, solvedLocal⟩ := walked _ localOwn _ (List.mem_map.mpr ⟨entry, member, rfl⟩)
        have onRemote := (ConflictingChildren.remoteChild?_eq_some_iff.mp solvedRemote).1
        have onLocal := (ConflictingChildren.localChild?_eq_some_iff.mp solvedLocal).1
        rw [onRemote] at onLocal
        cases onLocal) localPhase
  refine ⟨localUnique, fun id member => (walk.2 id).mp ?_⟩
  rcases localKnown id member with remote | solved
  · rcases remoteKnown id remote with nothing | solved
    · exact absurd nothing List.not_mem_nil
    · exact (walked _ remoteOwn id solved).1
  · exact (walked _ localOwn id solved).1

end Merge

end Guardata
