import Guardata.Proofs.FileConflict
import Guardata.Soundness.MergeTotality
import Guardata.Soundness.UploadedBlocks

/-! # What a file conflict leaves

`file_conflict` is to keep the local version of a file under a new name, over chunks of its own. It stores
copies of the chunks, and then registers the new file over the old ones; so it only keeps what it promises
for a file without any chunk. And it copies the chunks first: a block that was never downloaded, or dropped
from the cache, ends it with chunks that nobody refers to, and so does a name that gets too long.
-/

namespace Guardata

open Machine Coroutine

/-- A file that was written, resized, reshaped and synchronized passes its assertions, over ids that
were drawn. -/
theorem FileSync.assertIntegrity_of_run {localAuthor : DeviceID} {system after : FileSync}
    {events : List FileSyncEvent} (opened : system.Opened)
    (keeps : Along (step? localAuthor) (fun system _ next => ¬ system.LosesBlock next) system events)
    (played : run? (step? localAuthor) system events = some after) :
    after.world.storage.manifest.assertIntegrity = .ok () ∧
      ∀ id ∈ fileIds after.world.storage.manifest.blocks, id < after.world.nextId := by
  obtain ⟨_, sound⟩ := exists_sound_of_run opened keeps played
  have wellFormed := sound.consistent.manifest
  obtain ⟨store, layout⟩ := wellFormed.layout
  exact ⟨assertIntegrity_eq_ok_iff.mpr layout.integrity, wellFormed.drawn⟩

namespace FileConflict

variable {device : DeviceContext} {storage : DeviceStorage} {entryId : EntryID}
  {localManifest current : LocalFileManifest} {parent : LocalFolderishManifest} {remote : RemoteFileManifest}

/-- The file and its parent are stored, the file passes its assertions, and every id that is in use
was drawn. -/
structure Conflicting (storage : DeviceStorage) (entryId : EntryID) (localManifest : LocalFileManifest)
    (parent : LocalFolderishManifest) (current : LocalFileManifest) : Prop where
  parentStored : storage.manifests localManifest.base.parent = some (.folder parent)
  fileStored : storage.manifests entryId = some (.file current)
  checked : current.assertIntegrity = .ok ()
  chunks : ∀ id ∈ fileIds current.blocks, id < storage.nextId
  stored : ∀ id, storage.chunkStorage id ≠ none → id < storage.nextId
  children : ∀ id ∈ parent.children.values, id < storage.nextId
  manifests : ∀ id, storage.manifests id ≠ none → id < storage.nextId

/-- The search for a name, for at most as many rounds as given. -/
def conflictName (device : DeviceContext) (parent : LocalFolderishManifest) (remote : RemoteFileManifest)
    (filename : EntryName) (rounds : ℕ) : Option (Except InvalidEntryName EntryName) :=
  getConflictFilename device.normalize filename parent.children.keys remote.author.toString rounds

theorem not_mem_keys_of_conflictName {filename newName : EntryName} {rounds : ℕ}
    (named : conflictName device parent remote filename rounds = some (.ok newName)) :
    newName ∉ parent.children.keys := by
  obtain ⟨round, free, full⟩ := exists_round_of_conflictFilenameFrom named
  exact fun member => free ⟨newName, member, full.symm⟩

namespace Conflicting

theorem run_getFolder (conflicting : Conflicting storage entryId localManifest parent current) :
    (getFolder localManifest.base.parent).run storage = some (.ok parent, storage) := by
  have loaded : (getManifest localManifest.base.parent).run storage = some (.ok (.folder parent),
    storage) := by
    rw [getManifest, run_observeOr, conflicting.parentStored]
  rw [getFolder, run_bind_of_ok _ loaded]
  rfl

theorem run_getFile (conflicting : Conflicting storage entryId localManifest parent current) :
    (getFile entryId).run storage = some (.ok current, storage) := by
  have loaded : (getManifest entryId).run storage = some (.ok (.file current), storage) := by
    rw [getManifest, run_observeOr, conflicting.fileStored]
  rw [getFile, run_bind_of_ok _ loaded]
  rfl

/-- A file that was removed from its parent is left alone. -/
theorem run_of_removed (conflicting : Conflicting storage entryId localManifest parent current)
    (removed : parent.getFilename entryId = none) (rounds : ℕ) :
    (fileConflict device rounds entryId localManifest remote).run storage =
    some (.ok (some ()), storage) := by
  rw [fileConflict, run_bind_of_ok _ conflicting.run_getFolder,
    run_bind_of_ok _ conflicting.run_getFile, removed]
  rfl

/-- The copy comes first, and ends with a chunk that is not stored. -/
theorem run_of_missing (conflicting : Conflicting storage entryId localManifest parent current)
    (device : DeviceContext) (remote : RemoteFileManifest) {filename : EntryName}
    (found : parent.getFilename entryId = some filename)
    (missing : ¬ ∀ id ∈ fileIds current.blocks, storage.held id ≠ none) :
    ∃ id after, ∀ rounds, (fileConflict device rounds entryId localManifest remote).run storage =
      some (.error (.localMiss id), after) := by
  have integrity := assertIntegrity_eq_ok_iff.mp conflicting.checked
  rcases run_foldlM_copyBlock integrity.proper integrity.occupied conflicting.chunks [] with
    ⟨all, -⟩ | ⟨-, id, after, failed⟩
  · exact absurd all missing
  · refine ⟨id, after, fun rounds => ?_⟩
    rw [fileConflict, run_bind_of_ok _ conflicting.run_getFolder,
      run_bind_of_ok _ conflicting.run_getFile, found]
    exact run_bind_of_error _ failed

/-- What the copy of a file leads to, by what the search for a name comes to. -/
structure Copied (device : DeviceContext) (storage middle : DeviceStorage) (entryId : EntryID)
    (localManifest : LocalFileManifest) (parent : LocalFolderishManifest) (current : LocalFileManifest)
    (remote : RemoteFileManifest) (filename : EntryName) : Prop where
  copies : storage.Copies middle
  nothing : current.blocks = [] → middle = storage
  adds : current.blocks ≠ [] → storage.Adds middle
  searching : ∀ rounds, conflictName device parent remote filename rounds = none →
    (fileConflict device rounds entryId localManifest remote).run storage = some (.ok none, middle)
  refused : ∀ rounds refused, conflictName device parent remote filename rounds = some (.error refused) →
    (fileConflict device rounds entryId localManifest remote).run storage =
      some (.error (.folder (.invalidEntryName refused)), middle)
  named : ∀ rounds newName, conflictName device parent remote filename rounds = some (.ok newName) →
    ∃ newParent : LocalFolderishManifest, newParent.children = parent.children.insert newName middle.nextId ∧
      (fileConflict device rounds entryId localManifest remote).run storage = some (.ok (some ()),
        registered device middle entryId localManifest.base.parent newParent current current.blocks remote)

theorem exists_copied (conflicting : Conflicting storage entryId localManifest parent current)
    (device : DeviceContext) (remote : RemoteFileManifest) {filename : EntryName}
    (found : parent.getFilename entryId = some filename)
    (all : ∀ id ∈ fileIds current.blocks, storage.held id ≠ none) :
    ∃ middle, Copied device storage middle entryId localManifest parent current remote filename := by
  have integrity := assertIntegrity_eq_ok_iff.mp conflicting.checked
  rcases run_foldlM_copyBlock integrity.proper integrity.occupied conflicting.chunks [] with
    ⟨-, middle, played, copies, nothing, adds⟩ | ⟨missing, -⟩
  · have step (rounds : ℕ) {outcome : Option (Except InvalidEntryName EntryName)}
        (searched : conflictName device parent remote filename rounds = outcome) :
        (fileConflict device rounds entryId localManifest remote).run storage =
          (outcome.elim (pure none) fun outcome => do
            let newName ← Coroutine.ofExcept (outcome.mapError fun refused => .folder
              (.invalidEntryName refused))
            registerConflict device entryId localManifest.base.parent parent current current.blocks newName
              remote
            return some () : ConflictCall (Option Unit)).run middle := by
      rw [fileConflict, run_bind_of_ok _ conflicting.run_getFolder,
        run_bind_of_ok _ conflicting.run_getFile, found]
      refine (run_bind_of_ok _ played).trans ?_
      rw [conflictName] at searched
      rw [searched]
      cases outcome <;> rfl
    refine ⟨middle, copies, nothing, adds, fun rounds searching => ?_, fun rounds refused named => ?_,
      fun rounds newName named => ?_⟩
    · rw [step rounds searching]
      rfl
    · rw [step rounds named]
      rfl
    · have fresh : middle.nextId ∉ parent.children.values := fun member =>
        absurd (conflicting.children _ member) copies.drawn.not_gt
      obtain ⟨newParent, evolved, children⟩ := exists_evolveChildren_insert
        (not_mem_keys_of_conflictName named) fresh device.patternFilter device.now
      refine ⟨newParent, children, ?_⟩
      rw [step rounds named, Option.elim_some]
      have ok : (Coroutine.ofExcept ((Except.ok newName : Except InvalidEntryName EntryName).mapError
          fun refused => ConflictError.folder (.invalidEntryName refused)) :
            ConflictCall EntryName).run middle =
            some (.ok newName, middle) := rfl
      rw [run_bind_of_ok _ ok, run_bind_of_ok _ (run_registerConflict evolved)]
      rfl
  · exact absurd all missing

end Conflicting

/-- What a resolved conflict should leave: the local contents as a new file over newly stored chunks of its
own,
under a fresh name, and the remote version in the place of the old file. -/
def KeepsBothContents (storage after : DeviceStorage) (entryId parentId : EntryID)
    (parent : LocalFolderishManifest) (current : LocalFileManifest) (remote : RemoteFileManifest) : Prop :=
  ∃ newId newName newManifest, ∃ newParent : LocalFolderishManifest, storage.manifests newId = none ∧
    after.manifests newId = some (.file newManifest) ∧ newManifest.assertIntegrity = .ok () ∧
    (∀ size offset, chunksContent after.held (prepareRead newManifest size offset) =
      chunksContent storage.held (prepareRead current size offset)) ∧
    after.manifests entryId = some (.file (.fromRemote remote)) ∧
    after.manifests parentId = some (.folder newParent) ∧ newName ∉ parent.children.keys ∧
    newParent.children = parent.children.insert newName newId ∧
    (∀ id, id ∈ fileIds newManifest.blocks ↔
      storage.chunkStorage id = none ∧ after.chunkStorage id ≠ none) ∧
    ∀ other manifest, other ≠ newId → after.manifests other = some (.file manifest) →
      Disjoint (fileIds newManifest.blocks) (fileIds manifest.blocks)

section Contents

variable {middle : DeviceStorage} {newParent : LocalFolderishManifest} {parentId : EntryID}

/-- The placeholder of the conflict file. -/
def conflictManifest (device : DeviceContext) (parentId newId : EntryID) (current : LocalFileManifest) :
    LocalFileManifest :=
  { LocalFileManifest.newPlaceholder device.localAuthor parentId newId device.now defaultBlockSize with
    size := current.size, blocks := current.blocks }

theorem manifests_registered (id : EntryID) :
    (registered device middle entryId parentId newParent current current.blocks remote).manifests id =
      if id = entryId then some (.file (.fromRemote remote))
      else if id = parentId then some (.folder newParent)
      else if id = middle.nextId then some (.file (conflictManifest device parentId middle.nextId current))
      else middle.manifests id := by
  simp only [registered, DeviceStorage.set, Function.update_apply, conflictManifest]

theorem chunkStorage_of_registered {id : ChunkID} {data : Bytes}
    (stored : (registered device middle entryId parentId newParent current current.blocks remote).chunkStorage id =
      some data) : middle.chunkStorage id = some data := by
  simp only [registered, DeviceStorage.set] at stored
  repeat' split at stored
  all_goals first | exact stored | cases stored

/-- A call that completes has registered the conflict, unless the file was removed. -/
theorem exists_registered (conflicting : Conflicting storage entryId localManifest parent current)
    {filename : EntryName} (found : parent.getFilename entryId = some filename)
    (all : ∀ id ∈ fileIds current.blocks, storage.held id ≠ none) {rounds : ℕ} {after : DeviceStorage}
    (completed : (fileConflict device rounds entryId localManifest remote).run storage =
      some (.ok (some ()), after)) :
    ∃ middle newName, ∃ newParent : LocalFolderishManifest, storage.Copies middle ∧
      (current.blocks = [] → middle = storage) ∧ newName ∉ parent.children.keys ∧
      newParent.children = parent.children.insert newName middle.nextId ∧
      after = registered device middle entryId localManifest.base.parent newParent current current.blocks
        remote := by
  obtain ⟨middle, copied⟩ := conflicting.exists_copied device remote found all
  cases named : conflictName device parent remote filename rounds with
  | none => cases completed.symm.trans (copied.searching rounds named)
  | some outcome =>
    cases outcome with
    | error refused => cases completed.symm.trans (copied.refused rounds refused named)
    | ok newName =>
      obtain ⟨newParent, children, played⟩ := copied.named rounds newName named
      cases completed.symm.trans played
      exact ⟨middle, newName, newParent, copied.copies, copied.nothing, not_mem_keys_of_conflictName named,
        children, rfl⟩

/-- A file with chunks is not kept as it should be: the new file refers to the old chunks. -/
theorem blocks_eq_nil_of_keeps (conflicting : Conflicting storage entryId localManifest parent current)
    (all : ∀ id ∈ fileIds current.blocks, storage.held id ≠ none) {rounds : ℕ} {after : DeviceStorage}
    (completed : (fileConflict device rounds entryId localManifest remote).run storage =
      some (.ok (some ()), after))
    (keeps : KeepsBothContents storage after entryId localManifest.base.parent parent current remote) :
    parent.getFilename entryId ≠ none ∧ current.blocks = [] := by
  obtain ⟨newId, _, newManifest, _, new, stands, -, -, -, -, -, -, ids, -⟩ := keeps
  cases found : parent.getFilename entryId with
  | none =>
    cases completed.symm.trans (conflicting.run_of_removed found rounds)
    rw [new] at stands
    cases stands
  | some filename =>
    refine ⟨Option.some_ne_none filename, ?_⟩
    obtain ⟨middle, newName, newParent, copies, -, -, -, rfl⟩ :=
      exists_registered conflicting found all completed
    have blocks : newManifest.blocks = current.blocks := by
      rw [manifests_registered, if_neg (by rintro rfl; rw [conflicting.fileStored] at new; cases new),
        if_neg (by rintro rfl; rw [conflicting.parentStored] at new; cases new)] at stands
      split at stands
      · cases stands
        rfl
      · rw [copies.manifests, new] at stands
        cases stands
    by_contra something
    obtain ⟨chunks, rest, split⟩ := List.exists_cons_of_ne_nil something
    have member : chunks ∈ current.blocks := by rw [split]; exact List.mem_cons_self
    obtain ⟨chunk, others, whole⟩ := List.exists_cons_of_ne_nil
      ((assertIntegrity_eq_ok_iff.mp conflicting.checked).occupied chunks member)
    have inside : chunk.id ∈ fileIds current.blocks :=
      mem_fileIds.mpr ⟨chunks, member, mem_chunkIdSet.mpr
        ⟨chunk, by rw [whole]; exact List.mem_cons_self, rfl⟩⟩
    rw [← blocks] at inside
    obtain ⟨before, later⟩ := (ids chunk.id).mp inside
    obtain ⟨data, stored⟩ := Option.ne_none_iff_exists'.mp later
    have copied := chunkStorage_of_registered stored
    rw [copies.old _ (conflicting.chunks _ (blocks ▸ inside)), before] at copied
    cases copied

/-- A file without any chunk is kept as it should be. -/
theorem keeps_of_blocks_eq_nil (conflicting : Conflicting storage entryId localManifest parent current)
    (found : parent.getFilename entryId ≠ none) (nothing : current.blocks = []) {rounds : ℕ}
    {after : DeviceStorage}
    (completed : (fileConflict device rounds entryId localManifest remote).run storage =
      some (.ok (some ()), after)) :
    KeepsBothContents storage after entryId localManifest.base.parent parent current remote := by
  have integrity := assertIntegrity_eq_ok_iff.mp conflicting.checked
  obtain ⟨filename, found⟩ := Option.ne_none_iff_exists'.mp found
  have noIds : fileIds current.blocks = ∅ := by rw [nothing]; rfl
  obtain ⟨middle, newName, newParent, -, same, absent, children, rfl⟩ :=
    exists_registered conflicting found (by simp [noIds]) completed
  obtain rfl := same nothing
  have unread : ∀ manifest : LocalFileManifest, manifest.blocks = [] → ∀ size offset,
      prepareRead manifest size offset = [] := by
    intro manifest empty size offset
    refine List.eq_nil_iff_forall_not_mem.mpr fun chunk member => ?_
    obtain ⟨origin, inside, -⟩ := mem_prepareRead member
    rw [empty] at inside
    cases inside
  have older : ∀ id manifest, middle.manifests id = some manifest → id ≠ middle.nextId :=
    fun id manifest stands => (conflicting.manifests id (by rw [stands]; exact Option.some_ne_none _)).ne
  have notParent : localManifest.base.parent ≠ entryId := by
    intro same
    have stands := conflicting.parentStored
    rw [same, conflicting.fileStored] at stands
    cases stands
  refine ⟨middle.nextId, newName, conflictManifest device localManifest.base.parent middle.nextId current,
    newParent, ?_, ?_, ?_, ?_, ?_, ?_, absent, children, ?_, ?_⟩
  · by_contra some
    exact lt_irrefl _ (conflicting.manifests _ some)
  · rw [manifests_registered, if_neg (older _ _ conflicting.fileStored).symm,
      if_neg (older _ _ conflicting.parentStored).symm, if_pos rfl]
  · refine assertIntegrity_eq_ok_iff.mpr ⟨?_, ?_, ?_, fun _ => integrity.nothing nothing⟩
    · simp [conflictManifest, nothing]
    · simp [conflictManifest, nothing]
    · simp [conflictManifest, nothing]
  · intro size offset
    have unreadNew := unread (conflictManifest device localManifest.base.parent middle.nextId current) nothing
    rw [unread current nothing, unreadNew]
    rfl
  · rw [manifests_registered, if_pos rfl]
  · rw [manifests_registered, if_neg notParent, if_pos rfl]
  · intro id
    change id ∈ fileIds current.blocks ↔ _
    rw [noIds]
    refine iff_of_false (Finset.notMem_empty id) ?_
    rintro ⟨before, later⟩
    obtain ⟨data, stored⟩ := Option.ne_none_iff_exists'.mp later
    rw [chunkStorage_of_registered stored] at before
    cases before
  · intro other manifest _ _
    change Disjoint (fileIds current.blocks) _
    rw [noIds]
    exact Finset.disjoint_empty_left _

end Contents

/-- Whenever `file_conflict` completes, both contents are kept exactly if the file still stands in
its parent and has no chunks. -/
theorem conflict_keeps_both_contents_iff (device : DeviceContext) (storage : DeviceStorage)
    (entryId : EntryID)
    (localManifest current : LocalFileManifest) (parent : LocalFolderishManifest)
    (remote : RemoteFileManifest)
    (conflicting : Conflicting storage entryId localManifest parent current)
    (all : ∀ id ∈ fileIds current.blocks, storage.held id ≠ none) (rounds : ℕ) (after : DeviceStorage)
    (completed : (fileConflict device rounds entryId localManifest remote).run storage =
      some (.ok (some ()), after)) :
    KeepsBothContents storage after entryId localManifest.base.parent parent current remote ↔
      parent.getFilename entryId ≠ none ∧ current.blocks = [] :=
  ⟨blocks_eq_nil_of_keeps conflicting all completed,
    fun ⟨found, nothing⟩ => keeps_of_blocks_eq_nil conflicting found nothing completed⟩

/-- The call completes, or raises something else than `FSLocalMissError` and leaves every manifest
and chunk alone. -/
def Resolves (device : DeviceContext) (storage : DeviceStorage) (entryId : EntryID)
    (localManifest : LocalFileManifest) (remote : RemoteFileManifest) : Prop :=
  (∃ rounds after, (fileConflict device rounds entryId localManifest remote).run storage =
    some (.ok (some ()), after)) ∨
  ∃ rounds error after, (fileConflict device rounds entryId localManifest remote).run storage =
    some (.error error, after) ∧ (∀ id, error ≠ .localMiss id) ∧ after.manifests = storage.manifests ∧
      after.chunkStorage = storage.chunkStorage

section Resolution

/-- The search for a name ends. -/
theorem exists_conflictName (device : DeviceContext) (parent : LocalFolderishManifest) {filename : EntryName}
    (bare : NoSeparators filename) (clean : NoSeparators remote.author.toString) :
    ∃ rounds outcome, conflictName device parent remote filename rounds = some outcome := by
  obtain ⟨round, free⟩ : ∃ round, ¬ IsTaken device.normalize filename parent.children.keys
      remote.author.toString round := exists_not_isTaken bare clean
  obtain ⟨first, -, past, free⟩ := exists_first_not_isTaken free
  exact ⟨first + 1, _, getConflictFilename_of_first past free⟩

/-- What was added by a copy has not been there. -/
theorem chunkStorage_ne_of_adds (conflicting : Conflicting storage entryId localManifest parent current)
    {middle : DeviceStorage} (adds : storage.Adds middle) : middle.chunkStorage ≠ storage.chunkStorage := by
  obtain ⟨id, lower, -, stored⟩ := adds
  intro same
  rw [same] at stored
  exact absurd (conflicting.stored id stored) lower.not_gt

theorem resolves_of_condition (conflicting : Conflicting storage entryId localManifest parent current)
    {filename : EntryName} (found : parent.getFilename entryId = some filename) (bare : NoSeparators filename)
    (clean : NoSeparators remote.author.toString)
    (all : ∀ id ∈ fileIds current.blocks, storage.held id ≠ none)
    (room : current.blocks = [] ∨ ∃ rounds newName,
      conflictName device parent remote filename rounds = some (.ok newName)) :
    Resolves device storage entryId localManifest remote := by
  obtain ⟨middle, copied⟩ := conflicting.exists_copied device remote found all
  obtain ⟨rounds, outcome, ended, kind⟩ : ∃ rounds outcome,
      conflictName device parent remote filename rounds = some outcome ∧
      (current.blocks = [] ∨ ∃ newName, outcome = .ok newName) := by
    rcases room with nothing | ⟨rounds, newName, named⟩
    · obtain ⟨rounds, outcome, ended⟩ := exists_conflictName device parent bare clean
      exact ⟨rounds, outcome, ended, .inl nothing⟩
    · exact ⟨rounds, _, named, .inr ⟨newName, rfl⟩⟩
  cases outcome with
  | ok newName =>
    obtain ⟨newParent, -, played⟩ := copied.named rounds newName ended
    exact .inl ⟨rounds, _, played⟩
  | error refused =>
    obtain rfl := copied.nothing (kind.resolve_right (by rintro ⟨_, same⟩; cases same))
    exact .inr ⟨rounds, _, _, copied.refused rounds refused ended,
      fun id => ConflictError.noConfusion, rfl, rfl⟩

theorem condition_of_resolves (conflicting : Conflicting storage entryId localManifest parent current)
    {filename : EntryName} (found : parent.getFilename entryId = some filename)
    (resolves : Resolves device storage entryId localManifest remote) :
    (∀ id ∈ fileIds current.blocks, storage.held id ≠ none) ∧ (current.blocks = [] ∨ ∃ rounds newName,
      conflictName device parent remote filename rounds = some (.ok newName)) := by
  by_cases all : ∀ id ∈ fileIds current.blocks, storage.held id ≠ none
  · refine ⟨all, ?_⟩
    obtain ⟨middle, copied⟩ := conflicting.exists_copied device remote found all
    by_cases nothing : current.blocks = []
    · exact .inl nothing
    · have changed := chunkStorage_ne_of_adds conflicting (copied.adds nothing)
      rcases resolves with ⟨rounds, after, completed⟩ | ⟨rounds, error, after, raised, -, -, same⟩
      · cases named : conflictName device parent remote filename rounds with
        | none => cases completed.symm.trans (copied.searching rounds named)
        | some outcome =>
          cases outcome with
          | ok newName => exact .inr ⟨rounds, newName, named⟩
          | error refused => cases completed.symm.trans (copied.refused rounds refused named)
      · cases named : conflictName device parent remote filename rounds with
        | none => cases raised.symm.trans (copied.searching rounds named)
        | some outcome =>
          cases outcome with
          | ok newName => exact .inr ⟨rounds, newName, named⟩
          | error refused =>
            cases raised.symm.trans (copied.refused rounds refused named)
            exact absurd same changed
  · obtain ⟨id, last, failed⟩ := conflicting.run_of_missing device remote found all
    rcases resolves with ⟨rounds, after, completed⟩ | ⟨rounds, error, after, raised, other, -⟩
    · cases completed.symm.trans (failed rounds)
    · cases raised.symm.trans (failed rounds)
      exact absurd rfl (other id)

end Resolution

/-- A file conflict is resolved exactly if the file was removed from its parent; or all of its chunks are
stored,
and it has none or there is a name for the conflict file that is not too long. -/
theorem conflict_is_resolved_iff (device : DeviceContext) (storage : DeviceStorage) (entryId : EntryID)
    (localManifest current : LocalFileManifest) (parent : LocalFolderishManifest)
    (remote : RemoteFileManifest)
    (conflicting : Conflicting storage entryId localManifest parent current)
    (bare : ∀ name ∈ parent.children.keys, NoSeparators name) (clean : NoSeparators remote.author.toString) :
    Resolves device storage entryId localManifest remote ↔
      ∀ filename, parent.getFilename entryId = some filename →
        (∀ id ∈ fileIds current.blocks, storage.held id ≠ none) ∧
        (current.blocks = [] ∨ ∃ rounds newName,
          conflictName device parent remote filename rounds = some (.ok newName)) := by
  constructor
  · exact fun resolves filename found => condition_of_resolves conflicting found resolves
  · intro condition
    cases found : parent.getFilename entryId with
    | none => exact .inl ⟨0, storage, conflicting.run_of_removed found 0⟩
    | some filename =>
      obtain ⟨all, room⟩ := condition filename found
      obtain ⟨entry, first, rfl⟩ := Option.map_eq_some_iff.mp found
      have known := List.mem_map_of_mem (f := Prod.fst) (List.mem_of_find?_eq_some first)
      exact resolves_of_condition conflicting found (bare _ known) clean all room

section Examples

private def bobDevice : DeviceID := ⟨"bob", "laptop"⟩

private def aliceContext : DeviceContext where
  localAuthor := ⟨"alice", "laptop"⟩
  patternFilter _ := false
  normalize := id
  now := 9

/-- The folder `1` with the file `2`. -/
private def listing : LocalFolderishManifest :=
  { LocalFolderishManifest.newPlaceholder aliceContext.localAuthor 1 .none 0 with
    children := ⟨[("a", 2)], List.nodup_singleton _⟩ }

/-- Another device has emptied the file. -/
private def emptied : RemoteFileManifest := ⟨bobDevice, 8, 2, 1, 2, 0, 8, 0, 512, []⟩

private theorem conflictName_listing :
    conflictName aliceContext listing emptied "a" 1 = some (.ok "a (conflicting with bob@laptop)") := by
  have full : fullName id "a" [conflictSuffix "bob@laptop" 0] = .ok "a (conflicting with bob@laptop)" := by
    rw [fullName, if_neg (by decide), if_pos (by decide), EntryName.new_eq_ok_iff]
    decide
  have free : ¬ IsTaken id "a" ["a"] "bob@laptop" 0 := by
    rintro ⟨taken, member, same⟩
    cases full.symm.trans same
    exact absurd member (by decide)
  exact (getConflictFilename_of_first (by simp) free).trans (congrArg some full)

private def emptyFile : LocalFileManifest :=
  { LocalFileManifest.fromRemote ⟨aliceContext.localAuthor, 0, 2, 1, 1, 0, 0, 0, 512,
    []⟩ with needSync := true }

/-- One byte, in the chunk `5`. -/
private def oneByte : LocalFileManifest :=
  { emptyFile with size := 1, blocks := [[⟨5, 0, 1, 0, 1, .none⟩]] }

private def holding (file : LocalFileManifest) : DeviceStorage where
  manifests := Function.update (Function.update (fun _ => .none) 1 (some (.folder listing))) 2
    (some (.file file))
  chunkStorage := Function.update (fun _ => .none) 5 (some [7])
  nextId := 6

private theorem conflicting_holding {file : LocalFileManifest} (checked : file.assertIntegrity = .ok ())
    (chunks : ∀ id ∈ fileIds file.blocks, id = 5) : Conflicting (holding file) 2 emptyFile listing file where
  parentStored := rfl
  fileStored := rfl
  checked := checked
  chunks id member := by
    rw [chunks id member]
    exact Nat.lt_succ_self 5
  stored id stored := by
    by_contra high
    have other : id ≠ 5 := by
      rintro rfl
      exact high (Nat.lt_succ_self 5)
    exact stored (by simp only [holding, Function.update_of_ne other])
  children id member := by
    obtain rfl := List.mem_singleton.mp member
    exact (by decide : 2 < 6)
  manifests id stored := by
    by_contra high
    have first : id ≠ 2 := by
      rintro rfl
      exact high (by decide : 2 < 6)
    have second : id ≠ 1 := by
      rintro rfl
      exact high (by decide : 1 < 6)
    exact stored ((Function.update_of_ne first _ _).trans (Function.update_of_ne second _ _))

private theorem completes_holding {file : LocalFileManifest}
    (conflicting : Conflicting (holding file) 2 emptyFile listing file)
    (all : ∀ id ∈ fileIds file.blocks, (holding file).held id ≠ none) :
    ∃ after, (fileConflict aliceContext 1 2 emptyFile emptied).run (holding file) =
    some (.ok (some ()), after) := by
  obtain ⟨middle, copied⟩ := conflicting.exists_copied aliceContext emptied (by rfl) all
  obtain ⟨newParent, -, played⟩ := copied.named 1 _ conflictName_listing
  exact ⟨_, played⟩

/-- The conflict over an empty file is resolved. -/
theorem conflict_keeps_both_contents_iff_empty : ∃ after,
    (fileConflict aliceContext 1 2 emptyFile emptied).run (holding emptyFile) = some (.ok (some ()), after) ∧
      KeepsBothContents (holding emptyFile) after 2 1 listing emptyFile emptied := by
  have noChunk : ∀ id, id ∉ fileIds emptyFile.blocks := Finset.notMem_empty
  have conflicting : Conflicting (holding emptyFile) 2 emptyFile listing emptyFile :=
    conflicting_holding (by decide) fun id member => absurd member (noChunk id)
  have all : ∀ id ∈ fileIds emptyFile.blocks, (holding emptyFile).held id ≠ none :=
    fun id member => absurd member (noChunk id)
  obtain ⟨after, completed⟩ := completes_holding conflicting all
  refine ⟨after, completed, ?_⟩
  exact (conflict_keeps_both_contents_iff aliceContext
    (holding emptyFile) 2 emptyFile emptyFile listing emptied
    conflicting all 1 after completed).mpr ⟨Option.some_ne_none "a", rfl⟩

private theorem conflicting_oneByte : Conflicting (holding oneByte) 2 emptyFile listing oneByte :=
  conflicting_holding (by decide) (by decide)

private theorem held_oneByte (id : ChunkID) (member : id ∈ fileIds oneByte.blocks) :
    (holding oneByte).held id ≠ none := by
  obtain rfl : id = 5 := (by decide : ∀ id ∈ fileIds oneByte.blocks, id = 5) id member
  exact Option.some_ne_none [7]

/-- The conflict over a file of one byte ends with two files over one chunk. -/
theorem conflict_file_keeps_old_chunks : Conflicting (holding oneByte) 2 emptyFile listing oneByte ∧
    (∀ id ∈ fileIds oneByte.blocks, (holding oneByte).held id ≠ none) ∧ ∃ after,
      (fileConflict aliceContext 1 2 emptyFile emptied).run (holding oneByte) = some (.ok (some ()), after) ∧
        ¬ KeepsBothContents (holding oneByte) after 2 1 listing oneByte emptied := by
  obtain ⟨after, completed⟩ := completes_holding conflicting_oneByte held_oneByte
  refine ⟨conflicting_oneByte, held_oneByte, after, completed, fun keeps => ?_⟩
  exact absurd (blocks_eq_nil_of_keeps conflicting_oneByte held_oneByte completed keeps).2 (List.cons_ne_nil _ _)

/-- The conflict over a file of one byte is resolved: the byte is on the device, and a name is free. -/
theorem conflict_is_resolved_iff_oneByte : Resolves aliceContext (holding oneByte) 2 emptyFile emptied := by
  refine (conflict_is_resolved_iff aliceContext (holding oneByte) 2 emptyFile oneByte listing emptied
    conflicting_oneByte ?_ (by decide)).mpr ?_
  · intro name member
    obtain rfl := List.mem_singleton.mp member
    decide
  · rintro filename ⟨⟩
    exact ⟨held_oneByte, .inr ⟨1, _, conflictName_listing⟩⟩

open FileSync

/-- Two blocks that the device has not downloaded. -/
private def twoBlocks : RemoteFileManifest :=
  ⟨bobDevice, 0, 2, 1, 1, 0, 0, 9, 8,
    [⟨0, ⟨1⟩, 0, 8, .fromData [1, 2, 3, 4, 5, 6, 7, 8]⟩, ⟨1, ⟨1⟩, 8, 1, .fromData [9]⟩]⟩

private def undownloaded : FileSync where
  world := {
    storage := { manifest := .fromRemote twoBlocks, openFds := {1} }
    backend := {
      blocks := fun id => if id = 0 then some ⟨⟨1⟩, [1, 2, 3, 4, 5, 6, 7, 8]⟩
        else if id = 1 then some ⟨⟨1⟩, [9]⟩ else .none
      versions := [twoBlocks, emptied] }
    nextId := 2 }

/-- The first block is overwritten, and the other device's version is met. -/
private def overwriteAndSync : List FileSyncEvent :=
  .call 0 (.write 1 [0, 0, 0, 0, 0, 0, 0, 0] 0 false) :: List.replicate 15 (.proceed 0 false) ++
    .syncById 1 true false :: List.replicate 4 (.proceed 1 false)

private def deviceStorage (world : World) : DeviceStorage where
  manifests := Function.update (Function.update (fun _ => .none) 1 (some (.folder listing))) 2
    (some (.file world.storage.manifest))
  chunkStorage := world.storage.chunkStorage
  blockStorage := world.storage.blockStorage
  nextId := world.nextId

private theorem wellFormed_twoBlocks : twoBlocks.WellFormed 2 := by
  refine ⟨by decide, ⟨fun id => if id = 0 then some [1, 2, 3, 4, 5, 6, 7, 8] else some [9], ?_⟩, by decide,
    by decide⟩
  have either {block : ℕ} {chunks : List Chunk}
      (found : (LocalFileManifest.fromRemote twoBlocks).blocks[block]? = some chunks) : block = 0 ∨
        block = 1 := by
    have bound := (List.getElem?_eq_some_iff.mp found).1
    change block < 2 at bound
    omega
  refine ⟨fun block => ?_, fun block chunks found => ?_, ?_, ?_,
    fun first second left right here there other => ?_⟩
  · change block < 2 ↔ block * 8 < 9
    omega
  · rcases either found with rfl | rfl
    · cases found
      exact ⟨rfl, ⟨by decide, by decide, by decide⟩, rfl⟩
    · cases found
      exact ⟨rfl, ⟨by decide, by decide, by decide⟩, rfl⟩
  · unfold Proper
    decide
  · intro chunks listed chunk inside
    rcases List.mem_pair.mp listed with rfl | rfl
    · obtain rfl := List.mem_singleton.mp inside
      exact ⟨_, rfl, rfl⟩
    · obtain rfl := List.mem_singleton.mp inside
      exact ⟨_, rfl, rfl⟩
  · rcases either here with rfl | rfl <;> rcases either there with rfl | rfl
    · exact absurd rfl other
    · cases here
      cases there
      decide
    · cases here
      cases there
      decide
    · exact absurd rfl other

private theorem wellFormed_emptied : emptied.WellFormed 2 :=
  ⟨by decide, ⟨fun _ => .none, FileLayout.empty _ 512⟩, by decide, by decide⟩

private theorem opened_undownloaded : undownloaded.Opened where
  idle _ := rfl
  unlocked := rfl
  written := rfl
  clean id data stored := by cases stored
  versions version member := by
    rcases List.mem_pair.mp member with rfl | rfl
    · refine ⟨wellFormed_twoBlocks, fun access listed => ?_⟩
      rcases List.mem_pair.mp listed with rfl | rfl
      · exact ⟨_, rfl⟩
      · exact ⟨_, rfl⟩
    · exact ⟨wellFormed_emptied, fun access listed => absurd listed List.not_mem_nil⟩
  manifest := .inr ⟨twoBlocks, List.mem_cons_self, rfl⟩

/-- A file with one block overwritten and the other one never downloaded: the first is copied, the
call raises at the second. -/
theorem conflict_copies_and_raises : undownloaded.Opened ∧ ∃ reached,
    run? (step? aliceContext.localAuthor) undownloaded overwriteAndSync = some reached ∧
      mergeFileManifests aliceContext.localAuthor reached.world.storage.manifest (some emptied) =
        .error .fileConflict ∧
      ¬ Resolves aliceContext (deviceStorage reached.world) 2 reached.world.storage.manifest emptied := by
  have outcome : (run? (step? aliceContext.localAuthor) undownloaded overwriteAndSync).map (fun reached =>
      (mergeFileManifests aliceContext.localAuthor reached.world.storage.manifest (some emptied),
        fun rounds => ((fileConflict aliceContext rounds 2 reached.world.storage.manifest emptied).run
          (deviceStorage reached.world)).map fun ended => ended.1)) =
      some (.error .fileConflict, fun _ => some (.error (.localMiss 1))) := by rfl
  obtain ⟨reached, played, same⟩ := Option.map_eq_some_iff.mp outcome
  obtain ⟨conflict, raises⟩ := Prod.mk.inj same
  refine ⟨opened_undownloaded, reached, played, conflict, ?_⟩
  rintro (⟨rounds, after, completed⟩ | ⟨rounds, error, after, raised, other, -⟩)
  · have ended := congrFun raises rounds
    rw [completed] at ended
    cases ended
  · have ended := congrFun raises rounds
    rw [raised] at ended
    cases ended
    exact other 1 rfl

end Examples

end FileConflict

end Guardata
