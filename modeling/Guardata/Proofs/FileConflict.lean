import Guardata.Model.FileConflict
import Guardata.Proofs.EntryTransactions
import Guardata.Proofs.FileIntegrity

/-! # Resolving a file conflict, played alone

Copying a chunk draws ids and stores its data under one of them; what was stored before stays. A chunk that
is not stored ends the copy, whatever was copied before it.
-/

namespace Guardata

open Machine Coroutine

/-- All that a copy changes is that more ids are drawn, and data is stored under some of them. -/
structure DeviceStorage.Copies (storage after : DeviceStorage) : Prop where
  manifests : after.manifests = storage.manifests
  ahead : after.aheadOfLocaldb = storage.aheadOfLocaldb
  blocks : after.blockStorage = storage.blockStorage
  drawn : storage.nextId ≤ after.nextId
  old : ∀ id < storage.nextId, after.chunkStorage id = storage.chunkStorage id
  new : ∀ id, after.nextId ≤ id → after.chunkStorage id = storage.chunkStorage id

/-- Something was stored under a new id. -/
def DeviceStorage.Adds (storage after : DeviceStorage) : Prop :=
  ∃ id, storage.nextId ≤ id ∧ id < after.nextId ∧ after.chunkStorage id ≠ none

namespace DeviceStorage

variable {storage middle after : DeviceStorage}

theorem Copies.refl (storage : DeviceStorage) : storage.Copies storage :=
  ⟨rfl, rfl, rfl, le_rfl, fun _ _ => rfl, fun _ _ => rfl⟩

theorem Copies.trans (first : storage.Copies middle) (second : middle.Copies after) :
    storage.Copies after where
  manifests := second.manifests.trans first.manifests
  ahead := second.ahead.trans first.ahead
  blocks := second.blocks.trans first.blocks
  drawn := first.drawn.trans second.drawn
  old id before := (second.old id (before.trans_le first.drawn)).trans (first.old id before)
  new id beyond := (second.new id beyond).trans (first.new id (second.drawn.trans beyond))

theorem Copies.held (copies : storage.Copies after) {id : ChunkID} (known : id < storage.nextId) :
    after.held id = storage.held id := by
  rw [DeviceStorage.held, DeviceStorage.held, copies.old id known, copies.blocks]

theorem Adds.of_left (adds : storage.Adds middle) (copies : middle.Copies after) : storage.Adds after := by
  obtain ⟨id, lower, upper, stored⟩ := adds
  exact ⟨id, lower, upper.trans_le copies.drawn, by rwa [copies.old id upper]⟩

end DeviceStorage

namespace FileConflict

variable {storage : DeviceStorage}

theorem run_getChunk (id : ChunkID) : (getChunk id).run storage =
    some ((storage.held id).elim (.error (.localMiss id)) .ok, storage) := by
  rw [getChunk, run_observeOr]
  cases storage.held id <;> rfl

theorem run_drawId (storage : DeviceStorage) : drawId.run storage =
    some (.ok storage.nextId, { storage with nextId := storage.nextId + 1 }) := rfl

section Copy

/-- The storage after one round: the data is under the next id. -/
def copied (storage : DeviceStorage) (count : ℕ) (data : Bytes) : DeviceStorage :=
  { storage with
    chunkStorage := Function.update storage.chunkStorage storage.nextId (some data)
    nextId := if count = 1 then storage.nextId + 2 else storage.nextId + 1 }

theorem copies_copied (count : ℕ) (data : Bytes) : storage.Copies (copied storage count data) := by
  have drawn : storage.nextId + 1 ≤ (copied storage count data).nextId := by
    simp only [copied]
    split <;> omega
  exact ⟨rfl, rfl, rfl, by omega, fun id before => Function.update_of_ne before.ne _ _,
    fun id beyond => Function.update_of_ne (Nat.lt_of_succ_le (drawn.trans beyond)).ne' _ _⟩

theorem adds_copied (count : ℕ) (data : Bytes) : storage.Adds (copied storage count data) := by
  refine ⟨storage.nextId, le_rfl, ?_, ?_⟩
  · simp only [copied]
    split <;> omega
  · change Function.update storage.chunkStorage storage.nextId (some data) storage.nextId ≠ none
    rw [Function.update_self]
    exact Option.some_ne_none data

/-- The step lemma: a chunk that is stored is copied. -/
theorem run_copyChunk {chunk : Chunk} {data : Bytes} (found : storage.held chunk.id = some data)
    (proper : chunk.start < chunk.stop) (count : ℕ) (newChunks : List Chunk) :
    (copyChunk count newChunks chunk).run storage =
      some (.ok (newChunks ++ [chunk]), copied storage count data) := by
  have loaded : (getChunk chunk.id).run storage = _ := run_getChunk chunk.id
  rw [found] at loaded
  have created : Chunk.new storage.nextId chunk.start chunk.stop =
      .ok ⟨storage.nextId, chunk.start, chunk.stop, chunk.start, chunk.stop - chunk.start, none⟩ := by
    rw [Chunk.new, Except.require, if_pos proper]
    rfl
  have stored : (setChunk storage.nextId data).run { storage with nextId := storage.nextId + 1 } =
    some (.ok (),
      { storage with
        nextId := storage.nextId + 1
        chunkStorage := Function.update storage.chunkStorage storage.nextId (some data) }) := rfl
  have checked : (Coroutine.ofExcept ((Chunk.new storage.nextId chunk.start chunk.stop).mapError
      ConflictError.file) : ConflictCall Chunk).run { storage with nextId := storage.nextId + 1 } = some (.ok
        ⟨storage.nextId, chunk.start, chunk.stop, chunk.start, chunk.stop - chunk.start, none⟩,
        { storage with nextId := storage.nextId + 1 }) := by
    rw [created]
    rfl
  rw [copyChunk, run_bind_of_ok _ loaded, run_bind_of_ok _ (run_drawId storage), run_bind_of_ok _ checked,
    run_bind_of_ok _ stored, copied]
  split
  · simp only [Chunk.evolveAsBlock, Chunk.isBlock, Bool.false_eq_true, if_false, Except.require, if_true]
    rfl
  · rfl

theorem run_copyChunk_of_miss {chunk : Chunk} (missing : storage.held chunk.id = none) (count : ℕ)
    (newChunks : List Chunk) :
    (copyChunk count newChunks chunk).run storage = some (.error (.localMiss chunk.id), storage) := by
  have refused : (getChunk chunk.id).run storage = _ := run_getChunk chunk.id
  rw [missing] at refused
  rw [copyChunk, run_bind_of_error _ refused]

/-- The run lemma of the inner loop: the chunks of the block are copied, or one of them is not stored. -/
theorem run_foldlM_copyChunk {chunks : List Chunk} (proper : Proper chunks)
    (known : ∀ chunk ∈ chunks, chunk.id < storage.nextId) (count : ℕ) (newChunks : List Chunk) :
    ((∀ chunk ∈ chunks, storage.held chunk.id ≠ none) ∧ ∃ after,
      (chunks.foldlM (copyChunk count) newChunks).run storage = some (.ok (newChunks ++ chunks), after) ∧
      storage.Copies after ∧ (chunks ≠ [] → storage.Adds after)) ∨
    (¬ (∀ chunk ∈ chunks, storage.held chunk.id ≠ none) ∧ ∃ id after,
      (chunks.foldlM (copyChunk count) newChunks).run storage = some (.error (.localMiss id), after)) := by
  induction chunks generalizing storage newChunks with
  | nil => exact .inl ⟨by simp, storage, by simp, .refl storage, fun something => absurd rfl something⟩
  | cons chunk rest ih =>
    obtain ⟨here, later⟩ := List.forall_mem_cons.mp proper
    obtain ⟨own, others⟩ := List.forall_mem_cons.mp known
    cases found : storage.held chunk.id with
    | none =>
      refine .inr ⟨fun all => all chunk List.mem_cons_self found, chunk.id, storage, ?_⟩
      rw [List.foldlM_cons, run_bind_of_error _ (run_copyChunk_of_miss found count newChunks)]
    | some data =>
      have copies : storage.Copies (copied storage count data) := copies_copied count data
      have step := run_copyChunk found here count newChunks
      have same : (∀ other ∈ rest, (copied storage count data).held other.id ≠ none) ↔
          ∀ other ∈ rest, storage.held other.id ≠ none :=
        forall₂_congr fun other member => by rw [copies.held (others other member)]
      rcases ih later (fun other member => (others other member).trans_le copies.drawn)
        (newChunks ++ [chunk]) with
        ⟨all, after, played, further, -⟩ | ⟨notAll, id, after, played⟩
      · refine .inl ⟨?_, after, ?_, copies.trans further, fun _ => (adds_copied count data).of_left further⟩
        · rw [List.forall_mem_cons, found]
          exact ⟨Option.some_ne_none data, same.mp all⟩
        · rw [List.foldlM_cons, run_bind_of_ok _ step, played, List.append_assoc]
          rfl
      · refine .inr ⟨fun all => notAll (same.mpr (List.forall_mem_cons.mp all).2), id, after, ?_⟩
        rw [List.foldlM_cons, run_bind_of_ok _ step, played]

theorem forall_mem_fileIds_cons {holds : ChunkID → Prop} {chunks : List Chunk} {rest : List (List Chunk)} :
    (∀ id ∈ fileIds (chunks :: rest), holds id) ↔
      (∀ chunk ∈ chunks, holds chunk.id) ∧ ∀ id ∈ fileIds rest, holds id := by
  simp only [fileIds, mem_chunkIdSet, List.flatten_cons, List.mem_append, forall_exists_index, and_imp]
  constructor
  · exact fun all => ⟨fun chunk member => all _ chunk (.inl member) rfl,
      fun id chunk member same => all id chunk (.inr member) same⟩
  · rintro ⟨here, later⟩ _ chunk (member | member) rfl
    · exact here chunk member
    · exact later _ chunk member rfl

/-- The run lemma of the outer loop. -/
theorem run_foldlM_copyBlock {blocks : List (List Chunk)} (proper : ∀ chunks ∈ blocks, Proper chunks)
    (occupied : ∀ chunks ∈ blocks, chunks ≠ []) (known : ∀ id ∈ fileIds blocks, id < storage.nextId)
    (newBlocks : List (List Chunk)) :
    ((∀ id ∈ fileIds blocks, storage.held id ≠ none) ∧ ∃ after,
      (blocks.foldlM copyBlock newBlocks).run storage = some (.ok (newBlocks ++ blocks), after) ∧
      storage.Copies after ∧ (blocks = [] → after = storage) ∧ (blocks ≠ [] → storage.Adds after)) ∨
    (¬ (∀ id ∈ fileIds blocks, storage.held id ≠ none) ∧ ∃ id after,
      (blocks.foldlM copyBlock newBlocks).run storage = some (.error (.localMiss id), after)) := by
  induction blocks generalizing storage newBlocks with
  | nil =>
    refine .inl ⟨fun id member => ?_, storage, by simp, .refl storage, fun _ => rfl,
      fun something => absurd rfl something⟩
    obtain ⟨_, listed, -⟩ := mem_fileIds.mp member
    cases listed
  | cons chunks rest ih =>
    obtain ⟨here, later⟩ := List.forall_mem_cons.mp proper
    obtain ⟨something, others⟩ := List.forall_mem_cons.mp occupied
    obtain ⟨own, further⟩ := forall_mem_fileIds_cons.mp known
    rw [forall_mem_fileIds_cons]
    rcases run_foldlM_copyChunk here own chunks.length [] with
      ⟨all, middle, played, copies, adds⟩ | ⟨notAll, id, after, played⟩
    · have step : (copyBlock newBlocks chunks).run storage = some (.ok (newBlocks ++ [chunks]), middle) := by
        rw [copyBlock, run_bind_of_ok _ played]
        rfl
      have same : (∀ id ∈ fileIds rest, middle.held id ≠ none) ↔ ∀ id ∈ fileIds rest,
        storage.held id ≠ none :=
        forall₂_congr fun id member => by rw [copies.held (further id member)]
      rcases ih later others (fun id member => (further id member).trans_le copies.drawn)
        (newBlocks ++ [chunks]) with ⟨allRest, after, playedRest, copiesRest, -⟩ | ⟨notAll, id, after, failed⟩
      · refine .inl ⟨⟨all, same.mp allRest⟩, after, ?_, copies.trans copiesRest, fun empty => absurd empty
          (List.cons_ne_nil _ _),
          fun _ => (adds something).of_left copiesRest⟩
        rw [List.foldlM_cons, run_bind_of_ok _ step, playedRest, List.append_assoc]
        rfl
      · refine .inr ⟨fun both => notAll (same.mpr both.2), id, after, ?_⟩
        rw [List.foldlM_cons, run_bind_of_ok _ step, failed]
    · refine .inr ⟨fun both => notAll both.1, id, after, ?_⟩
      have step : (copyBlock newBlocks chunks).run storage = some (.error (.localMiss id), after) := by
        rw [copyBlock, run_bind_of_error _ played]
      rw [List.foldlM_cons, run_bind_of_error _ step]

end Copy

section Register

/-- A new child under a new name is added to the others. -/
theorem exists_evolveChildren_insert {manifest : LocalFolderishManifest} {name : EntryName}
    {entryId : EntryID}
    (absent : name ∉ manifest.children.keys) (fresh : entryId ∉ manifest.children.values)
    (patternFilter : Pattern) (now : DateTime) : ∃ newManifest, manifest.evolveChildrenAndMarkUpdated
      ((∅ : Dict EntryName (Option EntryID)).insert name (some entryId)) patternFilter now = .ok newManifest ∧
      newManifest.children = manifest.children.insert name entryId := by
  have free : manifest.children.get? name = none := Dict.get?_eq_none_iff.mpr absent
  have removed : manifest.removeChildren ((∅ : Dict EntryName (Option EntryID)).insert name (some entryId)) =
      ⟨false, manifest.children, manifest.confinedEntries⟩ := by
    change LocalFolderishManifest.ChildrenEdit.remove _ name = _
    rw [LocalFolderishManifest.ChildrenEdit.remove, free]
  have allowed : ∀ id ∈ ((∅ : Dict EntryName (Option EntryID)).insert name
    (some entryId)).values.reduceOption,
      id ∉ manifest.children.values := by
    intro id member
    obtain rfl : id = entryId := List.mem_singleton.mp member
    exact fresh
  rw [LocalFolderishManifest.evolveChildrenAndMarkUpdated, removed]
  dsimp only
  rw [Except.require, if_pos allowed, Except.ok_bind]
  split
  · exact ⟨_, rfl, rfl⟩
  · exact ⟨_, rfl, rfl⟩

/-- The storage once the conflict is registered. -/
def registered (device : DeviceContext) (storage : DeviceStorage) (entryId parentId : EntryID)
    (newParent : LocalFolderishManifest) (current : LocalFileManifest) (newBlocks : List (List Chunk))
    (remote : RemoteFileManifest) : DeviceStorage :=
  (({ storage with nextId := storage.nextId + 1 }.set storage.nextId (.file
    { LocalFileManifest.newPlaceholder device.localAuthor parentId storage.nextId device.now defaultBlockSize with
      size := current.size, blocks := newBlocks })).set parentId (.folder newParent)).set entryId
    (.file (.fromRemote remote))

theorem run_registerConflict {device : DeviceContext} {entryId parentId : EntryID}
    {parent newParent : LocalFolderishManifest} {current : LocalFileManifest} {newBlocks : List (List Chunk)}
    {newName : EntryName} {remote : RemoteFileManifest}
    (evolved : parent.evolveChildrenAndMarkUpdated
      ((∅ : Dict EntryName (Option EntryID)).insert newName (some storage.nextId)) device.patternFilter
      device.now = .ok newParent) :
    (registerConflict device entryId parentId parent current newBlocks newName remote).run storage =
      some (.ok (), registered device storage entryId parentId newParent current newBlocks remote) := by
  have checked : (Coroutine.ofExcept ((parent.evolveChildrenAndMarkUpdated
      ((∅ : Dict EntryName (Option EntryID)).insert newName (some storage.nextId)) device.patternFilter
      device.now).mapError ConflictError.folder) : ConflictCall LocalFolderishManifest).run
      { storage with nextId := storage.nextId + 1 } = some (.ok newParent,
        { storage with nextId := storage.nextId + 1 }) := by
    rw [evolved]
    rfl
  rw [registerConflict, run_bind_of_ok _ (run_drawId storage), run_bind_of_ok _ checked]
  rfl

end Register

end FileConflict

end Guardata
