import Guardata.Proofs.FileOperations

/-! # File transactions, played alone

The invariant of a device's storage over a byte array, and what each transaction does to it when
nothing else runs: the manifest shows the bytes, every chunk it refers to is stored in full, and
the stored chunks that do not wait for their deletion are exactly those it refers to.
-/

namespace Guardata

open Machine Coroutine Transaction

/-- The chunks that wait for their deletion. -/
def LocalStorage.pending (storage : LocalStorage) : Finset ChunkID := storage.aheadOfLocaldb.getD ∅

/-- The data that the device has under an id. -/
def LocalStorage.held (storage : LocalStorage) (id : ChunkID) : Option Bytes :=
  (storage.chunkStorage id).or (storage.blockStorage id)

/-- What has to be downloaded before the chunks can be read. -/
def LocalStorage.missing (storage : LocalStorage) (chunks : List Chunk) : List BlockAccess :=
  (chunks.filter fun chunk => storage.held chunk.id = none).filterMap Chunk.access

/-- The chunks that a read looks at. -/
def LocalFileManifest.readChunks (manifest : LocalFileManifest) (size offset : ℤ) (raiseEof : Bool) : List Chunk :=
  let position := Transaction.normalizeArgument offset manifest
  if (raiseEof ∧ (manifest.size : ℤ) ≤ offset) ∨ manifest.size < position then []
  else prepareRead manifest (Transaction.normalizeArgument size manifest) position

theorem normalizeArgument_natCast (arg : ℕ) (manifest : LocalFileManifest) :
    Transaction.normalizeArgument arg manifest = arg := by
  rw [Transaction.normalizeArgument, if_neg (by omega), Int.toNat_natCast]

/-- The chunks of a read are the same in the later attempts, with the normalized arguments. -/
theorem readChunks_normalized {manifest : LocalFileManifest} {offset : ℤ} {raiseEof : Bool}
    (size : ℤ)
    (inside : ¬ (raiseEof ∧ (manifest.size : ℤ) ≤ offset))
    (later : ¬ (raiseEof ∧ (manifest.size : ℤ) ≤ (Transaction.normalizeArgument offset manifest : ℕ))) :
    manifest.readChunks (Transaction.normalizeArgument size manifest : ℕ)
      (Transaction.normalizeArgument offset manifest : ℕ) raiseEof =
      manifest.readChunks size offset raiseEof := by
  unfold LocalFileManifest.readChunks
  simp only [inside, later, false_or, normalizeArgument_natCast]

/-- The device has what the chunk stands for, or an access to it. -/
structure LocalStorage.Available (storage : LocalStorage) (store : ChunkID → Option Bytes) (chunk : Chunk) :
    Prop where
  stored : chunk.Stored store
  consistent : ∀ data, storage.held chunk.id = some data → store chunk.id = some data
  reachable : storage.held chunk.id = none → chunk.access ≠ none

/-- The storage represents the byte array, without a missing and without a stray chunk. -/
structure Represents (storage : LocalStorage) (nextId : ℕ) (file : Bytes) : Prop where
  positive : 0 < storage.manifest.blocksize
  layout : FileLayout storage.chunkStorage storage.manifest.blocksize storage.manifest.size
    storage.manifest.blocks
  content : fileContent storage.chunkStorage storage.manifest.blocks = file
  drawn : ∀ id, (storage.chunkStorage id).isSome → id < nextId
  waiting : ∀ id ∈ storage.pending, id < nextId
  exact : ∀ id, ((storage.chunkStorage id).isSome ∧ id ∉ storage.pending) ↔
    id ∈ fileIds storage.manifest.blocks

namespace Represents

variable {storage : LocalStorage} {nextId : ℕ} {file : Bytes}

theorem fresh (represents : Represents storage nextId file) :
    ∀ id ∈ fileIds storage.manifest.blocks, id < nextId :=
  fun id member => represents.drawn id ((represents.exact id).mpr member).1

theorem size_eq (represents : Represents storage nextId file) : storage.manifest.size = file.length := by
  rw [← represents.content, represents.layout.length_content]

/-- More ids may be drawn without being used. -/
theorem mono (represents : Represents storage nextId file) {later : ℕ} (more : nextId ≤ later) :
    Represents storage later file where
  positive := represents.positive
  layout := represents.layout
  content := represents.content
  drawn := fun id stored => (represents.drawn id stored).trans_le more
  waiting := fun id member => (represents.waiting id member).trans_le more
  exact := represents.exact

/-- Only the manifest and the chunks count. -/
theorem congr (represents : Represents storage nextId file) {other : LocalStorage}
    (manifest : other.manifest = storage.manifest) (ahead : other.aheadOfLocaldb = storage.aheadOfLocaldb)
    (chunks : other.chunkStorage = storage.chunkStorage) : Represents other nextId file := by
  obtain ⟨positive, layout, content, drawn, waiting, exact⟩ := represents
  unfold LocalStorage.pending at waiting exact
  constructor
  all_goals simp only [LocalStorage.pending, manifest, ahead, chunks]
  all_goals assumption

/-- Writing the manifest to disk deletes what is not referred to. -/
theorem persist (represents : Represents storage nextId file) :
    Represents storage.persist nextId file := by
  cases ahead : storage.aheadOfLocaldb with
  | none => rwa [LocalStorage.persist, ahead]
  | some removedIds =>
    have pending : storage.pending = removedIds := by rw [LocalStorage.pending, ahead]; rfl
    have agree : ∀ id ∈ fileIds storage.manifest.blocks,
        (if id ∈ removedIds then none else storage.chunkStorage id) = storage.chunkStorage id := by
      intro id member
      rw [if_neg (pending ▸ ((represents.exact id).mpr member).2)]
    obtain ⟨layout, content⟩ := represents.layout.congr agree
    rw [LocalStorage.persist, ahead]
    constructor
    · exact represents.positive
    · exact layout
    · exact content.trans represents.content
    · intro id stored
      simp only at stored
      split at stored
      · cases stored
      · exact represents.drawn id stored
    · intro id member
      cases member
    · intro id
      rw [← represents.exact id, pending]
      by_cases gone : id ∈ removedIds <;> simp [gone, LocalStorage.pending]

/-- Carrying out what was prepared leads to the expected byte array. -/
theorem commit (represents : Represents storage nextId file) {content expected : Bytes}
    {piece : Chunk → Bytes} {prepared : PreparedWrite}
    (prepares : Prepares storage.chunkStorage storage.manifest nextId content piece expected prepared) :
    Represents (LocalStorage.cache { storage with
        chunkStorage := applyWrites piece storage.chunkStorage prepared.writeOperations }
      prepared.manifest prepared.removedIds) prepared.nextId expected := by
  have older : ∀ id ∈ storage.pending ∪ prepared.removedIds, id < nextId := by
    intro id member
    rcases Finset.mem_union.mp member with waiting | gone
    · exact represents.waiting id waiting
    · exact represents.fresh id (prepares.gone gone)
  constructor
  · simp only [LocalStorage.cache]
    rw [prepares.blocksize]
    exact represents.positive
  · simp only [LocalStorage.cache]
    rw [prepares.blocksize]
    exact prepares.layout
  · exact prepares.content
  · intro id stored
    rcases isSome_applyWrites.mp stored with ⟨operation, member, rfl⟩ | old
    · exact (prepares.writes operation member).2
    · exact (represents.drawn id old).trans_le prepares.drawn
  · intro id member
    exact (older id member).trans_le prepares.drawn
  · intro id
    simp only [LocalStorage.cache]
    rw [isSome_applyWrites, prepares.ids, ← represents.exact id]
    change _ ∧ id ∉ storage.pending ∪ prepared.removedIds ↔ _
    constructor
    · rintro ⟨new | old, outside⟩
      · exact .inl new
      · rw [Finset.mem_union, not_or] at outside
        exact .inr ⟨⟨old, outside.1⟩, outside.2⟩
    · rintro (⟨operation, member, rfl⟩ | ⟨⟨old, notWaiting⟩, kept⟩)
      · refine ⟨.inl ⟨operation, member, rfl⟩, fun inside => ?_⟩
        exact absurd (older _ inside) (prepares.writes operation member).1.not_gt
      · exact ⟨.inr old, fun inside => (Finset.mem_union.mp inside).elim notWaiting kept⟩

end Represents

section Run

variable {world : World}

@[simp] theorem run_setChunk (id : ChunkID) (data : Bytes) :
    (setChunk id data).run world = some (.ok (), world.updateStorage fun storage =>
      { storage with chunkStorage := Function.update storage.chunkStorage id (some data) }) := rfl

@[simp] theorem run_ensureManifestPersistent :
    ensureManifestPersistent.run world = some (.ok (), world.updateStorage LocalStorage.persist) := rfl

@[simp] theorem run_setManifest_cacheOnly (manifest : LocalFileManifest) (removedIds : Finset ChunkID) :
    (setManifest manifest true removedIds).run world =
      some (.ok (), world.updateStorage fun storage => storage.cache manifest removedIds) := rfl

theorem run_drawing {α : Type} {compute : ℕ → DateTime → Except FileError (α × ℕ)} {value : α}
    {nextId : ℕ} (computed : compute world.nextId world.clock = .ok (value, nextId)) :
    (drawing compute).run world = some (.ok value, { world with nextId := nextId }) := by
  simp only [drawing, Coroutine.run, computed, Option.bind_some]
  rfl

theorem run_loadFileDescriptor (fd : FileDescriptor) :
    (loadFileDescriptor fd).run world = some (if fd ∈ world.storage.openFds then
      .ok world.storage.manifest else .error (.invalidFileDescriptor fd), world) := by
  rw [loadFileDescriptor, run_observeOr]

/-- A body under the entry lock starts locked, and leaves the entry unlocked. -/
theorem run_lockEntry {α : Type} {body : Transaction α} (unlocked : world.storage.locked = false)
    {result : Except FileError α} {after : World}
    (played : body.run (world.updateStorage fun storage => { storage with locked := true }) =
      some (result, after)) :
    (lockEntry body).run world =
      some (result, after.updateStorage fun storage => { storage with locked := false }) := by
  have acquired : acquire.run world =
      some (.ok (), world.updateStorage fun storage => { storage with locked := true }) := by
    simp [acquire, Coroutine.run, unlocked]
  rw [lockEntry, run_bind_of_ok _ acquired]
  exact run_ensuring _ played rfl

theorem run_loadAndLockFile {α : Type} {fd : FileDescriptor} {body : LocalFileManifest → Transaction α}
    (known : fd ∈ world.storage.openFds) (unlocked : world.storage.locked = false)
    {result : Except FileError α} {after : World}
    (played : (body world.storage.manifest).run
      (world.updateStorage fun storage => { storage with locked := true }) = some (result, after)) :
    (loadAndLockFile fd body).run world =
      some (result, after.updateStorage fun storage => { storage with locked := false }) := by
  have loaded : (loadFileDescriptor fd).run world = some (.ok world.storage.manifest, world) := by
    rw [run_loadFileDescriptor, if_pos known]
  have again : (loadFileDescriptor fd).run
      (world.updateStorage fun storage => { storage with locked := true }) =
        some (.ok world.storage.manifest, world.updateStorage fun storage =>
          { storage with locked := true }) := by
    rw [run_loadFileDescriptor]
    exact congrArg (fun result => some (result, _)) (if_pos known)
  rw [loadAndLockFile, run_bind_of_ok _ loaded]
  refine run_lockEntry unlocked ?_
  rw [run_bind_of_ok _ again]
  exact played

theorem run_loadAndLockFile_of_closed {α : Type} {fd : FileDescriptor}
    {body : LocalFileManifest → Transaction α} (closed : fd ∉ world.storage.openFds) :
    (loadAndLockFile fd body).run world = some (.error (.invalidFileDescriptor fd), world) := by
  have refused : (loadFileDescriptor fd).run world = some (.error (.invalidFileDescriptor fd), world) := by
    rw [run_loadFileDescriptor, if_neg closed]
  rw [loadAndLockFile, run_bind_of_error _ refused]

theorem run_getChunk (id : ChunkID) : (getChunk id).run world =
    some ((world.storage.held id).elim (.error (.localMiss id)) .ok, world) := by
  rw [getChunk, run_bind_of_ok _ (run_observe _ _), LocalStorage.held]
  cases world.storage.chunkStorage id with
  | some data => rfl
  | none =>
    rw [Option.none_or]
    cases found : world.storage.blockStorage id <;> simp only [run_observeOr, found] <;> rfl

/-- A chunk that the device has is read as what it shows. -/
theorem run_readChunk {store : ChunkID → Option Bytes} {chunk : Chunk} {data : Bytes}
    (found : world.storage.held chunk.id = some data) (same : store chunk.id = some data)
    (within : chunk.Within) : (readChunk chunk).run world = some (.ok (chunk.view store), world) := by
  obtain ⟨left, ordered, -⟩ := within
  have loaded : (getChunk chunk.id).run world = some (.ok data, world) := by
    rw [run_getChunk, found]
    rfl
  rw [readChunk, run_bind_of_ok _ loaded, run_pure, Chunk.view, same, Option.getD_some,
    ← Nat.cast_sub left, show (chunk.stop : ℤ) - chunk.rawOffset =
      ((chunk.stop - chunk.rawOffset : ℕ) : ℤ) by omega, List.slice_natCast, List.drop_take,
    show chunk.stop - chunk.rawOffset - (chunk.start - chunk.rawOffset) = chunk.stop - chunk.start by
      omega]

/-- The next part takes the place of the null bytes that were there for it. -/
theorem Transaction.splice_replicate {origin start stop last : ℕ} {front piece : Bytes}
    (length : front.length = start - origin) (begun : origin ≤ start) (ordered : start ≤ stop)
    (upper : stop ≤ last) (width : piece.length = stop - start) :
    splice (front ++ List.replicate (last - start) 0) (start - origin) (stop - origin) piece =
      front ++ piece ++ List.replicate (last - stop) 0 := by
  rw [splice, List.take_append_of_le_length (by omega), List.take_of_length_le (by omega),
    max_eq_right (by omega), List.drop_append, List.drop_eq_nil_of_le (by omega), List.drop_replicate,
    List.nil_append, length, show last - start - (stop - origin - (start - origin)) = last - stop by omega]

/-- The step lemma of `_build_data`: the part of the chunk is what it shows, or null bytes if it is
missing. -/
theorem run_buildChunk {store : ChunkID → Option Bytes} {origin stop : ℕ} {chunk : Chunk}
    (available : world.storage.Available store chunk) (within : chunk.Within) (front : Bytes)
    (length : front.length = chunk.start - origin) (begun : origin ≤ chunk.start)
    (upper : chunk.stop ≤ stop) (missing : List BlockAccess) :
    ∃ piece, piece.length = chunk.stop - chunk.start ∧
      (world.storage.missing [chunk] = [] → piece = chunk.view store) ∧
      (buildChunk origin (front ++ List.replicate (stop - chunk.start) 0, missing) chunk).run world =
        some (.ok (front ++ piece ++ List.replicate (stop - chunk.stop) 0,
          missing ++ world.storage.missing [chunk]), world) := by
  have width := available.stored.length_view within
  have ordered := within.2.1
  cases found : world.storage.held chunk.id with
  | some data =>
    have present : world.storage.missing [chunk] = [] := by simp [LocalStorage.missing, found]
    refine ⟨chunk.view store, width, fun _ => rfl, ?_⟩
    have attempted : (readChunk chunk).attempt.run world = some (.ok (.ok (chunk.view store)), world) := by
      rw [run_attempt, run_readChunk found (available.consistent data found) within]
      rfl
    rw [buildChunk, run_bind_of_ok _ attempted, present, List.append_nil,
      ← splice_replicate length begun ordered upper width]
    rfl
  | none =>
    obtain ⟨access, has⟩ := Option.ne_none_iff_exists'.mp (available.reachable found)
    have absent : world.storage.missing [chunk] = [access] := by simp [LocalStorage.missing, found, has]
    refine ⟨List.replicate (chunk.stop - chunk.start) 0, List.length_replicate, by simp [absent], ?_⟩
    have attempted : (readChunk chunk).attempt.run world =
        some (.ok (.error (.localMiss chunk.id)), world) := by
      have refused : (getChunk chunk.id).run world = some (.error (.localMiss chunk.id), world) := by
        rw [run_getChunk, found]
        rfl
      rw [run_attempt, readChunk, run_bind_of_error _ refused]
      rfl
    rw [buildChunk, run_bind_of_ok _ attempted, absent, List.append_assoc, List.replicate_append_replicate,
      show chunk.stop - chunk.start + (stop - chunk.stop) = stop - chunk.start by omega]
    simp only [has]
    rfl

/-- The run lemma of `_build_data`: what is built so far, and null bytes for the rest. -/
theorem run_foldlM_buildChunk {store : ChunkID → Option Bytes} {origin start stop : ℕ} {chunks : List Chunk}
    (front : Bytes) (contiguous : Contiguous start chunks stop)
    (available : ∀ chunk ∈ chunks, world.storage.Available store chunk)
    (begun : origin ≤ start) (length : front.length = start - origin) (missing : List BlockAccess) :
    ∃ built, (world.storage.missing chunks = [] → built = chunksContent store chunks) ∧
      (chunks.foldlM (buildChunk origin) (front ++ List.replicate (stop - start) 0, missing)).run world =
        some (.ok (front ++ built, missing ++ world.storage.missing chunks), world) := by
  induction chunks generalizing start front missing with
  | nil =>
    cases contiguous
    exact ⟨[], fun _ => rfl, by simp [LocalStorage.missing]⟩
  | cons chunk rest ih =>
    obtain ⟨rfl, within, contiguous⟩ := contiguous
    obtain ⟨here, later⟩ := List.forall_mem_cons.mp available
    obtain ⟨piece, width, shows, played⟩ :=
      run_buildChunk here within front length begun contiguous.le missing
    have ordered := within.2.1
    obtain ⟨built, showsRest, playedRest⟩ := ih (front ++ piece) contiguous later (by omega)
      (by rw [List.length_append, width]; omega) (missing ++ world.storage.missing [chunk])
    have both : world.storage.missing (chunk :: rest) =
        world.storage.missing [chunk] ++ world.storage.missing rest := by
      simp only [LocalStorage.missing, ← List.filterMap_append, ← List.filter_append, List.singleton_append]
    refine ⟨piece ++ built, fun nothing => ?_, ?_⟩
    · rw [both, List.append_eq_nil_iff] at nothing
      rw [chunksContent_cons, shows nothing.1, showsRest nothing.2]
    · rw [List.foldlM_cons, run_bind_of_ok _ played, playedRest, both, List.append_assoc, List.append_assoc]

/-- `_build_data` finds what is missing, and if that is nothing, what the chunks show. -/
theorem run_buildData_of_available {store : ChunkID → Option Bytes} {start stop : ℕ} {chunks : List Chunk}
    (contiguous : Contiguous start chunks stop)
    (available : ∀ chunk ∈ chunks, world.storage.Available store chunk) :
    ∃ built, (world.storage.missing chunks = [] → built = chunksContent store chunks) ∧
      (buildData chunks).run world = some (.ok (built, world.storage.missing chunks), world) := by
  cases chunks with
  | nil => exact ⟨[], fun _ => rfl, rfl⟩
  | cons first rest =>
    have last := contiguous.stop_getLastD
    obtain ⟨rfl, -⟩ := id contiguous
    obtain ⟨built, shows, played⟩ := run_foldlM_buildChunk [] contiguous available le_rfl (by simp) []
    refine ⟨built, shows, ?_⟩
    rw [buildData]
    simp only [last]
    exact played

/-- The data of contiguous chunks that are all stored is what they show. -/
theorem run_buildData {start stop : ℕ} {chunks : List Chunk} (contiguous : Contiguous start chunks stop)
    (stored : ∀ chunk ∈ chunks, chunk.Stored world.storage.chunkStorage) :
    (buildData chunks).run world =
      some (.ok (chunksContent world.storage.chunkStorage chunks, []), world) := by
  have held : ∀ chunk ∈ chunks, world.storage.held chunk.id = world.storage.chunkStorage chunk.id := by
    intro chunk member
    obtain ⟨data, found, -⟩ := stored chunk member
    rw [LocalStorage.held, found]
    rfl
  have there : ∀ chunk ∈ chunks, world.storage.held chunk.id ≠ none := by
    intro chunk member
    obtain ⟨data, found, -⟩ := stored chunk member
    rw [held chunk member, found]
    exact Option.some_ne_none data
  have nothing : world.storage.missing chunks = [] := by
    rw [LocalStorage.missing, List.filter_eq_nil_iff.mpr (by simpa using there)]
    rfl
  obtain ⟨built, shows, played⟩ := run_buildData_of_available contiguous fun chunk member =>
    ⟨stored chunk member, fun data is => (held chunk member).symm.trans is,
      fun gone => absurd gone (there chunk member)⟩
  rw [played, nothing, shows nothing]

theorem run_writeChunk {content data : Bytes} {chunk : Chunk} {offset : ℤ}
    (padded : paddedData content offset (offset + chunk.stop - chunk.start) = .ok data) :
    (writeChunk chunk content offset).run world =
      some (.ok data.length, world.updateStorage fun storage => { storage with
        chunkStorage := Function.update storage.chunkStorage chunk.id (some data) }) := by
  rw [writeChunk, padded]
  rfl

/-- The store and the counts after the loop over the write operations. -/
theorem foldl_writes (piece : Chunk → Bytes)
    (count : (FileDescriptor → ℕ) → Chunk × ℤ → FileDescriptor → ℕ) (operations : List (Chunk × ℤ)) :
    operations.foldl (fun world operation => world.updateStorage fun storage => { storage with
        chunkStorage := Function.update storage.chunkStorage operation.1.id (some (piece operation.1))
        writeCount := count storage.writeCount operation }) world =
      world.updateStorage fun storage => { storage with
        chunkStorage := applyWrites piece storage.chunkStorage operations
        writeCount := operations.foldl count storage.writeCount } := by
  induction operations generalizing world with
  | nil => rfl
  | cons operation rest ih => exact ih

/-- The loop over the write operations. -/
theorem run_forM_writes {piece : Chunk → Bytes} {operations : List (Chunk × ℤ)}
    {body : Chunk × ℤ → Transaction Unit}
    (count : (FileDescriptor → ℕ) → Chunk × ℤ → FileDescriptor → ℕ)
    (played : ∀ operation ∈ operations, ∀ world, (body operation).run world =
      some (.ok (), world.updateStorage fun storage => { storage with
        chunkStorage := Function.update storage.chunkStorage operation.1.id (some (piece operation.1))
        writeCount := count storage.writeCount operation })) :
    (operations.forM body).run world = some (.ok (), world.updateStorage fun storage => { storage with
      chunkStorage := applyWrites piece storage.chunkStorage operations
      writeCount := operations.foldl count storage.writeCount }) := by
  rw [run_forM world played, foldl_writes piece count]

end Run

/-- What a transaction leads to: the storage shows the byte array, over the same descriptors. -/
structure Reaches (world after : World) (file : Bytes) : Prop where
  represents : Represents after.storage after.nextId file
  openFds : after.storage.openFds = world.storage.openFds

theorem Reaches.persist {world after : World} {file : Bytes} (reaches : Reaches world after file) :
    Reaches world (after.updateStorage LocalStorage.persist) file := by
  refine ⟨reaches.represents.persist, ?_⟩
  rw [← reaches.openFds]
  simp only [World.updateStorage, LocalStorage.persist]
  split <;> rfl

section Reshape

variable {world : World} {file : Bytes} {block : ℕ} {chunks : List Chunk}

theorem evolveAsBlock_eq {chunk : Chunk} (raw : ¬ chunk.isBlock) (aligned : chunk.rawOffset = chunk.start)
    (key : SecretKey) (data : Bytes) : chunk.evolveAsBlock key data = .ok { chunk with
      access := some ⟨chunk.id, key, chunk.start, chunk.stop - chunk.start, .fromData data⟩ } := by
  rw [Chunk.evolveAsBlock, if_neg raw, Except.require, if_pos aligned, Except.ok_bind]
  rfl

/-- The write operation of a reshape: none if the block keeps its chunk. -/
def reshapeWrites (operation : ReshapeOperation) (chunk : Chunk) : List (Chunk × ℤ) :=
  if operation.source ≠ [operation.destination] then [(chunk, 0)] else []

/-- A block that is not reshaped yet is built, evolved, written if need be, and set. -/
theorem run_reshapeOne_of_some {operation : ReshapeOperation} {chunk : Chunk} {data : Bytes}
    (block : ℕ) (missing : List BlockAccess)
    (reshaped : reshapeBlock chunks world.nextId = .ok (some operation))
    (built : (buildData operation.source).run { world with nextId := world.nextId + 1 } =
      some (.ok (data, []), { world with nextId := world.nextId + 1 }))
    (evolved : operation.destination.evolveAsBlock ⟨world.nextId + 1⟩ data = .ok chunk)
    (padded : ∀ written ∈ reshapeWrites operation chunk,
      paddedData data written.2 (written.2 + written.1.stop - written.1.start) = .ok data) :
    (reshapeOne (world.storage.manifest, missing) (chunks, block)).run world =
      some (.ok (updateManifest block world.storage.manifest chunk, missing), { world with
        nextId := world.nextId + 2
        storage := LocalStorage.cache
          { world.storage with
            chunkStorage :=
              applyWrites (fun _ => data) world.storage.chunkStorage (reshapeWrites operation chunk) }
          (updateManifest block world.storage.manifest chunk) operation.removedIds }) := by
  have drawn : (drawing fun id _ => return (← reshapeBlock chunks id, id + 1)).run world =
      some (.ok (some operation), { world with nextId := world.nextId + 1 }) :=
    run_drawing (by rw [reshaped]; rfl)
  have keyed : (drawing fun key _ => return (← operation.destination.evolveAsBlock ⟨key⟩ data, key + 1)).run
      { world with nextId := world.nextId + 1 } =
        some (.ok chunk, { world with nextId := world.nextId + 2 }) :=
    run_drawing (by rw [evolved]; rfl)
  rw [reshapeOne, run_bind_of_ok _ drawn]
  simp only
  rw [run_bind_of_ok _ built]
  simp only [ne_eq, not_true_eq_false, ↓reduceIte]
  rw [run_bind_of_ok _ keyed]
  unfold reshapeWrites at padded ⊢
  by_cases kept : operation.source = [operation.destination]
  · simp only [kept, not_true_eq_false, ↓reduceIte, ne_eq]
    rfl
  · simp only [kept, not_false_eq_true, ↓reduceIte, ne_eq, List.mem_singleton, forall_eq] at padded ⊢
    rw [run_bind_of_ok _ (run_writeChunk padded)]
    rfl

/-- The step lemma of a reshape: the block is a single chunk afterwards, and shows the same. -/
theorem run_reshapeOne (represents : Represents world.storage world.nextId file)
    (found : world.storage.manifest.blocks[block]? = some chunks) :
    ∃ updated after, (reshapeOne (world.storage.manifest, []) (chunks, block)).run world =
        some (.ok (updated, []), after) ∧ after.storage.manifest = updated ∧ Reaches world after file ∧
      ∀ other ≠ block, after.storage.manifest.blocks[other]? =
        world.storage.manifest.blocks[other]? := by
  obtain rfl := represents.content
  have bound := (List.getElem?_eq_some_iff.mp found).1
  have inside := (represents.layout.exists_iff block).mp bound
  have contiguous := represents.layout.contiguous block chunks found
  have stored := represents.layout.stored chunks (List.mem_of_getElem? found)
  have positive := represents.positive
  have occupied : block * world.storage.manifest.blocksize <
      min ((block + 1) * world.storage.manifest.blocksize) world.storage.manifest.size := by
    rw [Nat.succ_mul]
    omega
  have elsewhere : ∀ chunk, ∀ other ≠ block,
      (updateManifest block world.storage.manifest chunk).blocks[other]? =
        world.storage.manifest.blocks[other]? :=
    fun chunk other different => List.getElem?_set_ne different.symm
  have built : (buildData chunks).run { world with nextId := world.nextId + 1 } =
      some (.ok (chunksContent world.storage.chunkStorage chunks, []),
        { world with nextId := world.nextId + 1 }) := run_buildData contiguous stored
  rcases reshapeBlock_spec contiguous occupied world.nextId with
    ⟨chunk, rfl, -, nothing⟩ | ⟨chunk, rfl, aligned, raw, operation⟩ | operation
  · have drawn : (drawing fun id _ => return (← reshapeBlock [chunk] id, id + 1)).run world =
        some (.ok none, { world with nextId := world.nextId + 1 }) :=
      run_drawing (by rw [nothing]; rfl)
    refine ⟨_, { world with nextId := world.nextId + 1 }, ?_, rfl, ⟨represents.mono (by simp), rfl⟩,
      fun _ _ => rfl⟩
    rw [reshapeOne, run_bind_of_ok _ drawn]
    rfl
  · have start : chunk.rawOffset = chunk.start := (of_decide_eq_true aligned).1.symm
    have played := run_reshapeOne_of_some block [] operation built
      (evolveAsBlock_eq raw start _ _) (by simp [reshapeWrites])
    have committed := fun access => represents.commit (prepares_access world.nextId represents.layout
      found access (chunksContent world.storage.chunkStorage [chunk]) fun _ =>
        chunksContent world.storage.chunkStorage [chunk])
    rw [reshapeWrites, if_neg (not_not.mpr rfl)] at played
    refine ⟨_, _, played, rfl, ?_, ?_⟩
    · exact ⟨(committed _).mono (Nat.le_add_right _ 2), rfl⟩
    · exact elsewhere _
  · have fresh : chunks ≠ [newChunk world.nextId (block * world.storage.manifest.blocksize)
        (min ((block + 1) * world.storage.manifest.blocksize) world.storage.manifest.size)] := by
      rintro rfl
      have known : world.nextId ∈ fileIds world.storage.manifest.blocks :=
        mem_fileIds.mpr ⟨_, List.mem_of_getElem? found, by simp [chunkIdSet, newChunk]⟩
      exact absurd (represents.fresh _ known) (lt_irrefl _)
    have prepares := prepares_newChunk represents.layout found contiguous represents.fresh
    have played := run_reshapeOne_of_some block [] operation built
      (evolveAsBlock_eq (by simp [Chunk.isBlock, newChunk]) rfl _ _)
    rw [reshapeWrites, if_pos fresh] at played
    refine ⟨_, _, played (prepares _ rfl rfl occupied).data, rfl, ?_, ?_⟩
    · exact ⟨(represents.commit (prepares _ rfl rfl occupied)).mono (Nat.le_add_right _ 1), rfl⟩
    · exact elsewhere _

/-- The run lemma of a reshape: the blocks that are still to come are as they were. -/
theorem run_foldlM_reshapeOne (represents : Represents world.storage world.nextId file) (position : ℕ)
    (rest : List (List Chunk))
    (same : ∀ other, position ≤ other →
      world.storage.manifest.blocks[other]? = rest[other - position]?) :
    ∃ after, ((rest.zipIdx position).foldlM reshapeOne (world.storage.manifest, [])).run world =
      some (.ok (after.storage.manifest, []), after) ∧ Reaches world after file := by
  induction rest generalizing world position with
  | nil => exact ⟨world, rfl, represents, rfl⟩
  | cons chunks rest ih =>
    have found : world.storage.manifest.blocks[position]? = some chunks := by
      rw [same position le_rfl, Nat.sub_self]
      rfl
    obtain ⟨-, middle, first, rfl, reaches, others⟩ := run_reshapeOne represents found
    obtain ⟨after, played, final⟩ := ih reaches.represents (position + 1) (by
      intro other later
      rw [others other (by omega), same other (by omega),
        show other - position = (other - (position + 1)) + 1 by omega, List.getElem?_cons_succ])
    refine ⟨after, ?_, final.represents, final.openFds.trans reaches.openFds⟩
    rw [List.zipIdx_cons, List.foldlM_cons, run_bind_of_ok _ first]
    exact played

/-- `_manifest_reshape` has nothing to download, and changes no byte. -/
theorem run_manifestReshape (represents : Represents world.storage world.nextId file) (cacheOnly : Bool) :
    ∃ after, (manifestReshape world.storage.manifest cacheOnly).run world =
      some (.ok [], after) ∧ Reaches world after file := by
  obtain ⟨after, played, reaches⟩ := run_foldlM_reshapeOne represents 0 world.storage.manifest.blocks
    (fun other _ => rfl)
  cases cacheOnly with
  | true =>
    refine ⟨after, ?_, reaches⟩
    rw [manifestReshape, run_bind_of_ok _ played]
    rfl
  | false =>
    refine ⟨after.updateStorage LocalStorage.persist, ?_, reaches.persist⟩
    rw [manifestReshape, run_bind_of_ok _ played]
    rfl

end Reshape

/-- The world while the entry is locked. -/
def World.lock (world : World) : World :=
  world.updateStorage fun storage => { storage with locked := true }

section Descriptor

variable {world : World} {file : Bytes} {fd : FileDescriptor}

/-- The world after the write operations and the new manifest. -/
def World.committed (world : World) (prepared : PreparedWrite) (piece : Chunk → Bytes)
    (counts : FileDescriptor → ℕ) : World :=
  { world with
    nextId := prepared.nextId
    storage := LocalStorage.cache
      { world.storage with
        chunkStorage := applyWrites piece world.storage.chunkStorage prepared.writeOperations
        writeCount := counts }
      prepared.manifest prepared.removedIds }

/-- A resize carries out what it prepares. -/
theorem run_manifestResize_of_prepared {length : ℕ} {prepared : PreparedWrite} {piece : Chunk → Bytes}
    (different : world.storage.manifest.size ≠ length)
    (computed : prepareResize world.storage.manifest length world.nextId world.clock = .ok prepared)
    (data : ∀ operation ∈ prepared.writeOperations, paddedData [] operation.2
      (operation.2 + operation.1.stop - operation.1.start) = .ok (piece operation.1)) :
    (manifestResize world.storage.manifest length true).run world = some (.ok (),
      world.committed prepared piece
        (prepared.writeOperations.foldl (fun counts _ => counts) world.storage.writeCount)) := by
  have drawn : (drawing fun nextId now => do
      let prepared ← prepareResize world.storage.manifest length nextId now
      return (prepared, prepared.nextId)).run world =
        some (.ok prepared, { world with nextId := prepared.nextId }) :=
    run_drawing (by rw [computed]; rfl)
  rw [manifestResize, if_neg different, run_bind_of_ok _ drawn, run_bind_of_ok _ (run_forM_writes
    (fun counts _ => counts) fun operation member world =>
      run_bind_of_ok _ (run_writeChunk (data operation member)))]
  rfl

/-- A write carries out what it prepares. If enough was written through the descriptor, the file is
reshaped on the way. -/
theorem run_writeContent_of_prepared {content : Bytes} {offset : ℕ} {prepared : PreparedWrite}
    {piece : Chunk → Bytes}
    (computed : prepareWrite world.storage.manifest content.length offset world.nextId world.clock =
      .ok prepared)
    (data : ∀ operation ∈ prepared.writeOperations, paddedData content operation.2
      (operation.2 + operation.1.stop - operation.1.start) = .ok (piece operation.1)) :
    ∃ counts, ∀ missing after, (manifestReshape prepared.manifest true).run
        (world.committed prepared piece counts) = some (.ok missing, after) →
      ∃ final, (writeContent fd world.storage.manifest content offset).run world =
          some (.ok content.length, final) ∧ (final = world.committed prepared piece counts ∨
        final = after.updateStorage fun storage =>
          { storage with writeCount := Function.update storage.writeCount fd 0 }) := by
  have drawn : (drawing fun nextId now => do
      let prepared ← prepareWrite world.storage.manifest content.length offset nextId now
      return (prepared, prepared.nextId)).run world =
        some (.ok prepared, { world with nextId := prepared.nextId }) :=
    run_drawing (by rw [computed]; rfl)
  refine ⟨prepared.writeOperations.foldl (fun counts operation =>
    Function.update counts fd (counts fd + (piece operation.1).length)) world.storage.writeCount,
    fun missing after reshaped => ?_⟩
  rw [writeContent, run_bind_of_ok _ drawn, run_bind_of_ok _ (run_forM_writes
      (fun counts operation => Function.update counts fd (counts fd + (piece operation.1).length))
      fun operation member world => by
        rw [run_bind_of_ok _ (run_writeChunk (data operation member))]
        rfl), run_bind_of_ok _ (run_setManifest_cacheOnly _ _), run_bind_of_ok _ (run_observe _ _)]
  split
  · exact ⟨_, run_bind_of_ok _ reshaped, .inr rfl⟩
  · exact ⟨_, rfl, .inl rfl⟩

/-- After the write operations and the new manifest, the storage shows what was prepared. -/
theorem Represents.reaches (represents : Represents world.storage world.nextId file)
    {content expected : Bytes} {piece : Chunk → Bytes} {prepared : PreparedWrite}
    (prepares : Prepares world.storage.chunkStorage world.storage.manifest world.nextId content piece
      expected prepared) (counts : FileDescriptor → ℕ) :
    Reaches world (world.committed prepared piece counts) expected :=
  ⟨(represents.commit prepares).congr rfl rfl rfl, rfl⟩

theorem ByteFile.resize_length : ByteFile.resize file file.length = file := by
  simp [ByteFile.resize]

/-- `_manifest_resize` resizes the byte array. -/
theorem run_manifestResize (represents : Represents world.storage world.nextId file) (length : ℕ) :
    ∃ after, (manifestResize world.storage.manifest length true).run world = some (.ok (), after) ∧
      Reaches world after (ByteFile.resize file length) := by
  by_cases same : world.storage.manifest.size = length
  · refine ⟨world, ?_, ?_, rfl⟩
    · rw [manifestResize, if_pos same]
      rfl
    · rwa [← same, represents.size_eq, ByteFile.resize_length]
  · obtain rfl := represents.content
    obtain ⟨prepared, piece, computed, prepares⟩ := prepareResize_spec represents.layout
      represents.positive represents.fresh same world.clock
    exact ⟨_, run_manifestResize_of_prepared same computed prepares.data, represents.reaches prepares _⟩

/-- A body under the entry lock, seen from outside. -/
theorem exists_run_loadAndLockFile {α : Type} {body : LocalFileManifest → Transaction α}
    {result : Except FileError α} {later : Bytes}
    (represents : Represents world.storage world.nextId file) (known : fd ∈ world.storage.openFds)
    (unlocked : world.storage.locked = false)
    (played : Represents world.lock.storage world.lock.nextId file →
      ∃ after, (body world.lock.storage.manifest).run world.lock = some (result, after) ∧
        Reaches world.lock after later) :
    ∃ after, (loadAndLockFile fd body).run world = some (result, after) ∧ Reaches world after later ∧
      after.storage.locked = false := by
  obtain ⟨after, played, reaches⟩ := played (represents.congr rfl rfl rfl)
  exact ⟨_, run_loadAndLockFile known unlocked played,
    ⟨reaches.represents.congr rfl rfl rfl, reaches.openFds⟩, rfl⟩

theorem run_writeContent (represents : Represents world.storage world.nextId file) {content : Bytes}
    (something : content ≠ []) (offset : ℕ) :
    ∃ after, (writeContent fd world.storage.manifest content offset).run world =
        some (.ok content.length, after) ∧
      Reaches world after (ByteFile.write file content offset) := by
  obtain rfl := represents.content
  have positive : 0 < content.length := List.length_pos_iff.mpr something
  obtain ⟨prepared, piece, computed, prepares⟩ := prepareWrite_spec represents.layout
    represents.positive represents.fresh content offset (by omega) world.clock
  obtain ⟨counts, written⟩ := run_writeContent_of_prepared computed prepares.data
  have reaches := represents.reaches prepares counts
  obtain ⟨after, reshaped, further⟩ := run_manifestReshape reaches.represents true
  obtain ⟨final, played, rfl | rfl⟩ := written [] after reshaped
  · exact ⟨_, played, reaches⟩
  · exact ⟨_, played, further.represents.congr rfl rfl rfl, further.openFds.trans reaches.openFds⟩

/-- `fd_write` writes to the byte array. -/
theorem run_fdWrite (represents : Represents world.storage world.nextId file)
    (known : fd ∈ world.storage.openFds) (unlocked : world.storage.locked = false) (content : Bytes)
    (offset : ℤ) (constrained : Bool) :
    ∃ after, (fdWrite fd content offset constrained).run world =
        some (.ok (ByteFile.limit file content offset constrained).length, after) ∧
      Reaches world after (ByteFile.writeAt file (ByteFile.limit file content offset constrained) offset) ∧
      after.storage.locked = false := by
  have limited : (if constrained then constrainedContent world.lock.storage.manifest content offset
      else content) = ByteFile.limit file content offset constrained := by
    rw [ByteFile.limit, constrainedContent, ← represents.size_eq]
    rfl
  have placed : normalizeArgument offset world.lock.storage.manifest = ByteFile.normalize file offset := by
    rw [ByteFile.normalize, ← represents.size_eq]
    rfl
  apply exists_run_loadAndLockFile represents known unlocked
  intro held
  simp only [limited, placed, ByteFile.writeAt]
  split
  · next nothing => exact ⟨_, by rw [nothing]; rfl, held, rfl⟩
  · next something => exact run_writeContent held something _

/-- `fd_resize` resizes the byte array. -/
theorem run_fdResize (represents : Represents world.storage world.nextId file)
    (known : fd ∈ world.storage.openFds) (unlocked : world.storage.locked = false) (length : ℕ)
    (truncateOnly : Bool) :
    ∃ after, (fdResize fd length truncateOnly).run world = some (.ok (), after) ∧
      Reaches world after (if truncateOnly ∧ file.length ≤ length then file
        else ByteFile.resize file length) ∧ after.storage.locked = false := by
  apply exists_run_loadAndLockFile represents known unlocked
  intro held
  rw [held.size_eq]
  split
  · exact ⟨_, rfl, held, rfl⟩
  · exact run_manifestResize held length

/-- `fd_flush` changes no byte. -/
theorem run_fdFlush (represents : Represents world.storage world.nextId file)
    (known : fd ∈ world.storage.openFds) (unlocked : world.storage.locked = false) :
    ∃ after, (fdFlush fd).run world = some (.ok (), after) ∧ Reaches world after file ∧
      after.storage.locked = false := by
  apply exists_run_loadAndLockFile represents known unlocked
  intro held
  obtain ⟨after, reshaped, reaches⟩ := run_manifestReshape held false
  refine ⟨after.updateStorage LocalStorage.persist, ?_, reaches.persist⟩
  rw [run_bind_of_ok _ reshaped]
  rfl

/-- `fd_read` reads the byte array, at the first attempt. -/
theorem run_fdRead (represents : Represents world.storage world.nextId file)
    (known : fd ∈ world.storage.openFds) (unlocked : world.storage.locked = false) (size offset : ℤ)
    (raiseEof : Bool) (attempts : ℕ) :
    ∃ after, (fdRead fd size offset raiseEof (attempts + 1) []).run world =
        some (if raiseEof ∧ (file.length : ℤ) ≤ offset then .error .endOfFile
          else .ok (some (ByteFile.read file (ByteFile.normalize file size)
            (ByteFile.normalize file offset))), after) ∧
      Reaches world after file ∧ after.storage.locked = false := by
  obtain ⟨after, attempted, reaches⟩ : ∃ after, (readAttempt fd size offset raiseEof).run world =
      some (if raiseEof ∧ (file.length : ℤ) ≤ offset then .error .endOfFile
        else .ok ((ByteFile.normalize file size, ByteFile.normalize file offset),
          ByteFile.read file (ByteFile.normalize file size) (ByteFile.normalize file offset), []),
        after) ∧ Reaches world after file ∧ after.storage.locked = false := by
    apply exists_run_loadAndLockFile represents known unlocked
    intro held
    have position : ∀ arg, normalizeArgument arg world.lock.storage.manifest =
        ByteFile.normalize file arg := by
      intro arg
      rw [ByteFile.normalize, ← held.size_eq]
      rfl
    simp only [position, held.size_eq]
    split
    · exact ⟨_, rfl, held, rfl⟩
    · split
      · next beyond =>
        refine ⟨_, ?_, held, rfl⟩
        rw [ByteFile.read, List.drop_eq_nil_of_le beyond.le, List.take_nil]
        rfl
      · obtain ⟨start, stop, contiguous, stored, content⟩ := prepareRead_spec held.layout held.positive
          (ByteFile.normalize file size) (ByteFile.normalize file offset)
        refine ⟨_, ?_, held, rfl⟩
        rw [run_bind_of_ok _ (run_buildData contiguous stored), content, held.content]
        rfl
  refine ⟨after, ?_, reaches⟩
  rw [fdRead]
  change (readAttempt fd size offset raiseEof >>= _).run world = _
  rw [run_bind, attempted]
  split <;> rfl

end Descriptor

end Guardata
