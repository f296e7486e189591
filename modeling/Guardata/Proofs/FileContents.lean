import Guardata.Proofs.FileAccess
import Guardata.Proofs.FileReshape

/-! # The content of a file, wherever its data is

The invariant of a file between two transactions when its data may be on the device or in the backend: the
manifest shows the bytes, and what is not on the device can be downloaded. Writes, resizes and reshapes do
to the bytes what they do to a byte array, and a read finds them at its second attempt at the latest.
-/

namespace Guardata

open Machine Coroutine Transaction

/-- Blocks that pass the assertions and that cover the size lie where they should. -/
theorem FileIntegrity.shape {blocksize size : ℕ} {blocks : List (List Chunk)}
    (integrity : FileIntegrity blocksize size blocks) (covered : size ≤ blocks.length * blocksize) :
    FileShape blocksize size blocks := by
  have inside : ∀ block < blocks.length, block * blocksize < size := by
    intro block bound
    have last : blocks.length - 1 < blocks.length := by omega
    have member := List.getElem_mem last
    have stop := (integrity.contiguous _ _ (List.getElem?_eq_getElem last)).lt
      (integrity.occupied _ member) (integrity.proper _ member)
    rw [blockStop, if_pos (by omega)] at stop
    exact (Nat.mul_le_mul_right blocksize (by omega)).trans_lt stop
  refine ⟨fun block => ⟨inside block, fun before => ?_⟩, fun block chunks found => ?_, integrity.proper⟩
  · by_contra beyond
    have := Nat.mul_le_mul_right blocksize (show blocks.length ≤ block by omega)
    omega
  · have bound := (List.getElem?_eq_some_iff.mp found).1
    have contiguous := integrity.contiguous block chunks found
    suffices stop : min ((block + 1) * blocksize) size = blockStop blocksize size blocks block by rwa [stop]
    unfold blockStop
    split
    · next last =>
      rw [last]
      exact min_eq_right covered
    · next more => exact min_eq_left (inside (block + 1) (by omega)).le

/-- The file has these bytes; those that are not on the device can be downloaded. -/
structure Contains (elsewhere : ChunkID → Option Bytes) (world : World) (file : Bytes) : Prop where
  positive : 0 < world.storage.manifest.blocksize
  shows : Shows elsewhere world.storage world.nextId file
  covered : world.storage.manifest.size ≤
    world.storage.manifest.blocks.length * world.storage.manifest.blocksize
  downloadable : Downloadable elsewhere world

/-- What a transaction leads to: the file has these bytes, over the same descriptors. -/
structure Leads (elsewhere : ChunkID → Option Bytes) (world after : World) (file : Bytes) : Prop where
  contains : Contains elsewhere after file
  openFds : after.storage.openFds = world.storage.openFds

theorem rawData_applyWrites {piece : Chunk → Bytes} {storage : LocalStorage}
    {elsewhere : ChunkID → Option Bytes} (operations : List (Chunk × ℤ)) :
    LocalStorage.rawData { storage with
        chunkStorage := applyWrites piece storage.chunkStorage operations } elsewhere =
      applyWrites piece (storage.rawData elsewhere) operations := by
  induction operations generalizing storage with
  | nil => rfl
  | cons operation rest ih =>
    let first : LocalStorage := { storage with
      chunkStorage := Function.update storage.chunkStorage operation.1.id (some (piece operation.1)) }
    have written : first.rawData elsewhere =
        Function.update (storage.rawData elsewhere) operation.1.id (some (piece operation.1)) := by
      funext id
      by_cases here : id = operation.1.id
      · simp [first, LocalStorage.rawData, LocalStorage.held, here]
      · simp [first, LocalStorage.rawData, LocalStorage.held, here]
    exact (@ih first).trans (congrArg (applyWrites piece · rest) written)

/-- What is written under other ids does not matter. -/
theorem applyWrites_of_notMem {piece : Chunk → Bytes} {store : ChunkID → Option Bytes} {id : ChunkID}
    {operations : List (Chunk × ℤ)} (other : ∀ operation ∈ operations, operation.1.id ≠ id) :
    applyWrites piece store operations id = store id := by
  induction operations generalizing store with
  | nil => rfl
  | cons operation rest ih =>
    obtain ⟨here, later⟩ := List.forall_mem_cons.mp other
    exact (ih later).trans (Function.update_of_ne here.symm _ _)

namespace Contains

variable {elsewhere : ChunkID → Option Bytes} {world after : World} {file : Bytes}

theorem layout (contains : Contains elsewhere world file) :
    FileLayout (world.storage.rawData elsewhere) world.storage.manifest.blocksize
      world.storage.manifest.size world.storage.manifest.blocks := by
  have shape := contains.shows.integrity.shape contains.covered
  exact ⟨shape.exists_iff, shape.contiguous, shape.proper,
    fun chunks listed chunk member =>
      contains.shows.stored chunk (List.mem_flatten.mpr ⟨chunks, listed, member⟩), contains.shows.apart⟩

theorem size_eq (contains : Contains elsewhere world file) :
    world.storage.manifest.size = file.length := by
  rw [← contains.shows.content, contains.layout.length_content]

theorem normalizeArgument_eq (contains : Contains elsewhere world file) (arg : ℤ) :
    normalizeArgument arg world.storage.manifest = ByteFile.normalize file arg := by
  rw [ByteFile.normalize, ← contains.size_eq]
  rfl

/-- Only the manifest, the data, the ids and the blocks of the backend count. -/
theorem congr (contains : Contains elsewhere world file)
    (manifest : after.storage.manifest = world.storage.manifest)
    (held : after.storage.held = world.storage.held)
    (ahead : after.storage.aheadOfLocaldb = world.storage.aheadOfLocaldb)
    (nextId : after.nextId = world.nextId) (backend : after.backend.blocks = world.backend.blocks) :
    Contains elsewhere after file := by
  have raw : after.storage.rawData elsewhere = world.storage.rawData elsewhere := by
    funext id
    rw [LocalStorage.rawData, LocalStorage.rawData, held]
  refine ⟨manifest ▸ contains.positive, nextId ▸ contains.shows.congr manifest (fun id _ => by rw [held])
    fun id member => ?_, manifest ▸ contains.covered, fun chunk member gone access has => ?_⟩
  · rwa [LocalStorage.pending, ahead] at member
  · rw [manifest] at member
    rw [held] at gone
    obtain ⟨same, ciphered, data, there, rest⟩ := contains.downloadable chunk member gone access has
    rw [raw]
    exact ⟨same, ciphered, data, backend ▸ there, rest⟩

/-- Carrying out what was prepared leads to the expected bytes. -/
theorem commit (contains : Contains elsewhere world file) {content expected : Bytes} {piece : Chunk → Bytes}
    {prepared : PreparedWrite} (prepares : Prepares (world.storage.rawData elsewhere) world.storage.manifest
      world.nextId content piece expected prepared)
    (stems : Stems world.nextId prepared.manifest.blocks.flatten world.storage.manifest.blocks.flatten)
    (counts : FileDescriptor → ℕ) :
    Leads elsewhere world (world.committed prepared piece counts) expected := by
  let written : LocalStorage := { world.storage with
    chunkStorage := applyWrites piece world.storage.chunkStorage prepared.writeOperations }
  have raw : written.rawData elsewhere =
      applyWrites piece (world.storage.rawData elsewhere) prepared.writeOperations :=
    rawData_applyWrites prepared.writeOperations
  -- A chunk that is not on the device was not written, and was not there before either.
  have absent : ∀ chunk ∈ prepared.manifest.blocks.flatten, written.held chunk.id = none →
      world.storage.held chunk.id = none ∧
        ∃ origin ∈ world.storage.manifest.blocks.flatten, origin.id = chunk.id ∧
          origin.access = chunk.access := by
    intro chunk member gone
    obtain ⟨notStored, notClean⟩ := Option.or_eq_none_iff.mp gone
    have unwritten : ¬ (applyWrites piece world.storage.chunkStorage prepared.writeOperations
        chunk.id).isSome := by
      simp only [written] at notStored
      rw [notStored]
      exact Bool.false_ne_true
    rw [isSome_applyWrites, not_or] at unwritten
    refine ⟨Option.or_eq_none_iff.mpr ⟨by simpa using unwritten.2, notClean⟩, ?_⟩
    rcases stems chunk member with ⟨-, high⟩ | old
    · rcases (prepares.ids chunk.id).mp (mem_chunkIdSet.mpr ⟨chunk, member, rfl⟩) with new | ⟨known, -⟩
      · exact absurd new unwritten.1
      · exact absurd (contains.shows.drawn _ known) high.not_gt
    · exact old
  have older : ∀ id ∈ world.storage.pending ∪ prepared.removedIds, id < world.nextId := by
    intro id member
    rcases Finset.mem_union.mp member with waits | gone
    · exact (contains.shows.waiting id waits).1
    · exact contains.shows.drawn id (prepares.gone gone)
  refine ⟨⟨?_, ⟨?_, ?_, ?_, ?_, ?_, ?_, ?_⟩, ?_, ?_⟩, rfl⟩
  all_goals simp only [World.committed, LocalStorage.cache]
  · exact prepares.blocksize ▸ contains.positive
  · exact prepares.blocksize ▸ prepares.layout.integrity
  · intro chunk member
    change chunk.Stored (written.rawData elsewhere)
    rw [raw]
    exact prepares.layout.stored_flatten chunk member
  · intro chunk member gone
    obtain ⟨missing, origin, found, id, access⟩ := absent chunk member gone
    exact access ▸ contains.shows.reachable origin found (id ▸ missing)
  · change fileContent (written.rawData elsewhere) _ = expected
    rw [raw]
    exact prepares.content
  · exact prepares.layout.apart
  · intro id member
    rcases (prepares.ids id).mp member with ⟨operation, listed, rfl⟩ | ⟨known, -⟩
    · exact (prepares.writes operation listed).2
    · exact (contains.shows.drawn id known).trans_le prepares.drawn
  · intro id member
    change id ∈ world.storage.pending ∪ prepared.removedIds at member
    refine ⟨(older id member).trans_le prepares.drawn, fun inside => ?_⟩
    rcases (prepares.ids id).mp inside with ⟨operation, listed, rfl⟩ | ⟨known, kept⟩
    · exact absurd (older _ member) (prepares.writes operation listed).1.not_gt
    · exact (Finset.mem_union.mp member).elim (fun waits => (contains.shows.waiting id waits).2 known) kept
  · exact prepares.blocksize ▸ prepares.layout.shape.size_le
  · intro chunk member gone access has
    obtain ⟨missing, origin, found, id, same⟩ := absent chunk member gone
    obtain ⟨named, ciphered, data, there, opens, digest, known⟩ :=
      contains.downloadable origin found (id ▸ missing) access (same.trans has)
    refine ⟨named.trans id, ciphered, data, there, opens, digest, ?_⟩
    change written.rawData elsewhere access.id = some data
    have low : access.id < world.nextId :=
      named ▸ contains.shows.drawn _ (mem_chunkIdSet.mpr ⟨origin, found, rfl⟩)
    rw [raw, applyWrites_of_notMem, known]
    rintro operation listed same
    exact absurd low (same ▸ (prepares.writes operation listed).1).not_gt

/-- A reshape changes no byte, and what it leaves behind can still be downloaded. -/
theorem of_manifestReshapes (contains : Contains elsewhere world file) {missing : List BlockAccess}
    (reshaped : ManifestReshapes elsewhere file world after missing) : Leads elsewhere world after file := by
  refine ⟨⟨reshaped.blocksize ▸ contains.positive, reshaped.shows, ?_, fun chunk member gone access has => ?_⟩,
    reshaped.openFds⟩
  · rw [reshaped.size, reshaped.length, reshaped.blocksize]
    exact contains.covered
  · have old := reshaped.absent chunk member gone
    have low := contains.shows.drawn chunk.id (mem_chunkIdSet.mpr ⟨chunk, old, rfl⟩)
    have same := reshaped.held chunk.id (mem_chunkIdSet.mpr ⟨chunk, member, rfl⟩) low
    obtain ⟨named, ciphered, data, there, opens, digest, known⟩ :=
      contains.downloadable chunk old (same.symm.trans gone) access has
    refine ⟨named, ciphered, data, reshaped.backend ▸ there, opens, digest, ?_⟩
    rw [← known, named, LocalStorage.rawData, LocalStorage.rawData, same]

/-- A download changes no byte. -/
theorem downloaded (contains : Contains elsewhere world file) (ids : List BlockID) :
    Leads elsewhere world (world.downloaded (world.storage.rawData elsewhere) ids) file := by
  refine ⟨⟨contains.positive, contains.shows.downloaded ids, contains.covered,
    fun chunk member gone access has => ?_⟩, rfl⟩
  rw [rawData_downloaded]
  exact contains.downloadable chunk member (held_downloaded_eq_none_iff.mp gone).1 access has

/-- What a read looks at is on the device or can be downloaded. -/
theorem available_readChunks (contains : Contains elsewhere world file) (size offset : ℤ) (raiseEof : Bool) :
    ∀ chunk ∈ world.storage.manifest.readChunks size offset raiseEof,
      world.storage.Available (world.storage.rawData elsewhere) chunk ∧
        ∀ access, world.storage.held chunk.id = none → chunk.access = some access →
          access.id = chunk.id ∧ world.backend.Serves (world.storage.rawData elsewhere) access := by
  intro chunk member
  unfold LocalFileManifest.readChunks at member
  dsimp only at member
  split at member
  · cases member
  · obtain ⟨origin, found, id, rawSize, same⟩ := mem_prepareRead member
    obtain ⟨stored, consistent, reachable⟩ := contains.shows.available found
    rw [id, same]
    exact ⟨⟨by rwa [Chunk.Stored, id, rawSize], by rwa [id], by rwa [id, same]⟩,
      fun access gone has => contains.downloadable origin found gone access has⟩

/-- What a read misses is served, and nothing is missing once it was downloaded. -/
theorem serves_readChunks (contains : Contains elsewhere world file) (size offset : ℤ) (raiseEof : Bool) :
    let chunks := world.storage.manifest.readChunks size offset raiseEof
    let missing := world.storage.missing chunks
    (∀ access ∈ missing, world.backend.Serves (world.storage.rawData elsewhere) access) ∧
      (world.downloaded (world.storage.rawData elsewhere) (missing.map BlockAccess.id)).storage.missing chunks =
        [] := by
  intro chunks missing
  have available := contains.available_readChunks size offset raiseEof
  constructor
  · intro access member
    obtain ⟨chunk, inside, gone, has⟩ := exists_of_mem_missing member
    exact ((available chunk inside).2 access gone has).2
  · refine List.eq_nil_iff_forall_not_mem.mpr fun access member => ?_
    obtain ⟨chunk, inside, gone, has⟩ := exists_of_mem_missing member
    obtain ⟨before, nowhere⟩ := held_downloaded_eq_none_iff.mp gone
    obtain ⟨named, -, data, -, -, -, known⟩ := (available chunk inside).2 access before has
    have reported : access ∈ missing :=
      List.mem_filterMap.mpr ⟨chunk, List.mem_filter.mpr ⟨inside, decide_eq_true before⟩, has⟩
    rw [named, LocalStorage.rawData, before, Option.none_or,
      nowhere (named ▸ List.mem_map_of_mem reported)] at known
    cases known

theorem content_readChunks (contains : Contains elsewhere world file) (size offset : ℤ) :
    let chunks := world.storage.manifest.readChunks size offset false
    (∃ start stop, Contiguous start chunks stop) ∧ chunksContent (world.storage.rawData elsewhere) chunks =
      ByteFile.read file (ByteFile.normalize file size) (ByteFile.normalize file offset) := by
  unfold LocalFileManifest.readChunks
  simp only [contains.normalizeArgument_eq, Bool.false_eq_true, false_and, false_or]
  split
  · next beyond =>
    rw [contains.size_eq] at beyond
    refine ⟨⟨0, 0, rfl⟩, ?_⟩
    rw [ByteFile.read, List.drop_eq_nil_of_le beyond.le, List.take_nil]
    rfl
  · obtain ⟨start, stop, contiguous, -, content⟩ := prepareRead_spec contains.layout contains.positive
      (ByteFile.normalize file size) (ByteFile.normalize file offset)
    exact ⟨⟨start, stop, contiguous⟩, content.trans (by rw [contains.shows.content])⟩

end Contains

section Run

variable {elsewhere : ChunkID → Option Bytes} {world : World} {file : Bytes} {fd : FileDescriptor}

/-- A body under the entry lock, seen from outside. -/
theorem Contains.exists_loadAndLockFile {α : Type} {body : LocalFileManifest → Transaction α}
    {result : Except FileError α} {later : Bytes} (contains : Contains elsewhere world file)
    (known : fd ∈ world.storage.openFds) (unlocked : world.storage.locked = false)
    (played : Contains elsewhere world.lock file →
      ∃ after, (body world.lock.storage.manifest).run world.lock = some (result, after) ∧
        Leads elsewhere world.lock after later) :
    ∃ after, (loadAndLockFile fd body).run world = some (result, after) ∧
      Leads elsewhere world after later ∧ after.storage.locked = false := by
  obtain ⟨after, played, leads⟩ := played (contains.congr rfl rfl rfl rfl rfl)
  exact ⟨_, run_loadAndLockFile known unlocked played,
    ⟨leads.contains.congr rfl rfl rfl rfl rfl, leads.openFds⟩, rfl⟩

/-- `_manifest_reshape` changes no byte. -/
theorem Contains.exists_manifestReshape (contains : Contains elsewhere world file) (cacheOnly : Bool) :
    ∃ after missing, (manifestReshape world.storage.manifest cacheOnly).run world =
      some (.ok missing, after) ∧ Leads elsewhere world after file := by
  obtain ⟨after, missing, played, reshaped⟩ := Guardata.exists_manifestReshape contains.shows cacheOnly
  exact ⟨after, missing, played, contains.of_manifestReshapes reshaped⟩

/-- `_manifest_resize` resizes the bytes. -/
theorem Contains.exists_manifestResize (contains : Contains elsewhere world file) (length : ℕ) :
    ∃ after, (manifestResize world.storage.manifest length true).run world = some (.ok (), after) ∧
      Leads elsewhere world after (ByteFile.resize file length) := by
  by_cases same : world.storage.manifest.size = length
  · refine ⟨world, ?_, ?_, rfl⟩
    · rw [manifestResize, if_pos same]
      rfl
    · rwa [← same, contains.size_eq, ByteFile.resize_length]
  · obtain ⟨prepared, piece, computed, prepares⟩ := prepareResize_spec contains.layout contains.positive
      contains.shows.drawn same world.clock
    rw [contains.shows.content] at prepares
    exact ⟨_, run_manifestResize_of_prepared same computed prepares.data,
      contains.commit prepares (stems_prepareResize computed) _⟩

theorem Contains.exists_writeContent (contains : Contains elsewhere world file) {content : Bytes}
    (something : content ≠ []) (offset : ℕ) :
    ∃ after, (writeContent fd world.storage.manifest content offset).run world =
        some (.ok content.length, after) ∧
      Leads elsewhere world after (ByteFile.write file content offset) := by
  have positive : 0 < content.length := List.length_pos_iff.mpr something
  obtain ⟨prepared, piece, computed, prepares⟩ := prepareWrite_spec contains.layout contains.positive
    contains.shows.drawn content offset (by omega) world.clock
  rw [contains.shows.content] at prepares
  obtain ⟨counts, written⟩ := run_writeContent_of_prepared computed prepares.data
  have leads := contains.commit prepares (stems_prepareWrite computed) counts
  obtain ⟨after, missing, reshaped, further⟩ := leads.contains.exists_manifestReshape true
  obtain ⟨final, played, rfl | rfl⟩ := written missing after reshaped
  · exact ⟨_, played, leads⟩
  · exact ⟨_, played, further.contains.congr rfl rfl rfl rfl rfl, further.openFds.trans leads.openFds⟩

/-- `fd_write` writes to the bytes. -/
theorem Contains.exists_fdWrite (contains : Contains elsewhere world file)
    (known : fd ∈ world.storage.openFds) (unlocked : world.storage.locked = false) (content : Bytes)
    (offset : ℤ) :
    ∃ after, (fdWrite fd content offset false).run world = some (.ok content.length, after) ∧
      Leads elsewhere world after (ByteFile.writeAt file content offset) ∧ after.storage.locked = false := by
  apply contains.exists_loadAndLockFile known unlocked
  intro held
  simp only [held.normalizeArgument_eq, ByteFile.writeAt, Bool.false_eq_true, ↓reduceIte]
  split
  · next nothing => exact ⟨_, by rw [nothing]; rfl, held, rfl⟩
  · next something => exact held.exists_writeContent something _

/-- `fd_resize` resizes the bytes. -/
theorem Contains.exists_fdResize (contains : Contains elsewhere world file)
    (known : fd ∈ world.storage.openFds) (unlocked : world.storage.locked = false) (length : ℕ)
    (truncateOnly : Bool) :
    ∃ after, (fdResize fd length truncateOnly).run world = some (.ok (), after) ∧
      Leads elsewhere world after (if truncateOnly ∧ file.length ≤ length then file
        else ByteFile.resize file length) ∧ after.storage.locked = false := by
  apply contains.exists_loadAndLockFile known unlocked
  intro held
  rw [held.size_eq]
  split
  · exact ⟨_, rfl, held, rfl⟩
  · exact held.exists_manifestResize length

/-- An attempt to read changes nothing, and finds the bytes unless something is missing. -/
theorem Contains.run_readAttempt (contains : Contains elsewhere world file)
    (known : fd ∈ world.storage.openFds) (unlocked : world.storage.locked = false) (size offset : ℤ) :
    let missing := world.storage.missing (world.storage.manifest.readChunks size offset false)
    ∃ data, (readAttempt fd size offset false).run world = some (.ok ((normalizeArgument size
        world.storage.manifest, normalizeArgument offset world.storage.manifest), data, missing), world) ∧
      (missing = [] →
        data = ByteFile.read file (ByteFile.normalize file size) (ByteFile.normalize file offset)) := by
  intro missing
  have locked : Contains elsewhere world.lock file := contains.congr rfl rfl rfl rfl rfl
  obtain ⟨⟨start, stop, contiguous⟩, content⟩ := locked.content_readChunks size offset
  have available := fun chunk member => (locked.available_readChunks size offset false chunk member).1
  obtain ⟨data, complete, built⟩ : ∃ data, (missing = [] → data =
      ByteFile.read file (ByteFile.normalize file size) (ByteFile.normalize file offset)) ∧
      (buildData (world.storage.manifest.readChunks size offset false)).run world.lock =
        some (.ok (data, missing), world.lock) := by
    rw [← content]
    exact run_buildData_of_available contiguous available
  have unlock : world.lock.updateStorage (fun storage => { storage with locked := false }) = world := by
    simp only [World.lock, World.updateStorage, ← unlocked]
  refine ⟨data, ?_, complete⟩
  suffices played : (readAttempt fd size offset false).run world = some (.ok ((normalizeArgument size
      world.storage.manifest, normalizeArgument offset world.storage.manifest), data, missing),
      world.lock.updateStorage fun storage => { storage with locked := false }) by rwa [unlock] at played
  refine run_loadAndLockFile known unlocked ?_
  rw [if_neg (by simp)]
  clear_value missing
  unfold LocalFileManifest.readChunks at built
  simp only [Bool.false_eq_true, false_and, false_or] at built ⊢
  split
  · next beyond =>
    rw [if_pos beyond] at built
    cases built
    rfl
  · next inside =>
    rw [if_neg inside] at built
    exact run_bind_of_ok _ built

/-- A round of the loop of `fd_read`. -/
theorem run_fdRead_succ {size offset : ℤ} {accesses missing : List BlockAccess} {middle after : World}
    {width position : ℕ} {data : Bytes} (loaded : (loadBlocks accesses).run world = some (.ok (), middle))
    (attempted : (readAttempt fd size offset false).run middle =
      some (.ok ((width, position), data, missing), after)) (attempts : ℕ) :
    (fdRead fd size offset false (attempts + 1) accesses).run world =
      if missing = [] then some (.ok (some data), after)
      else (fdRead fd width position false attempts missing).run after := by
  rw [fdRead, run_bind_of_ok _ loaded, run_bind_of_ok _ attempted]
  dsimp only
  split <;> rfl

/-- `fd_read` finds the bytes at the second attempt at the latest. -/
theorem Contains.exists_fdRead (contains : Contains elsewhere world file)
    (known : fd ∈ world.storage.openFds) (unlocked : world.storage.locked = false) (size offset : ℤ)
    (attempts : ℕ) :
    ∃ after, (fdRead fd size offset false (attempts + 2) []).run world =
        some (.ok (some (ByteFile.read file (ByteFile.normalize file size) (ByteFile.normalize file offset))),
          after) ∧ Leads elsewhere world after file ∧ after.storage.locked = false := by
  obtain ⟨data, attempted, found⟩ := contains.run_readAttempt known unlocked size offset
  rw [run_fdRead_succ rfl attempted]
  split
  · next nothing =>
    rw [found nothing]
    exact ⟨world, rfl, ⟨contains, rfl⟩, unlocked⟩
  · next something =>
    -- What is missing is downloaded, and nothing is missing in the second attempt.
    let chunks := world.storage.manifest.readChunks size offset false
    let next := world.downloaded (world.storage.rawData elsewhere)
      ((world.storage.missing chunks).map BlockAccess.id)
    have leads : Leads elsewhere world next file := contains.downloaded _
    obtain ⟨served, nothing⟩ := contains.serves_readChunks size offset false
    have same : next.storage.manifest.readChunks (normalizeArgument size world.storage.manifest : ℕ)
        (normalizeArgument offset world.storage.manifest : ℕ) false = chunks :=
      readChunks_normalized size (by simp) (by simp)
    obtain ⟨again, attempted, found⟩ := leads.contains.run_readAttempt known unlocked
      (normalizeArgument size world.storage.manifest : ℕ) (normalizeArgument offset world.storage.manifest : ℕ)
    rw [same] at attempted found
    have position : ∀ arg, ByteFile.normalize file (normalizeArgument arg world.storage.manifest : ℕ) =
        ByteFile.normalize file arg := by
      intro arg
      rw [contains.normalizeArgument_eq, ByteFile.normalize, if_neg (by omega), Int.toNat_natCast]
    rw [run_fdRead_succ (run_loadBlocks served) attempted, if_pos nothing, found nothing, position, position]
    exact ⟨next, rfl, leads, unlocked⟩

end Run

end Guardata
