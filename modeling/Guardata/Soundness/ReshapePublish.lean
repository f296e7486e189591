import Guardata.Proofs.FileReshape
import Guardata.Soundness.UploadedBlocks

/-! # Reshaping and publishing a file

A reshape changes no byte of a file, however many of its blocks are missing. When nothing is missing any
more the file can be uploaded, and who downloads it reads the same bytes; with nothing evicted in between,
that is so after one round of downloads. This rests on two things that `assert_integrity` does not check: no
chunk id occurs in two blocks, and accesses name the raw data of their chunks.
-/

namespace Guardata

open Machine Coroutine Transaction

/-- A file that can be reshaped: its raw data is on the device or elsewhere, and what is elsewhere
has an access. -/
structure Reshapable (elsewhere : ChunkID → Option Bytes) (world : World) : Prop where
  checked : world.storage.manifest.assertIntegrity = .ok ()
  positive : 0 < world.storage.manifest.blocksize
  stored : ∀ chunk ∈ world.storage.manifest.blocks.flatten, chunk.Stored (world.storage.rawData elsewhere)
  reachable : ∀ chunk ∈ world.storage.manifest.blocks.flatten, world.storage.held chunk.id = none →
    chunk.access ≠ none
  drawn : ∀ id ∈ fileIds world.storage.manifest.blocks, id < world.nextId
  waiting : ∀ id ∈ world.storage.pending, id < world.nextId ∧ id ∉ fileIds world.storage.manifest.blocks

/-- The bytes that `fd_read` puts together. -/
def LocalFileManifest.read (manifest : LocalFileManifest) (store : ChunkID → Option Bytes) (size offset : ℕ) :
    Bytes :=
  chunksContent store (prepareRead manifest size offset)

/-- The content of the file has not changed. -/
def SameContent (elsewhere : ChunkID → Option Bytes) (storage after : LocalStorage) : Prop :=
  after.manifest.assertIntegrity = .ok () ∧ after.manifest.size = storage.manifest.size ∧
    fileContent (after.rawData elsewhere) after.manifest.blocks =
      fileContent (storage.rawData elsewhere) storage.manifest.blocks ∧
    ∀ size offset, after.manifest.read (after.rawData elsewhere) size offset =
      storage.manifest.read (storage.rawData elsewhere) size offset

/-- The blocks that are there already have accesses to their raw data. -/
def BlocksNamed (elsewhere : ChunkID → Option Bytes) (storage : LocalStorage) : Prop :=
  ∀ chunk, [chunk] ∈ storage.manifest.blocks → chunk.isBlock → ∀ access, chunk.access = some access →
    access.Names (storage.rawData elsewhere) chunk

/-- The uploaded version carries accesses to the right data, and given these blocks, it reads the
same bytes. -/
def ReadsBack (elsewhere : ChunkID → Option Bytes) (storage after : LocalStorage)
    (remote : RemoteFileManifest) :
    Prop :=
  (∀ access ∈ remote.blocks, ∃ data, after.rawData elsewhere access.id = some data ∧
    access.digest = .fromData data) ∧
  ∀ given : BlockID → Option Bytes,
    (∀ access ∈ remote.blocks, given access.id = after.rawData elsewhere access.id) →
    ∀ size offset, (LocalFileManifest.fromRemote remote).read given size offset =
      storage.manifest.read (storage.rawData elsewhere) size offset

/-- The file can be uploaded under its size, and it reads back if its blocks were in order. -/
def Publishes (elsewhere : ChunkID → Option Bytes) (storage after : LocalStorage) : Prop :=
  after.manifest.isReshaped ∧ ∀ author timestamp, ∃ remote,
    after.manifest.toRemote author timestamp = .ok remote ∧
    (LocalFileManifest.fromRemote remote).size = storage.manifest.size ∧
    (BlocksNamed elsewhere storage → ReadsBack elsewhere storage after remote)

section Published

variable {elsewhere store : ChunkID → Option Bytes} {world after : World} {file : Bytes}

/-- What a file reads depends on its size, its blocksize and its bytes. -/
theorem read_congr {manifest other : LocalFileManifest} {data otherData : ChunkID → Option Bytes}
    (integrity : FileIntegrity manifest.blocksize manifest.size manifest.blocks)
    (otherIntegrity : FileIntegrity other.blocksize other.size other.blocks)
    (positive : 0 < manifest.blocksize)
    (stored : ∀ chunk ∈ manifest.blocks.flatten, chunk.Stored data)
    (otherStored : ∀ chunk ∈ other.blocks.flatten, chunk.Stored otherData)
    (size : other.size = manifest.size) (blocksize : other.blocksize = manifest.blocksize)
    (length : other.blocks.length = manifest.blocks.length)
    (content : fileContent otherData other.blocks = fileContent data manifest.blocks) (count offset : ℕ) :
    other.read otherData count offset = manifest.read data count offset := by
  have left := (otherIntegrity.prepareRead_spec (blocksize ▸ positive) otherStored count offset).2
  have right := (integrity.prepareRead_spec positive stored count offset).2
  rw [LocalFileManifest.read, LocalFileManifest.read, left, right, size, blocksize, length, content]

theorem Reshapable.shows (reshapable : Reshapable elsewhere world)
    (apart : BlocksApart world.storage.manifest.blocks) :
    Shows elsewhere world.storage world.nextId
      (fileContent (world.storage.rawData elsewhere) world.storage.manifest.blocks) :=
  ⟨assertIntegrity_eq_ok_iff.mp reshapable.checked, reshapable.stored, reshapable.reachable, rfl, apart,
    reshapable.drawn, reshapable.waiting⟩

/-- Two states that show the same bytes in as many blocks have the same content. -/
theorem Shows.sameContent {storage later : LocalStorage} {nextId nextLater : ℕ}
    (positive : 0 < storage.manifest.blocksize)
    (shows : Shows elsewhere storage nextId file) (still : Shows elsewhere later nextLater file)
    (size : later.manifest.size = storage.manifest.size)
    (blocksize : later.manifest.blocksize = storage.manifest.blocksize)
    (length : later.manifest.blocks.length = storage.manifest.blocks.length) :
    SameContent elsewhere storage later :=
  have content := still.content.trans shows.content.symm
  ⟨assertIntegrity_eq_ok_iff.mpr still.integrity, size, content,
    read_congr shows.integrity still.integrity positive shows.stored still.stored size blocksize length content⟩

theorem exists_mapM_blockAccess {blocks : List (List Chunk)} (reshaped : ∀ chunks ∈ blocks,
    IsReshapedBlock chunks) :
    ∃ accesses, blocks.mapM LocalFileManifest.blockAccess = .ok accesses := by
  induction blocks with
  | nil => exact ⟨[], rfl⟩
  | cons chunks rest ih =>
    obtain ⟨⟨chunk, rfl, isBlock⟩, later⟩ := List.forall_mem_cons.mp reshaped
    obtain ⟨accesses, mapped⟩ := ih later
    obtain ⟨access, has⟩ : ∃ access, chunk.access = some access := by
      cases has : chunk.access with
      | none => rw [Chunk.isBlock, has] at isBlock; cases isBlock
      | some access => exact ⟨access, rfl⟩
    have accessed : LocalFileManifest.blockAccess [chunk] = .ok access := by
      rw [LocalFileManifest.blockAccess, Chunk.getBlockAccess, Except.require, if_pos isBlock, has]
      rfl
    refine ⟨access :: accesses, ?_⟩
    rw [List.mapM_cons, accessed, mapped]
    rfl

/-- A manifest of blocks can be uploaded. -/
theorem exists_toRemote {manifest : LocalFileManifest} (checked : manifest.assertIntegrity = .ok ())
    (blocks : ∀ chunks ∈ manifest.blocks, IsReshapedBlock chunks) (author : DeviceID) (timestamp : DateTime) :
    manifest.isReshaped ∧ ∃ remote, manifest.toRemote author timestamp = .ok remote ∧
      remote.size = manifest.size ∧ remote.blocksize = manifest.blocksize ∧
      manifest.blocks.mapM LocalFileManifest.blockAccess = .ok remote.blocks := by
  have isReshaped : manifest.isReshaped := by
    refine List.all_eq_true.mpr fun chunks member => ?_
    obtain ⟨chunk, rfl, isBlock⟩ := blocks chunks member
    exact isBlock
  obtain ⟨accesses, mapped⟩ := exists_mapM_blockAccess blocks
  refine ⟨isReshaped, ⟨author, timestamp, manifest.base.id, manifest.base.parent, manifest.baseVersion + 1,
    manifest.base.created, manifest.updated, manifest.size, manifest.blocksize, accesses⟩, ?_, rfl,
      rfl, mapped⟩
  rw [LocalFileManifest.toRemote, checked, Except.ok_bind, Except.require, if_pos isReshaped,
    Except.ok_bind, mapped]
  rfl

namespace ManifestReshapes

theorem isReshapedBlock (reshaped : ManifestReshapes elsewhere file world after []) :
    ∀ chunks ∈ after.storage.manifest.blocks, IsReshapedBlock chunks := by
  intro chunks member
  obtain ⟨block, stands⟩ := List.mem_iff_getElem?.mp member
  have bound := (List.getElem?_eq_some_iff.mp stands).1
  rw [reshaped.length] at bound
  rcases reshaped.outcome block _ (List.getElem?_eq_getElem bound) with
    ⟨chunk, there, isBlock, -⟩ | ⟨-, -, some, listed⟩
  · obtain rfl := Option.some.inj (there.symm.trans stands)
    exact ⟨chunk, rfl, isBlock⟩
  · exact absurd (List.eq_nil_iff_forall_not_mem.mpr fun access member =>
      absurd (listed access member) List.not_mem_nil) some

/-- Blocks that were there keep their accesses, and new accesses name what was stored. -/
theorem names (reshaped : ManifestReshapes elsewhere file world after [])
    (shows : Shows elsewhere world.storage world.nextId file) (named : BlocksNamed elsewhere world.storage)
    {chunk : Chunk} (member : [chunk] ∈ after.storage.manifest.blocks) {access : BlockAccess}
    (has : chunk.access = some access) : access.Names (after.storage.rawData elsewhere) chunk := by
  obtain ⟨block, stands⟩ := List.mem_iff_getElem?.mp member
  have bound := (List.getElem?_eq_some_iff.mp stands).1
  rw [reshaped.length] at bound
  have found := List.getElem?_eq_getElem bound
  rcases reshaped.outcome block _ found with ⟨other, there, isBlock, kept⟩ | ⟨-, -, some, listed⟩
  · obtain rfl : other = chunk := by simpa using there.symm.trans stands
    rcases kept with old | ⟨-, names⟩
    · rw [old] at found
      obtain ⟨same, data, stored, digest⟩ := named other (List.mem_of_getElem? found) isBlock access has
      have inside : ∀ {blocks : List (List Chunk)}, blocks[block]? = .some [other] →
        other.id ∈ fileIds blocks :=
        fun here => mem_fileIds_iff.mpr ⟨block, [other], here, mem_chunkIdSet.mpr
          ⟨other, List.mem_cons_self, rfl⟩⟩
      refine ⟨same, data, ?_, digest⟩
      rw [← stored, LocalStorage.rawData, LocalStorage.rawData,
        reshaped.held _ (inside there) (shows.drawn _ (inside found))]
    · exact names access has
  · exact absurd (List.eq_nil_iff_forall_not_mem.mpr fun access member =>
      absurd (listed access member) List.not_mem_nil) some

/-- With nothing missing, the file can be published. -/
theorem publishes (reshaped : ManifestReshapes elsewhere file world after [])
    (shows : Shows elsewhere world.storage world.nextId file)
    (positive : 0 < world.storage.manifest.blocksize) :
    Publishes elsewhere world.storage after.storage := by
  have blocks := reshaped.isReshapedBlock
  have integrity := reshaped.shows.integrity
  have checked := assertIntegrity_eq_ok_iff.mpr integrity
  refine ⟨(exists_toRemote checked blocks default 0).1, fun author timestamp => ?_⟩
  obtain ⟨-, remote, made, size, blocksize, mapped⟩ := exists_toRemote checked blocks author timestamp
  refine ⟨remote, made, size.trans reshaped.size, fun named => ?_⟩
  have names : ∀ chunk ∈ after.storage.manifest.blocks.flatten, ∀ access, chunk.access = some access →
      access.Names (after.storage.rawData elsewhere) chunk := by
    intro chunk member access has
    obtain ⟨chunks, listed, inside⟩ := List.mem_flatten.mp member
    obtain ⟨single, rfl, -⟩ := blocks chunks listed
    obtain rfl := List.mem_singleton.mp inside
    exact reshaped.names shows named listed has
  have same : (LocalFileManifest.fromRemote remote).blocks = after.storage.manifest.blocks :=
    fromBlockAccess_of_mapM blocks (fun chunk member access has => (names chunk member access has).1) mapped
  have listed : ∀ access ∈ remote.blocks, Chunk.fromBlockAccess access ∈
    after.storage.manifest.blocks.flatten := by
    intro access member
    rw [← same]
    exact List.mem_flatten.mpr ⟨_, List.mem_map_of_mem member, List.mem_cons_self⟩
  refine ⟨fun access member => (names _ (listed access member) access rfl).2,
    fun given agree count offset => ?_⟩
  -- The blocks that are given have the data of the chunks
  have alike : ∀ id ∈ fileIds after.storage.manifest.blocks,
    given id = after.storage.rawData elsewhere id := by
    intro id member
    rw [← same] at member
    obtain ⟨chunk, inside, rfl⟩ := mem_chunkIdSet.mp member
    obtain ⟨chunks, there, inside⟩ := List.mem_flatten.mp inside
    obtain ⟨access, known, rfl⟩ := List.mem_map.mp there
    obtain rfl := List.mem_singleton.mp inside
    exact agree access known
  have stored : ∀ chunk ∈ after.storage.manifest.blocks.flatten, chunk.Stored given := by
    intro chunk member
    rw [Chunk.Stored, alike _ (mem_chunkIdSet.mpr ⟨chunk, member, rfl⟩)]
    exact reshaped.shows.stored chunk member
  have whole : FileIntegrity (LocalFileManifest.fromRemote remote).blocksize
      (LocalFileManifest.fromRemote remote).size (LocalFileManifest.fromRemote remote).blocks := by
    rw [same]
    change FileIntegrity remote.blocksize remote.size _
    rw [size, blocksize]
    exact integrity
  have content : fileContent given (LocalFileManifest.fromRemote remote).blocks =
      fileContent (after.storage.rawData elsewhere) after.storage.manifest.blocks := by
    rw [same]
    exact chunksContent_congr alike
  have kept := shows.sameContent positive reshaped.shows reshaped.size reshaped.blocksize reshaped.length
  rw [read_congr integrity whole (reshaped.blocksize ▸ positive) reshaped.shows.stored
    (by rwa [same]) size blocksize
    (by rw [same]) content count offset]
  exact kept.2.2.2 count offset

end ManifestReshapes

/-- A round of `file_reshape`. -/
theorem exists_fileReshape (shows : Shows elsewhere world.storage world.nextId file)
    (unlocked : world.storage.locked = false) :
    ∃ after missing, fileReshape.run world = some (.ok missing, after) ∧
      ManifestReshapes elsewhere file world after missing := by
  let locked := world.updateStorage fun storage => { storage with locked := true }
  have still : Shows elsewhere locked.storage locked.nextId file := shows.congr rfl
    (fun _ _ => rfl) fun _ => id
  obtain ⟨after, missing, played, reshaped⟩ := exists_manifestReshape still false
  refine ⟨after.updateStorage fun storage => { storage with locked := false }, missing,
    run_lockEntry unlocked ?_, reshaped.shows.congr rfl (fun _ _ => rfl) fun _ => id, reshaped.held,
    reshaped.backend, unlocked.symm, reshaped.size, reshaped.blocksize, reshaped.length, reshaped.outcome,
    reshaped.reported, reshaped.openFds, reshaped.absent⟩
  have loaded : getManifest.run locked = some (.ok world.storage.manifest, locked) := rfl
  rw [run_bind_of_ok _ loaded]
  exact played

/-- What a round reports is served, also after the round. -/
theorem serves_of_reported {missing : List BlockAccess}
    (shows : Shows elsewhere world.storage world.nextId file)
    (reshaped : ManifestReshapes elsewhere file world after missing)
    (downloadable : Downloadable elsewhere world) :
    ∀ access ∈ missing, after.backend.Serves (after.storage.rawData elsewhere) access := by
  intro access member
  obtain ⟨chunks, listed, raw, reported⟩ := reshaped.reported access member
  obtain ⟨chunk, inside, gone, has⟩ := exists_of_mem_missing reported
  obtain ⟨block, found⟩ := List.mem_iff_getElem?.mp listed
  obtain ⟨same, served⟩ :=
    downloadable chunk (List.mem_flatten.mpr ⟨chunks, listed, inside⟩) gone access has
  rcases reshaped.outcome block chunks found with ⟨single, -, isBlock, rfl | ⟨nothing, -⟩⟩ | ⟨there, -⟩
  · exact absurd ⟨single, rfl, isBlock⟩ raw
  · rw [nothing] at reported
    cases reported
  · have idIn : ∀ {blocks : List (List Chunk)}, blocks[block]? = some chunks → chunk.id ∈ fileIds blocks :=
      fun here => mem_fileIds_iff.mpr ⟨block, chunks, here, mem_chunkIdSet.mpr ⟨chunk, inside, rfl⟩⟩
    obtain ⟨ciphered, data, stored, opens, digest, known⟩ := served
    refine ⟨ciphered, data, reshaped.backend ▸ stored, opens, digest, ?_⟩
    rw [← known, same, LocalStorage.rawData, LocalStorage.rawData,
      reshaped.held _ (idIn there) (shows.drawn _ (idIn found))]

/-- After a round and its downloads, nothing is missing in the blocks that are left. -/
theorem missing_downloaded {missing : List BlockAccess}
    (shows : Shows elsewhere world.storage world.nextId file)
    (reshaped : ManifestReshapes elsewhere file world after missing)
    (downloadable : Downloadable elsewhere world) :
    let next := after.downloaded (after.storage.rawData elsewhere) (missing.map BlockAccess.id)
    ∀ chunks ∈ next.storage.manifest.blocks, ¬ IsReshapedBlock chunks → next.storage.missing chunks = [] := by
  intro next chunks listed raw
  refine List.eq_nil_iff_forall_not_mem.mpr fun access member => ?_
  obtain ⟨chunk, inside, gone, has⟩ := exists_of_mem_missing member
  obtain ⟨block, stands⟩ := List.mem_iff_getElem?.mp listed
  have stands : after.storage.manifest.blocks[block]? = some chunks := stands
  have bound := (List.getElem?_eq_some_iff.mp stands).1
  rw [reshaped.length] at bound
  rcases reshaped.outcome block _ (List.getElem?_eq_getElem bound) with
    ⟨single, there, isBlock, -⟩ | ⟨there, -, -, reports⟩
  · obtain rfl := Option.some.inj (there.symm.trans stands)
    exact raw ⟨single, rfl, isBlock⟩
  · have same := Option.some.inj (there.symm.trans stands)
    rw [same] at reports
    have found : world.storage.manifest.blocks[block]? = some chunks := by
      rw [List.getElem?_eq_getElem bound, same]
    have idIn : ∀ {blocks : List (List Chunk)}, blocks[block]? = some chunks → chunk.id ∈ fileIds blocks :=
      fun here => mem_fileIds_iff.mpr ⟨block, chunks, here, mem_chunkIdSet.mpr ⟨chunk, inside, rfl⟩⟩
    obtain ⟨notThere, nowhere⟩ := held_downloaded_eq_none_iff.mp gone
    rw [reshaped.held _ (idIn stands) (shows.drawn _ (idIn found))] at notThere
    have reported : access ∈ missing := reports access
      (List.mem_filterMap.mpr ⟨chunk, List.mem_filter.mpr ⟨inside, decide_eq_true notThere⟩, has⟩)
    obtain ⟨named, -, data, -, -, -, known⟩ := downloadable chunk
      (List.mem_flatten.mpr ⟨chunks, List.mem_of_getElem? found, inside⟩) notThere access has
    rw [named, LocalStorage.rawData, notThere, Option.none_or,
      nowhere (named ▸ List.mem_map_of_mem reported)] at known
    cases known

/-- The loop of `file_reshape` takes at most two rounds, with one download in between. -/
theorem exists_fileReshapeRounds (shows : Shows elsewhere world.storage world.nextId file)
    (positive : 0 < world.storage.manifest.blocksize) (unlocked : world.storage.locked = false)
    (downloadable : Downloadable elsewhere world) :
    ∃ after, (fileReshapeRounds 2).run world = some (.ok (some ()), after) ∧
      SameContent elsewhere world.storage after.storage ∧ after.storage.manifest.isReshaped := by
  obtain ⟨middle, missing, played, reshaped⟩ := exists_fileReshape shows unlocked
  by_cases nothing : missing = []
  · subst nothing
    refine ⟨middle, ?_,
      shows.sameContent positive reshaped.shows reshaped.size reshaped.blocksize reshaped.length,
      (reshaped.publishes shows positive).1⟩
    rw [fileReshapeRounds, run_bind_of_ok _ played, if_pos rfl]
    rfl
  · have loaded := run_loadBlocks (serves_of_reported shows reshaped downloadable)
    have next := reshaped.shows.downloaded (missing.map BlockAccess.id)
    obtain ⟨after, more, again, final⟩ := exists_fileReshape next (reshaped.locked.trans unlocked)
    obtain rfl : more = [] := by
      refine List.eq_nil_iff_forall_not_mem.mpr fun access member => ?_
      obtain ⟨chunks, listed, raw, reported⟩ := final.reported access member
      rw [missing_downloaded shows reshaped downloadable chunks listed raw] at reported
      cases reported
    have still : 0 < middle.storage.manifest.blocksize := reshaped.blocksize ▸ positive
    refine ⟨after, ?_, shows.sameContent positive final.shows (final.size.trans reshaped.size)
      (final.blocksize.trans reshaped.blocksize) (final.length.trans reshaped.length),
        (final.publishes next still).1⟩
    rw [fileReshapeRounds, run_bind_of_ok _ played, if_neg nothing, run_bind_of_ok _ loaded,
      fileReshapeRounds,
      run_bind_of_ok _ again, if_pos rfl]
    rfl

end Published

/-- For every file that passes its assertions and no chunk id of which occurs in two blocks: a reshape
leaves the
content unchanged, whatever is missing. If nothing is missing, the file can be published and reads back. If
what is missing can be downloaded, one round of downloads is enough. -/
theorem reshape_then_publish (elsewhere : ChunkID → Option Bytes) (world : World)
    (reshapable : Reshapable elsewhere world) (apart : BlocksApart world.storage.manifest.blocks) :
    (∀ cacheOnly, ∃ after missing,
      (manifestReshape world.storage.manifest cacheOnly).run world = some (.ok missing, after) ∧
      SameContent elsewhere world.storage after.storage ∧
      (missing = [] → Publishes elsewhere world.storage after.storage)) ∧
    (world.storage.locked = false → Downloadable elsewhere world →
      ∃ after, (fileReshapeRounds 2).run world = some (.ok (some ()), after) ∧
        SameContent elsewhere world.storage after.storage ∧ after.storage.manifest.isReshaped) := by
  have shows := reshapable.shows apart
  refine ⟨fun cacheOnly => ?_, exists_fileReshapeRounds shows reshapable.positive⟩
  obtain ⟨after, missing, played, reshaped⟩ := exists_manifestReshape shows cacheOnly
  refine ⟨after, missing, played, shows.sameContent reshapable.positive reshaped.shows reshaped.size
    reshaped.blocksize reshaped.length, ?_⟩
  rintro rfl
  exact reshaped.publishes shows reshapable.positive

/-- In a run that loses no block, no chunk id gets into two blocks, and accesses keep the ids of
their chunks. -/
theorem FileSync.blocksApart_of_run {localAuthor : DeviceID} {system after : FileSync}
    {events : List FileSyncEvent} (opened : system.Opened)
    (keeps : Along (step? localAuthor) (fun system _ next => ¬ system.LosesBlock next) system events)
    (played : run? (step? localAuthor) system events = some after) :
    BlocksApart after.world.storage.manifest.blocks ∧
      ∀ chunk ∈ after.world.storage.manifest.blocks.flatten, ∀ access, chunk.access = some access →
        access.id = chunk.id := by
  obtain ⟨_, sound⟩ := exists_sound_of_run opened keeps played
  obtain ⟨_, layout⟩ := sound.consistent.manifest.layout
  exact ⟨layout.apart, sound.consistent.manifest.named⟩

section Examples

/-- A file in blocks of four bytes. -/
private def fileOf (size : ℕ) (blocks : List (List Chunk)) (chunkStorage : ChunkID → Option Bytes)
    (stored : BlockID → Option (Ciphered Bytes)) : World where
  storage := {
    manifest := { LocalFileManifest.newPlaceholder ⟨"alice", "laptop"⟩ 1 2 0 4 with
      size := size, blocks := blocks }
    chunkStorage := chunkStorage }
  backend := { blocks := stored }
  nextId := 8

private theorem reshapable_fileOf {elsewhere : ChunkID → Option Bytes} {size : ℕ} {blocks : List (List Chunk)}
    {chunkStorage : ChunkID → Option Bytes} {stored : BlockID → Option (Ciphered Bytes)}
    (checked : (fileOf size blocks chunkStorage stored).storage.manifest.assertIntegrity = .ok ())
    (lengths : ∀ chunk ∈ blocks.flatten,
      (((chunkStorage chunk.id).or none).or (elsewhere chunk.id)).map List.length = some chunk.rawSize)
    (reachable : ∀ chunk ∈ blocks.flatten, chunkStorage chunk.id = none → chunk.access ≠ none)
    (drawn : ∀ id ∈ fileIds blocks, id < 8) : Reshapable elsewhere
    (fileOf size blocks chunkStorage stored) where
  checked := checked
  positive := Nat.succ_pos 3
  stored chunk member := by
    obtain ⟨data, found, length⟩ := Option.map_eq_some_iff.mp (lengths chunk member)
    exact ⟨data, found, length⟩
  reachable chunk member gone := reachable chunk member (Option.or_eq_none_iff.mp gone).1
  drawn := drawn
  waiting id member := absurd member (Finset.notMem_empty id)

private def backendData (id : ChunkID) : Option Bytes := if id = 7 then some [5, 6, 7] else none

/-- Two chunks of one block, and a part of a block that was not downloaded. -/
private def halfDownloaded : World :=
  fileOf 6 [[⟨5, 0, 2, 0, 2, none⟩, ⟨6, 2, 4, 2, 2, none⟩],
    [⟨7, 4, 6, 4, 3, some ⟨7, ⟨1⟩, 4, 3, .fromData [5, 6, 7]⟩⟩]]
    (fun id => if id = 5 then some [1, 2] else if id = 6 then some [3, 4] else none)
    fun id => if id = 7 then some ⟨⟨1⟩, [5, 6, 7]⟩ else none

/-- Half of the blocks are there, the others are downloaded in between. -/
theorem reshape_then_publish_half_downloaded :
    ∃ after, (fileReshapeRounds 2).run halfDownloaded = some (.ok (some ()), after) ∧
      SameContent backendData halfDownloaded.storage after.storage ∧ after.storage.manifest.isReshaped := by
  have reshapable : Reshapable backendData halfDownloaded :=
    reshapable_fileOf (by decide) (by decide) (by decide) (by decide)
  have apart : BlocksApart halfDownloaded.storage.manifest.blocks := by
    intro first second left right here there different
    have low := (List.getElem?_eq_some_iff.mp here).1
    have high := (List.getElem?_eq_some_iff.mp there).1
    change first < 2 at low
    change second < 2 at high
    obtain ⟨rfl, rfl⟩ | ⟨rfl, rfl⟩ : first = 0 ∧ second = 1 ∨ first = 1 ∧ second = 0 := by omega
    · cases here
      cases there
      decide
    · cases here
      cases there
      decide
  have only : ∀ chunk ∈ halfDownloaded.storage.manifest.blocks.flatten,
      halfDownloaded.storage.held chunk.id = none →
        chunk = ⟨7, 4, 6, 4, 3, some ⟨7, ⟨1⟩, 4, 3, .fromData [5, 6, 7]⟩⟩ := by decide
  refine (reshape_then_publish backendData halfDownloaded reshapable apart).2 rfl
    fun chunk member gone access has => ?_
  obtain rfl := only chunk member gone
  cases has
  exact ⟨rfl, _, _, rfl, rfl, rfl, rfl⟩

/-- Nothing lies anywhere else. -/
private def nowhere (_ : ChunkID) : Option Bytes := none

/-- The chunk `5` shows up in two blocks, the second of which is a pseudo-block. -/
private def sharedChunk : World :=
  fileOf 9 [[⟨5, 0, 4, 0, 5, none⟩], [⟨5, 4, 9, 4, 5, none⟩]]
    (fun id => if id = 5 then some [1, 2, 3, 4, 5] else none) fun _ => none

/-- A block that is there, with the access to some block. -/
private def misnamed (id : BlockID) (digest : HashDigest) : World :=
  fileOf 1 [[⟨5, 0, 1, 0, 1, some ⟨id, ⟨1⟩, 0, 1, digest⟩⟩]] (fun id => if id = 5 then some [1] else none)
    fun _ => none

/-- A part of a missing block, with the access to another block. -/
private def misnamedPart : World :=
  fileOf 1 [[⟨5, 0, 1, 0, 2, some ⟨6, ⟨1⟩, 0, 2, .fromData [1, 2]⟩⟩]] (fun _ => none)
    fun id => if id = 6 then some ⟨⟨1⟩, [1, 2]⟩ else none

private theorem not_readsBack_misnamed {id : BlockID} {digest : HashDigest}
    (wrong : ∀ data, (if id = 5 then some [1] else none) = some data → digest ≠ .fromData data) :
    Reshapable nowhere (misnamed id digest) ∧ ∃ after remote,
      (manifestReshape (misnamed id digest).storage.manifest false).run (misnamed id digest) =
        some (.ok [], after) ∧
      after.storage.manifest.toRemote default 0 = .ok remote ∧
      ¬ ReadsBack nowhere (misnamed id digest).storage after.storage remote := by
  refine ⟨reshapable_fileOf rfl (by simp) (by simp) (by simp [fileIds, chunkIdSet]), _, _, rfl, rfl,
    fun back => ?_⟩
  obtain ⟨data, found, same⟩ := back.1 ⟨id, ⟨1⟩, 0, 1, digest⟩ List.mem_cons_self
  have found : ((if id = 5 then some [1] else none).or none).or none = some data := found
  rw [Option.or_none, Option.or_none] at found
  exact wrong data found same

/-- A chunk that two blocks share is deleted with the first of them. A block with a wrong id or digest in its
access does not read back, and a part of it is never downloaded. -/
theorem reshape_deletes_shared_chunk :
    (Reshapable nowhere sharedChunk ∧ ∃ after,
      (manifestReshape sharedChunk.storage.manifest false).run sharedChunk = some (.ok [], after) ∧
      ¬ SameContent nowhere sharedChunk.storage after.storage) ∧
    (∀ id digest, (id = 6 ∧ digest = .fromData [1] ∨ id = 5 ∧ digest = .fromData [2]) →
      Reshapable nowhere (misnamed id digest) ∧ ∃ after remote,
        (manifestReshape (misnamed id digest).storage.manifest false).run (misnamed id digest) =
          some (.ok [], after) ∧
        after.storage.manifest.toRemote default 0 = .ok remote ∧
        ¬ ReadsBack nowhere (misnamed id digest).storage after.storage remote) ∧
    ∃ after, (fileReshapeRounds 2).run misnamedPart = some (.ok none, after) := by
  refine ⟨⟨reshapable_fileOf (by decide) (by decide) (by decide) (by decide), _, rfl, fun same => ?_⟩,
    fun id digest kind => not_readsBack_misnamed fun data found => ?_, _, rfl⟩
  · have content := same.2.2.1
    exact absurd (congrArg List.length content) (by decide)
  · rcases kind with ⟨rfl, rfl⟩ | ⟨rfl, rfl⟩
    · cases found
    · cases found
      decide

end Examples

end Guardata
