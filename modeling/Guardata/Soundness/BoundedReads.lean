import Guardata.Proofs.BlockCache

/-! # Which reads end

A read that misses blocks downloads them and tries again. The blocks of the previous attempt are the
most recently accessed ones, so a read whose clean blocks fit into the block storage ends at the third
attempt at the latest. If they do not fit, every download drops a block that the same read needs, and
the read goes on forever. What a read returns is cut where the last block should end, which
`assert_integrity` does not check; and an offset that stood for the end of the file is taken for an
offset past it in the second attempt.
-/

namespace Guardata

open Machine Coroutine

namespace LocalFileManifest

/-- The range is empty, or does not go past where the last block should end. -/
def Covers (manifest : LocalFileManifest) (size offset : ℤ) : Prop :=
  let start := min (Transaction.normalizeArgument offset manifest) manifest.size
  let stop := start + min (Transaction.normalizeArgument size manifest) (manifest.size - start)
  start = stop ∨ stop ≤ manifest.blocks.length * manifest.blocksize

end LocalFileManifest

/-- The clean blocks that a read looks at. -/
def CachedStorage.needed (storage : CachedStorage) (size offset : ℤ) (raiseEof : Bool) : Finset BlockID :=
  (storage.clean ((storage.manifest.readChunks size offset raiseEof).map Chunk.id)).toFinset

/-- What a read of a byte array answers. -/
def expectedRead (file : Bytes) (size offset : ℤ) (raiseEof : Bool) : Except FileError (Option Bytes) :=
  if raiseEof ∧ (file.length : ℤ) ≤ offset then .error .endOfFile
  else .ok (some (ByteFile.read file (ByteFile.normalize file size) (ByteFile.normalize file offset)))

namespace CachedStorage

variable {source : BlockSource} {store : ChunkID → Option Bytes} {storage : CachedStorage}
  {fd : FileDescriptor} {size offset : ℤ} {raiseEof : Bool}

/-- Every chunk of the file is stored locally or downloadable, and the file passes its assertions. -/
structure Readable (source : BlockSource) (store : ChunkID → Option Bytes)
    (storage : CachedStorage) : Prop where
  integrity : FileIntegrity storage.manifest.blocksize storage.manifest.size storage.manifest.blocks
  positive : 0 < storage.manifest.blocksize
  available : ∀ chunk ∈ storage.manifest.blocks.flatten, Available source store storage chunk

namespace Readable

theorem available_readChunks (readable : Readable source store storage) :
    ∀ chunk ∈ storage.manifest.readChunks size offset raiseEof, Available source store storage chunk := by
  intro chunk member
  unfold LocalFileManifest.readChunks at member
  dsimp only at member
  split at member
  · cases member
  · obtain ⟨origin, found, id, rawSize, access⟩ := mem_prepareRead member
    obtain ⟨stored, consistent, downloadable⟩ := readable.available origin found
    constructor
    · rwa [Chunk.Stored, id, rawSize]
    · rwa [id]
    · rwa [id, access]

theorem contiguous_readChunks (readable : Readable source store storage) (size offset : ℤ) (raiseEof : Bool) :
    ∃ start stop, Contiguous start (storage.manifest.readChunks size offset raiseEof) stop := by
  unfold LocalFileManifest.readChunks
  dsimp only
  split
  · exact ⟨0, 0, rfl⟩
  · exact ⟨_, _, (readable.integrity.prepareRead_spec readable.positive
      (fun chunk member => (readable.available chunk member).stored) _ _).1⟩

/-- The chunks of a read show what was asked for if the range is covered by blocks. -/
theorem content_readChunks_iff (readable : Readable source store storage)
    (inside : ¬ (raiseEof ∧ (storage.manifest.size : ℤ) ≤ offset)) :
    chunksContent store (storage.manifest.readChunks size offset raiseEof) =
      ByteFile.read (fileContent store storage.manifest.blocks)
        (ByteFile.normalize (fileContent store storage.manifest.blocks) size)
        (ByteFile.normalize (fileContent store storage.manifest.blocks) offset) ↔
    storage.manifest.Covers size offset := by
  have stored : ∀ chunk ∈ storage.manifest.blocks.flatten, chunk.Stored store :=
    fun chunk member => (readable.available chunk member).stored
  have length := readable.integrity.length_content stored
  have position : ∀ arg, ByteFile.normalize (fileContent store storage.manifest.blocks) arg =
      Transaction.normalizeArgument arg storage.manifest := by
    intro arg
    rw [ByteFile.normalize, length]
    rfl
  rw [ByteFile.read_eq, position, position, length]
  unfold LocalFileManifest.readChunks LocalFileManifest.Covers
  simp only [inside, false_or]
  generalize Transaction.normalizeArgument size storage.manifest = width
  generalize Transaction.normalizeArgument offset storage.manifest = begin
  split
  · next past =>
    rw [min_eq_right past.le, Nat.sub_self, Nat.min_zero, List.take_zero]
    simp
  · rw [(readable.integrity.prepareRead_spec readable.positive stored width begin).2]
    constructor
    · intro same
      have counted := congrArg List.length same
      simp only [List.length_take, List.length_drop, length] at counted
      omega
    · intro covered
      congr 1
      omega

/-- An attempt to read leaves the accesses noted. -/
theorem run_readAttempt (readable : Readable source store storage) (opened : fd ∈ storage.openFds)
    (inside : ¬ (raiseEof ∧ (storage.manifest.size : ℤ) ≤ offset)) :
    let chunks := storage.manifest.readChunks size offset raiseEof
    ∃ built, (storage.missing chunks = [] → built = chunksContent store chunks) ∧
      (readAttempt fd size offset raiseEof).run storage =
        some (.ok ((Transaction.normalizeArgument size storage.manifest,
          Transaction.normalizeArgument offset storage.manifest), built, storage.missing chunks),
          storage.touch (chunks.map Chunk.id)) := by
  have loaded : (loadFileDescriptor fd).run storage = some (.ok storage.manifest, storage) := by
    rw [loadFileDescriptor, run_observeOr, if_pos opened]
  have available : ∀ chunk ∈ storage.manifest.readChunks size offset raiseEof,
      Available source store storage chunk := readable.available_readChunks
  obtain ⟨start, stop, contiguous⟩ := readable.contiguous_readChunks size offset raiseEof
  rw [readAttempt, run_bind_of_ok _ loaded, if_neg inside]
  unfold LocalFileManifest.readChunks at available contiguous ⊢
  simp only [inside, false_or] at available contiguous ⊢
  split
  · exact ⟨[], fun _ => rfl, rfl⟩
  · next within =>
    rw [if_neg within] at available contiguous
    obtain ⟨built, shows, played⟩ := run_buildData contiguous available
    refine ⟨built, shows, ?_⟩
    rw [run_bind_of_ok _ played]
    rfl

theorem touch (readable : Readable source store storage) (ids : List ChunkID) :
    Readable source store (storage.touch ids) :=
  ⟨readable.integrity, readable.positive, fun chunk member => (readable.available chunk member).touch⟩

theorem download (readable : Readable source store storage) {accesses : List BlockAccess}
    (served : ∀ access ∈ accesses, source.Serves store access) :
    Readable source store (storage.download source store accesses) :=
  ⟨readable.integrity, readable.positive, fun chunk member =>
    (readable.available chunk member).download served⟩

theorem serves (readable : Readable source store storage) (size offset : ℤ) (raiseEof : Bool) :
    ∀ access ∈ storage.missing
    (storage.manifest.readChunks size offset raiseEof), source.Serves store access :=
  fun _ member => (serves_of_mem_missing readable.available_readChunks member).1

/-- The step lemma of the loop: it ends if nothing is missing after the download. -/
theorem run_fdRead_succ (readable : Readable source store storage) (opened : fd ∈ storage.openFds) (size : ℤ)
    (inside : ¬ (raiseEof ∧ (storage.manifest.size : ℤ) ≤ offset)) {accesses : List BlockAccess}
    (served : ∀ access ∈ accesses, source.Serves store access) (attempts : ℕ) :
    let before := storage.download source store accesses
    let chunks := storage.manifest.readChunks size offset raiseEof
    (fdRead source fd size offset raiseEof (attempts + 1) accesses).run storage =
      if before.missing chunks = [] then
        some (.ok (some (chunksContent store chunks)), before.touch (chunks.map Chunk.id))
      else (fdRead source fd (Transaction.normalizeArgument size storage.manifest)
        (Transaction.normalizeArgument offset storage.manifest) raiseEof attempts
          (before.missing chunks)).run (before.touch (chunks.map Chunk.id)) := by
  intro before chunks
  obtain ⟨built, shows, played⟩ : ∃ built, (before.missing chunks = [] → built = chunksContent store chunks) ∧
      (readAttempt fd size offset raiseEof).run before =
        some (.ok ((Transaction.normalizeArgument size storage.manifest,
          Transaction.normalizeArgument offset storage.manifest), built, before.missing chunks),
          before.touch (chunks.map Chunk.id)) := (readable.download served).run_readAttempt opened inside
  rw [fdRead, run_bind_of_ok _ (run_loadBlocks served), run_bind_of_ok _ played]
  dsimp only
  split
  · next nothing =>
    rw [shows nothing]
    rfl
  · rfl

end Readable

section Rounds

variable {width position : ℕ}

/-- The end of the file is raised after the download. -/
theorem run_fdRead_of_eof (storage : CachedStorage) (size : ℤ) (opened : fd ∈ storage.openFds)
    (eof : raiseEof ∧ (storage.manifest.size : ℤ) ≤ offset) {accesses : List BlockAccess}
    (served : ∀ access ∈ accesses, source.Serves store access) (attempts : ℕ) :
    (fdRead source fd size offset raiseEof (attempts + 1) accesses).run storage =
      some (.error .endOfFile, storage.download source store accesses) := by
  let before := storage.download source store accesses
  have loaded : (loadFileDescriptor fd).run before = some (.ok storage.manifest, before) := by
    rw [loadFileDescriptor, run_observeOr]
    exact congrArg (fun result => some (result, before)) (if_pos opened)
  have raised : (readAttempt fd size offset raiseEof).run before = some (.error .endOfFile, before) := by
    rw [readAttempt, run_bind_of_ok _ loaded, if_pos eof]
    rfl
  rw [fdRead, run_bind_of_ok _ (run_loadBlocks served), run_bind_of_error _ raised]

/-- A read at the end of the file needs no block. -/
theorem readChunks_of_eof {manifest : LocalFileManifest} (eof : raiseEof ∧ (manifest.size : ℤ) ≤ offset) :
    manifest.readChunks size offset raiseEof = [] := if_pos (.inl eof)

/-- The rounds of a read that does not fit never end. -/
theorem run_fdRead_of_beyond (readable : Readable source store storage) (opened : fd ∈ storage.openFds)
    (inside : ¬ (raiseEof ∧ (storage.manifest.size : ℤ) ≤ position))
    (beyond : source.blockLimit < (storage.needed width position raiseEof).card)
    {accesses : List BlockAccess} (something : accesses ≠ [])
    (served : ∀ access ∈ accesses, source.Serves store access) (attempts : ℕ) :
    ∃ after, (fdRead source fd width position raiseEof attempts accesses).run storage =
      some (.ok none, after) := by
  induction attempts generalizing storage accesses with
  | zero => exact ⟨storage, rfl⟩
  | succ attempts ih =>
    have step := readable.run_fdRead_succ opened width inside served attempts
    have missing := missing_download_ne_nil readable.available_readChunks beyond something served
    dsimp only at step
    rw [if_neg missing, normalizeArgument_natCast, normalizeArgument_natCast] at step
    rw [step]
    exact ih ((readable.download served).touch _) opened inside beyond missing
      ((readable.download served).serves _ _ _)

/-- Whatever is returned is what the chunks of the read show. -/
theorem content_of_run_fdRead (readable : Readable source store storage) (opened : fd ∈ storage.openFds)
    (inside : ¬ (raiseEof ∧ (storage.manifest.size : ℤ) ≤ position)) {accesses : List BlockAccess}
    (served : ∀ access ∈ accesses, source.Serves store access) {attempts : ℕ} {data : Bytes}
    {after : CachedStorage}
    (ended : (fdRead source fd width position raiseEof attempts accesses).run storage =
      some (.ok (some data), after)) :
    data = chunksContent store (storage.manifest.readChunks width position raiseEof) := by
  induction attempts generalizing storage accesses with
  | zero => cases ended
  | succ attempts ih =>
    have step := readable.run_fdRead_succ opened width inside served attempts
    dsimp only at step
    rw [normalizeArgument_natCast, normalizeArgument_natCast, ended] at step
    split at step
    · cases step
      rfl
    · have later := ih ((readable.download served).touch _) opened inside
        ((readable.download served).serves _ _ _) step.symm
      exact later

/-- The first attempt, before which nothing is downloaded. -/
theorem run_fdRead_first (readable : Readable source store storage) (opened : fd ∈ storage.openFds) (size : ℤ)
    (inside : ¬ (raiseEof ∧ (storage.manifest.size : ℤ) ≤ offset)) (attempts : ℕ) :
    let chunks := storage.manifest.readChunks size offset raiseEof
    (fdRead source fd size offset raiseEof (attempts + 1) []).run storage =
      if storage.missing chunks = [] then
        some (.ok (some (chunksContent store chunks)), storage.touch (chunks.map Chunk.id))
      else (fdRead source fd (Transaction.normalizeArgument size storage.manifest)
        (Transaction.normalizeArgument offset storage.manifest) raiseEof attempts
          (storage.missing chunks)).run (storage.touch (chunks.map Chunk.id)) :=
  readable.run_fdRead_succ opened size inside (by simp) attempts

/-- Two more attempts are enough if the first or the second download completes the blocks. -/
theorem run_fdRead_two (readable : Readable source store storage) (opened : fd ∈ storage.openFds)
    (inside : ¬ (raiseEof ∧ (storage.manifest.size : ℤ) ≤ position)) {accesses : List BlockAccess}
    (served : ∀ access ∈ accesses, source.Serves store access)
    (complete :
      let chunks := storage.manifest.readChunks width position raiseEof
      let first := storage.download source store accesses
      let second := (first.touch (chunks.map Chunk.id)).download source store (first.missing chunks)
      first.missing chunks = [] ∨ second.missing chunks = []) :
    ∃ after, (fdRead source fd width position raiseEof 2 accesses).run storage =
      some (.ok (some (chunksContent store (storage.manifest.readChunks width position raiseEof))),
      after) := by
  have step := readable.run_fdRead_succ opened width inside served 1
  have readable' := readable.download served
  have again := (readable'.touch ((storage.manifest.readChunks width position raiseEof).map
    Chunk.id)).run_fdRead_succ opened width inside (readable'.serves width position raiseEof) 0
  dsimp only at step again complete
  rw [normalizeArgument_natCast, normalizeArgument_natCast] at step
  rw [step]
  split
  · exact ⟨_, rfl⟩
  · next missing =>
    exact ⟨_, again.trans (if_pos (complete.resolve_left missing))⟩

/-- Blocks that fit are complete at the third attempt. -/
theorem run_fdRead_of_fits (readable : Readable source store storage) (opened : fd ∈ storage.openFds)
    (inside : ¬ (raiseEof ∧ (storage.manifest.size : ℤ) ≤ offset))
    (later : ¬ (raiseEof ∧
      (storage.manifest.size : ℤ) ≤ (Transaction.normalizeArgument offset storage.manifest : ℕ)))
    (fits : (storage.needed size offset raiseEof).card ≤ source.blockLimit) :
    ∃ after, (fdRead source fd size offset raiseEof 3 []).run storage =
      some (.ok (some (chunksContent store (storage.manifest.readChunks size offset raiseEof))), after) := by
  have same := readChunks_normalized size inside later
  have first := run_fdRead_first readable opened size inside 2
  dsimp only at first
  rw [first]
  split
  · exact ⟨_, rfl⟩
  · rw [← same]
    rw [needed, ← same] at fits
    exact run_fdRead_two (readable.touch _) opened later (readable.serves _ _ _)
      (missing_download_twice readable.available_readChunks fits)

/-- What ends with some bytes ends with those that the chunks show, and found all the clean blocks
or room for them. -/
theorem fits_of_run_fdRead (readable : Readable source store storage) (opened : fd ∈ storage.openFds)
    (inside : ¬ (raiseEof ∧ (storage.manifest.size : ℤ) ≤ offset)) {attempts : ℕ} {data : Bytes}
    {after : CachedStorage} (ended : (fdRead source fd size offset raiseEof attempts []).run storage =
      some (.ok (some data), after)) :
    data = chunksContent store (storage.manifest.readChunks size offset raiseEof) ∧
      (storage.missing (storage.manifest.readChunks size offset raiseEof) = [] ∨
        (storage.needed size offset raiseEof).card ≤ source.blockLimit ∧ (raiseEof → 0 ≤ offset)) := by
  cases attempts with
  | zero => cases ended
  | succ attempts =>
    have first := run_fdRead_first readable opened size inside attempts
    dsimp only at first
    rw [ended] at first
    split at first
    · next nothing =>
      cases first
      exact ⟨rfl, .inl nothing⟩
    · next something =>
      have later : ¬ (raiseEof ∧
          (storage.manifest.size : ℤ) ≤ (Transaction.normalizeArgument offset storage.manifest : ℕ)) := by
        intro eof
        cases attempts with
        | zero => cases first
        | succ attempts =>
          cases first.trans (run_fdRead_of_eof (storage.touch _) _ opened eof
            (readable.serves _ _ _) attempts)
      have same := readChunks_normalized size inside later
      rw [← same] at first something ⊢
      refine ⟨content_of_run_fdRead (readable.touch _) opened later (readable.serves _ _ _) first.symm,
        .inr ⟨?_, ?_⟩⟩
      · by_contra beyond
        obtain ⟨last, never⟩ := run_fdRead_of_beyond (readable.touch _) opened later
          (by rw [not_le, needed, ← same] at beyond; exact beyond) something (readable.serves _ _ _) attempts
        rw [never] at first
        cases first
      · intro raises
        by_contra negative
        rw [Transaction.normalizeArgument, if_pos (by omega)] at later
        exact later ⟨raises, le_rfl⟩

end Rounds

end CachedStorage

open CachedStorage

/-- Reading terminates and returns the bytes of the range exactly if the range does not go past where the last
block should end, and either every clean block that it needs is there, or all of them fit into the block
storage and the offset is not a negative one at which the end of the file would be raised. -/
theorem read_returns_iff (source : BlockSource) (store : ChunkID → Option Bytes) (storage : CachedStorage)
    (fd : FileDescriptor) (opened : fd ∈ storage.openFds)
    (checked : storage.manifest.assertIntegrity = .ok ()) (positive : 0 < storage.manifest.blocksize)
    (available : ∀ chunk ∈ storage.manifest.blocks.flatten, Available source store storage chunk)
    (size offset : ℤ) (raiseEof : Bool) :
    (∃ attempts after, (fdRead source fd size offset raiseEof attempts []).run storage =
      some (expectedRead (fileContent store storage.manifest.blocks) size offset raiseEof, after)) ↔
    storage.manifest.Covers size offset ∧
      ((∀ id ∈ storage.needed size offset raiseEof, id ∈ storage.blockStorage.keys) ∨
        (storage.needed size offset raiseEof).card ≤ source.blockLimit ∧ (raiseEof → 0 ≤ offset)) := by
  have readable : Readable source store storage := ⟨assertIntegrity_eq_ok_iff.mp checked, positive, available⟩
  have length := readable.integrity.length_content fun chunk member => (available chunk member).stored
  unfold expectedRead
  rw [length]
  by_cases inside : raiseEof ∧ (storage.manifest.size : ℤ) ≤ offset
  · rw [if_pos inside]
    have served : ∀ access ∈ ([] : List BlockAccess), source.Serves store access := by simp
    refine iff_of_true ⟨1, _, run_fdRead_of_eof storage size opened inside served 0⟩ ⟨.inl ?_, .inl ?_⟩
    · have := inside.2
      rw [Transaction.normalizeArgument, if_neg (by omega)]
      omega
    · rw [needed, readChunks_of_eof inside]
      simp [clean]
  rw [if_neg inside, ← readable.content_readChunks_iff inside]
  have missing : storage.missing (storage.manifest.readChunks size offset raiseEof) = [] ↔
      ∀ id ∈ storage.needed size offset raiseEof, id ∈ storage.blockStorage.keys := by
    simpa only [needed, List.mem_toFinset] using missing_eq_nil_iff readable.available_readChunks
  rw [← missing]
  constructor
  · rintro ⟨attempts, after, ended⟩
    obtain ⟨same, fits⟩ := fits_of_run_fdRead readable opened inside ended
    exact ⟨same.symm, fits⟩
  · rintro ⟨same, nothing | ⟨fits, positive⟩⟩
    · have ended := (run_fdRead_first readable opened size inside 0).trans (if_pos nothing)
      exact ⟨1, _, ended.trans (by rw [same])⟩
    · obtain ⟨after, ended⟩ := @run_fdRead_of_fits _ _ _ _ size _ _ readable opened inside (by
        rintro ⟨raises, beyond⟩
        have := positive raises
        rw [Transaction.normalizeArgument, if_neg (by omega), Int.toNat_of_nonneg this] at beyond
        exact inside ⟨raises, beyond⟩) fits
      exact ⟨3, after, ended.trans (by rw [same])⟩

section Examples

/-- The data of two blocks. -/
private def blockData (id : BlockID) : Option Bytes :=
  if id = 11 then some [1, 2, 3, 4, 5, 6, 7, 8] else if id = 12 then some [9, 10] else none

private def blockAccesses : List BlockAccess :=
  [⟨11, ⟨0⟩, 0, 8, ⟨[1, 2, 3, 4, 5, 6, 7, 8]⟩⟩, ⟨12, ⟨0⟩, 8, 2, ⟨[9, 10]⟩⟩]

/-- A file of two blocks as it came from the backend, none of them downloaded. -/
private def downloadable : CachedStorage where
  manifest := .fromRemote ⟨⟨"alice", "laptop"⟩, 5, 2, 1, 1, 5, 5, 10, 8, blockAccesses⟩
  openFds := {1}
  chunkStorage := fun _ => none
  blockStorage := ∅

/-- A block storage with room for some blocks. -/
private def roomFor (count : ℕ) : BlockSource where
  cacheSize := count * defaultBlockSize
  blocks := fun id => (blockData id).map fun data => ⟨⟨0⟩, data⟩

private theorem available_downloadable (count : ℕ) :
    ∀ chunk ∈ downloadable.manifest.blocks.flatten, Available
    (roomFor count) blockData downloadable chunk := by
  intro chunk member
  obtain rfl | rfl : chunk = .fromBlockAccess ⟨11, ⟨0⟩, 0, 8, ⟨[1, 2, 3, 4, 5, 6, 7, 8]⟩⟩ ∨
      chunk = .fromBlockAccess ⟨12, ⟨0⟩, 8, 2, ⟨[9, 10]⟩⟩ := by
    simpa [downloadable, blockAccesses, LocalFileManifest.fromRemote] using member
  · exact ⟨⟨_, rfl, rfl⟩, fun data found => (by cases found),
      fun _ => ⟨_, rfl, rfl, _, _, rfl, rfl, rfl, rfl⟩⟩
  · exact ⟨⟨_, rfl, rfl⟩, fun data found => (by cases found),
      fun _ => ⟨_, rfl, rfl, _, _, rfl, rfl, rfl, rfl⟩⟩

/-- With room for two blocks, all ten bytes are read. -/
theorem read_returns_iff_two_blocks : ∃ attempts after,
    (fdRead (roomFor 2) 1 (-1) 0 false attempts []).run downloadable =
      some (.ok (some [1, 2, 3, 4, 5, 6, 7, 8, 9, 10]), after) :=
  (read_returns_iff (roomFor 2) blockData downloadable 1 (by decide) (by decide) (by decide)
    (available_downloadable 2) (-1) 0 false).mpr ⟨.inr (by decide), .inr (by decide)⟩

/-- With room for one block, a read over two of them never ends. -/
theorem two_blocks_never_read : 1 ≤ (roomFor 1).blockLimit ∧
    downloadable.manifest.assertIntegrity = .ok () ∧
    (∀ chunk ∈ downloadable.manifest.blocks.flatten, Available (roomFor 1) blockData downloadable chunk) ∧
    ∀ attempts data after, (fdRead (roomFor 1) 1 (-1) 0 false attempts []).run downloadable ≠
      some (.ok (some data), after) := by
  refine ⟨by decide, by decide, available_downloadable 1, fun attempts data after ended => ?_⟩
  have readable : Readable (roomFor 1) blockData downloadable :=
    ⟨assertIntegrity_eq_ok_iff.mp (by decide), by decide, available_downloadable 1⟩
  rcases (fits_of_run_fdRead readable (by decide) (by decide) ended).2 with nothing | ⟨fits, -⟩
  · exact absurd nothing (by decide)
  · exact absurd fits (by decide)

end Examples

end Guardata
