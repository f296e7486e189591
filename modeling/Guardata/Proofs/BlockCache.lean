import Guardata.Model.BlockCache
import Guardata.Proofs.FileTransactions

/-! # Reads through the block cache, played alone

What a chunk id stands for is given by a store, whether its data lies in the chunk storage, in the
block storage or only in the backend. An attempt to read reports what is missing, and if that is
nothing, the bytes; either way the only change is the order of the blocks that it looked at. What is
missing is then downloaded, which may drop other blocks.
-/

namespace Guardata

open Machine Coroutine

/-- The backend serves the data under an access. -/
def BlockSource.Serves (source : BlockSource) (store : ChunkID → Option Bytes)
    (access : BlockAccess) : Prop :=
  ∃ ciphered data, source.blocks access.id = some ciphered ∧ ciphered.decrypt access.key = .ok data ∧
    HashDigest.fromData data = access.digest ∧ store access.id = some data

namespace CachedStorage

/-- The data that is stored under an id on the device. -/
def held (storage : CachedStorage) (id : ChunkID) : Option Bytes :=
  (storage.chunkStorage id).or (storage.blockStorage.get? id)

/-- The ids that are not in the chunk storage. -/
def clean (storage : CachedStorage) (ids : List ChunkID) : List BlockID :=
  ids.filter fun id => storage.chunkStorage id = none

/-- Note an access to each of the clean blocks. -/
def touch (storage : CachedStorage) (ids : List ChunkID) : CachedStorage :=
  { storage with blockStorage := storage.blockStorage.accessAll (storage.clean ids) }

/-- What has to be downloaded before the chunks can be read. -/
def missing (storage : CachedStorage) (chunks : List Chunk) : List BlockAccess :=
  (chunks.filter fun chunk => storage.held chunk.id = none).filterMap Chunk.access

/-- The rows of downloaded blocks. -/
def entries (store : ChunkID → Option Bytes) (accesses : List BlockAccess) : List (BlockID × Bytes) :=
  accesses.map fun access => (access.id, (store access.id).getD [])

def download (source : BlockSource) (store : ChunkID → Option Bytes) (storage : CachedStorage)
    (accesses : List BlockAccess) : CachedStorage :=
  let limit := source.blockLimit
  { storage with blockStorage := storage.blockStorage.insertAll limit (limit / 10) (entries store accesses) }

/-- A chunk is stored locally or downloadable, and nothing else is stored under its id. -/
structure Available (source : BlockSource) (store : ChunkID → Option Bytes) (storage : CachedStorage)
    (chunk : Chunk) : Prop where
  stored : chunk.Stored store
  consistent : ∀ data, storage.held chunk.id = some data → store chunk.id = some data
  downloadable : storage.chunkStorage chunk.id = none →
    ∃ access, chunk.access = some access ∧ access.id = chunk.id ∧ source.Serves store access

section Touch

variable {source : BlockSource} {store : ChunkID → Option Bytes} {storage : CachedStorage}
  {ids : List ChunkID} {chunk : Chunk} {chunks : List Chunk}

@[simp] theorem held_touch (id : ChunkID) : (storage.touch ids).held id = storage.held id := by
  simp [held, touch]

@[simp] theorem missing_touch : (storage.touch ids).missing chunks = storage.missing chunks := by
  simp [missing]

theorem mem_keys_touch {id : BlockID} :
    id ∈ (storage.touch ids).blockStorage.keys ↔ id ∈ storage.blockStorage.keys :=
  RecencyCache.mem_keys_accessAll

theorem touch_touch (first second : List ChunkID) :
    (storage.touch first).touch second = storage.touch (first ++ second) := by
  simp only [touch, clean, List.filter_append, RecencyCache.accessAll, List.foldl_append]
  rfl

theorem Available.touch (available : Available source store storage chunk) :
    Available source store (storage.touch ids) chunk :=
  ⟨available.stored, fun data found => available.consistent data (by simpa using found),
    available.downloadable⟩

theorem mem_clean {id : ChunkID} : id ∈ storage.clean ids ↔ id ∈ ids ∧ storage.chunkStorage id = none := by
  simp [clean]

theorem held_ne_none_iff {id : ChunkID} :
    storage.held id ≠ none ↔ (storage.chunkStorage id = none → id ∈ storage.blockStorage.keys) := by
  rw [held, Ne, Option.or_eq_none_iff, RecencyCache.get?_eq_none_iff]
  tauto

/-- What is missing is served. -/
theorem serves_of_mem_missing (available : ∀ chunk ∈ chunks, Available source store storage chunk)
    {access : BlockAccess} (member : access ∈ storage.missing chunks) :
    source.Serves store access ∧ access.id ∈ storage.clean (chunks.map Chunk.id) := by
  obtain ⟨chunk, found, has⟩ := List.mem_filterMap.mp member
  obtain ⟨found, gone⟩ := List.mem_filter.mp found
  have notLocal := (Option.or_eq_none_iff.mp (of_decide_eq_true gone)).1
  obtain ⟨other, has', same, serves⟩ := (available chunk found).downloadable notLocal
  obtain rfl : access = other := Option.some.inj (has.symm.trans has')
  exact ⟨serves, mem_clean.mpr ⟨List.mem_map.mpr ⟨chunk, found, same.symm⟩, same ▸ notLocal⟩⟩

theorem Available.download (available : Available source store storage chunk) {accesses : List BlockAccess}
    (served : ∀ access ∈ accesses, source.Serves store access) :
    Available source store (storage.download source store accesses) chunk := by
  refine ⟨available.stored, fun data found => ?_, available.downloadable⟩
  rw [held, Option.or_eq_some_iff] at found
  rcases found with there | ⟨notLocal, found⟩
  · exact available.consistent data (Option.or_eq_some_iff.mpr (.inl there))
  · have good : ∀ id data, (storage.download source store accesses).blockStorage.get? id = some data →
        id = chunk.id → store id = some data := by
      refine RecencyCache.forall_get?_insertAll ?_ ?_
      · rintro _ value is rfl
        exact available.consistent value (Option.or_eq_some_iff.mpr (.inr ⟨notLocal, is⟩))
      · intro entry member _
        obtain ⟨access, found, rfl⟩ := List.mem_map.mp member
        obtain ⟨-, data, -, -, -, is⟩ := served access found
        change store access.id = some ((store access.id).getD [])
        rw [is]
        rfl
    exact good _ _ found rfl

theorem map_fst_entries {accesses : List BlockAccess} :
    (entries store accesses).map Prod.fst = accesses.map BlockAccess.id := by
  rw [entries, List.map_map]
  rfl

theorem forall_mem_entries {accesses : List BlockAccess} {holds : BlockID → Prop}
    (all : ∀ access ∈ accesses, holds access.id) : ∀ entry ∈ entries store accesses, holds entry.1 := by
  intro entry member
  obtain ⟨access, found, rfl⟩ := List.mem_map.mp member
  exact all access found

/-- A clean block that is not there is missing. -/
theorem exists_mem_missing (available : ∀ chunk ∈ chunks, Available source store storage chunk) {id : BlockID}
    (wanted : id ∈ storage.clean (chunks.map Chunk.id)) (absent : id ∉ storage.blockStorage.keys) :
    id ∈ (storage.missing chunks).map BlockAccess.id := by
  obtain ⟨known, notLocal⟩ := mem_clean.mp wanted
  obtain ⟨chunk, member, rfl⟩ := List.mem_map.mp known
  have gone : storage.held chunk.id = none :=
    Option.or_eq_none_iff.mpr ⟨notLocal, RecencyCache.get?_eq_none_iff.mpr absent⟩
  obtain ⟨access, found, same, -⟩ := (available chunk member).downloadable notLocal
  exact List.mem_map.mpr ⟨access, List.mem_filterMap.mpr
    ⟨chunk, List.mem_filter.mpr ⟨member, decide_eq_true gone⟩, found⟩, same⟩

/-- Nothing is missing once every clean block is there. -/
theorem missing_eq_nil_iff (available : ∀ chunk ∈ chunks, Available source store storage chunk) :
    storage.missing chunks = [] ↔
      ∀ id ∈ storage.clean (chunks.map Chunk.id), id ∈ storage.blockStorage.keys := by
  constructor
  · intro nothing id wanted
    by_contra absent
    have member := exists_mem_missing available wanted absent
    rw [nothing] at member
    cases member
  · intro all
    rw [missing, List.filter_eq_nil_iff.mpr, List.filterMap_nil]
    intro chunk member gone
    refine absurd (of_decide_eq_true gone) (held_ne_none_iff.mpr fun notLocal => all _ ?_)
    exact mem_clean.mpr ⟨List.mem_map_of_mem member, notLocal⟩

/-- A download that does not fit leaves something missing. -/
theorem missing_download_ne_nil (available : ∀ chunk ∈ chunks, Available source store storage chunk)
    (beyond : source.blockLimit < (storage.clean (chunks.map Chunk.id)).toFinset.card)
    {accesses : List BlockAccess} (something : accesses ≠ [])
    (served : ∀ access ∈ accesses, source.Serves store access) :
    (storage.download source store accesses).missing chunks ≠ [] := by
  rw [Ne, missing_eq_nil_iff fun chunk member => (available chunk member).download served]
  intro all
  have count : (storage.download source store accesses).blockStorage.keys.length ≤ source.blockLimit :=
    RecencyCache.length_insertAll_le (by simpa [entries] using something)
  obtain ⟨id, member, absent⟩ := RecencyCache.exists_not_mem_keys beyond count
  exact absent (all id (List.mem_toFinset.mp member))

/-- Two downloads are enough for blocks that fit: the first completes them or leaves nothing else, and then
the second drops nothing. -/
theorem missing_download_twice (available : ∀ chunk ∈ chunks, Available source store storage chunk)
    (fits : (storage.clean (chunks.map Chunk.id)).toFinset.card ≤ source.blockLimit) :
    let first := (storage.touch (chunks.map Chunk.id)).download source store (storage.missing chunks)
    let second := (first.touch (chunks.map Chunk.id)).download source store (first.missing chunks)
    first.missing chunks = [] ∨ second.missing chunks = [] := by
  intro first second
  let wanted := storage.clean (chunks.map Chunk.id)
  have serves : ∀ access ∈ storage.missing chunks, source.Serves store access ∧ access.id ∈ wanted :=
    fun access member => serves_of_mem_missing available member
  have availableFirst : ∀ chunk ∈ chunks, Available source store first chunk := fun chunk member =>
    (available chunk member).touch.download fun access found => (serves access found).1
  have servesFirst : ∀ access ∈ first.missing chunks, source.Serves store access ∧ access.id ∈ wanted :=
    fun access member => serves_of_mem_missing availableFirst member
  have availableSecond : ∀ chunk ∈ chunks, Available source store second chunk := fun chunk member =>
    (availableFirst chunk member).touch.download fun access found => (servesFirst access found).1
  have trails : (storage.touch (chunks.map Chunk.id)).blockStorage.Trails (· ∈ wanted) :=
    RecencyCache.trails_accessAll _ _
  have kept : (∀ id, id ∈ (entries store (storage.missing chunks)).map Prod.fst ∨
        id ∈ (storage.touch (chunks.map Chunk.id)).blockStorage.keys → id ∈ wanted →
          id ∈ first.blockStorage.keys) ∨ ∀ id ∈ first.blockStorage.keys, id ∈ wanted :=
    trails.insertAll (forall_mem_entries fun access member => (serves access member).2)
  rw [missing_eq_nil_iff availableFirst, missing_eq_nil_iff availableSecond]
  refine kept.imp (fun complete id member => ?_) fun only id member => ?_
  · refine complete id ?_ member
    rw [map_fst_entries, mem_keys_touch]
    exact or_iff_not_imp_right.mpr fun absent => exists_mem_missing available member absent
  · have all : ∀ id ∈ (first.touch (chunks.map Chunk.id)).blockStorage.keys, id ∈ wanted.toFinset :=
      fun id there => List.mem_toFinset.mpr (only id (mem_keys_touch.mp there))
    refine (RecencyCache.mem_keys_insertAll_of_subset fits all (forall_mem_entries fun access member =>
      List.mem_toFinset.mpr (servesFirst access member).2)).mpr ?_
    rw [map_fst_entries, mem_keys_touch]
    exact or_iff_not_imp_right.mpr fun absent => exists_mem_missing availableFirst member absent

end Touch

section Run

variable {source : BlockSource} {store : ChunkID → Option Bytes} {storage : CachedStorage}

/-- A clean block is looked up, and becomes the one accessed last. -/
theorem run_getCleanBlock (storage : CachedStorage) (id : BlockID) : (getCleanBlock id).run storage =
    some ((storage.blockStorage.get? id).elim (.error (.localMiss id)) .ok,
      { storage with blockStorage := storage.blockStorage.access id }) := by
  cases found : storage.blockStorage.get? id with
  | some data => exact run_transact_of_ok _ (by rw [found])
  | none =>
    have same : storage.blockStorage.access id = storage.blockStorage := by
      rw [RecencyCache.access, found]
    simp only [getCleanBlock, transact, Coroutine.run, found, same]
    rfl

theorem run_getChunk (id : ChunkID) : (getChunk id).run storage =
    some ((storage.held id).elim (.error (.localMiss id)) .ok, storage.touch [id]) := by
  rw [getChunk, run_bind_of_ok _ (run_observe _ _)]
  cases there : storage.chunkStorage id with
  | some data =>
    have still : storage.touch [id] = storage := by simp [touch, clean, there, RecencyCache.accessAll]
    rw [still, held, there]
    rfl
  | none =>
    have noted : storage.touch [id] = { storage with blockStorage := storage.blockStorage.access id } := by
      simp [touch, clean, there, RecencyCache.accessAll]
    rw [noted, held, there, Option.none_or]
    exact run_getCleanBlock storage id

/-- The step lemma of `_build_data`: the part of the chunk is what it shows, if that is held, and
null bytes otherwise. -/
theorem run_buildChunk {origin stop : ℕ} {chunk : Chunk} (available : Available source store storage chunk)
    (within : chunk.Within) (front : Bytes) (length : front.length = chunk.start - origin)
    (begun : origin ≤ chunk.start) (upper : chunk.stop ≤ stop) (missing : List BlockAccess) :
    ∃ piece, piece.length = chunk.stop - chunk.start ∧
      (storage.missing [chunk] = [] → piece = chunk.view store) ∧
      (buildChunk origin (front ++ List.replicate (stop - chunk.start) 0, missing) chunk).run storage =
        some (.ok (front ++ piece ++ List.replicate (stop - chunk.stop) 0,
        missing ++ storage.missing [chunk]),
          storage.touch [chunk.id]) := by
  have width := available.stored.length_view within
  obtain ⟨left, ordered, right⟩ := within
  cases found : storage.held chunk.id with
  | some data =>
    have present : storage.missing [chunk] = [] := by simp [CachedStorage.missing, found]
    refine ⟨chunk.view store, width, fun _ => rfl, ?_⟩
    have read : (readChunk chunk).run storage = some (.ok (chunk.view store), storage.touch [chunk.id]) := by
      have loaded : (getChunk chunk.id).run storage = _ := run_getChunk chunk.id
      rw [found] at loaded
      rw [readChunk, run_bind_of_ok _ loaded, run_pure, Chunk.view, available.consistent data found,
        Option.getD_some, ← Nat.cast_sub left, show (chunk.stop : ℤ) - chunk.rawOffset =
          ((chunk.stop - chunk.rawOffset : ℕ) : ℤ) by omega, List.slice_natCast, List.drop_take,
        show chunk.stop - chunk.rawOffset - (chunk.start - chunk.rawOffset) =
          chunk.stop - chunk.start by omega]
    have attempted : (readChunk chunk).attempt.run storage =
        some (.ok (.ok (chunk.view store)), storage.touch [chunk.id]) := by
      rw [run_attempt, read]
      rfl
    rw [buildChunk, run_bind_of_ok _ attempted, present, List.append_nil,
      ← Transaction.splice_replicate length begun ordered upper width]
    rfl
  | none =>
    obtain ⟨access, has, -⟩ := available.downloadable (Option.or_eq_none_iff.mp found).1
    have absent : storage.missing [chunk] = [access] := by simp [CachedStorage.missing, found, has]
    refine ⟨List.replicate (chunk.stop - chunk.start) 0, List.length_replicate, by simp [absent], ?_⟩
    have read : (readChunk chunk).run storage =
      some (.error (.localMiss chunk.id), storage.touch [chunk.id]) := by
      have loaded : (getChunk chunk.id).run storage = _ := run_getChunk chunk.id
      rw [found] at loaded
      rw [readChunk, run_bind_of_error _ loaded]
    have attempted : (readChunk chunk).attempt.run storage =
        some (.ok (.error (.localMiss chunk.id)), storage.touch [chunk.id]) := by
      rw [run_attempt, read]
      rfl
    rw [buildChunk, run_bind_of_ok _ attempted, absent, List.append_assoc, List.replicate_append_replicate,
      show chunk.stop - chunk.start + (stop - chunk.stop) = stop - chunk.start by omega]
    simp only [has]
    rfl

/-- The run lemma of `_build_data`. -/
theorem run_foldlM_buildChunk {origin start stop : ℕ} {chunks : List Chunk} (front : Bytes)
    (contiguous : Contiguous start chunks stop) (length : front.length = start - origin)
    (begun : origin ≤ start) (missing : List BlockAccess)
    (available : ∀ chunk ∈ chunks, Available source store storage chunk) :
    ∃ built, (storage.missing chunks = [] → built = chunksContent store chunks) ∧
      (chunks.foldlM (buildChunk origin) (front ++ List.replicate (stop - start) 0, missing)).run storage =
        some (.ok (front ++ built, missing ++ storage.missing chunks),
          storage.touch (chunks.map Chunk.id)) := by
  induction chunks generalizing start front missing storage with
  | nil =>
    cases contiguous
    exact ⟨[], fun _ => rfl, by simp [CachedStorage.missing, touch, clean, RecencyCache.accessAll]⟩
  | cons chunk rest ih =>
    obtain ⟨rfl, within, contiguous⟩ := contiguous
    obtain ⟨here, later⟩ := List.forall_mem_cons.mp available
    obtain ⟨piece, width, shows, played⟩ :=
      run_buildChunk here within front length begun contiguous.le missing
    have ordered := within.2.1
    obtain ⟨built, showsRest, playedRest⟩ := ih (front ++ piece) contiguous
      (by rw [List.length_append, width]; omega) (by omega) (missing ++ storage.missing [chunk])
      fun chunk member => (later chunk member).touch
    have both : storage.missing (chunk :: rest) = storage.missing [chunk] ++ storage.missing rest := by
      simp only [CachedStorage.missing, ← List.filterMap_append, ← List.filter_append, List.singleton_append]
    refine ⟨piece ++ built, fun nothing => ?_, ?_⟩
    · rw [both, List.append_eq_nil_iff] at nothing
      rw [chunksContent_cons, shows nothing.1, showsRest (by simpa using nothing.2)]
    · rw [List.foldlM_cons, run_bind_of_ok _ played, playedRest, both, missing_touch, touch_touch,
        List.append_assoc, List.append_assoc]
      rfl

theorem run_buildData {start stop : ℕ} {chunks : List Chunk} (contiguous : Contiguous start chunks stop)
    (available : ∀ chunk ∈ chunks, Available source store storage chunk) :
    ∃ built, (storage.missing chunks = [] → built = chunksContent store chunks) ∧
      (buildData chunks).run storage =
        some (.ok (built, storage.missing chunks), storage.touch (chunks.map Chunk.id)) := by
  cases chunks with
  | nil => exact ⟨[], fun _ => rfl, by simp [buildData, missing, touch, clean, RecencyCache.accessAll]⟩
  | cons first rest =>
    have last := contiguous.stop_getLastD
    obtain ⟨rfl, -⟩ := id contiguous
    obtain ⟨built, shows, played⟩ := run_foldlM_buildChunk [] contiguous (by simp) le_rfl [] available
    refine ⟨built, shows, ?_⟩
    rw [buildData]
    simp only [last]
    exact played

theorem run_loadBlock {access : BlockAccess} (served : source.Serves store access) :
    (loadBlock source access).run storage = some (.ok (), storage.download source store [access]) := by
  obtain ⟨ciphered, data, there, opens, digest, found⟩ := served
  have decrypted : (Coroutine.ofExcept ((ciphered.decrypt access.key).mapError fun _ => FileError.crypto) :
      Transaction Bytes).run storage = some (.ok data, storage) := by
    rw [opens]
    rfl
  rw [loadBlock, there, Option.elim_some, run_bind_of_ok _ (run_ofExcept _ _), run_bind_of_ok _ decrypted,
    Except.require, if_pos digest, run_bind_of_ok _ (run_ofExcept _ _), run_update, download, entries,
    List.map_cons, List.map_nil, found]
  rfl

theorem run_loadBlocks {accesses : List BlockAccess}
    (served : ∀ access ∈ accesses, source.Serves store access) :
    (loadBlocks source accesses).run storage = some (.ok (), storage.download source store accesses) := by
  induction accesses generalizing storage with
  | nil => rfl
  | cons access rest ih =>
    obtain ⟨here, later⟩ := List.forall_mem_cons.mp served
    change (loadBlock source access >>= fun _ => loadBlocks source rest).run storage = _
    rw [run_bind_of_ok _ (run_loadBlock here), ih later]
    rfl

end Run

end CachedStorage

end Guardata
