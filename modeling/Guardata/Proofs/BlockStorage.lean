import Guardata.Model.BlockStorage
import Guardata.Proofs.BlockCache
import Guardata.ToMathlib.UniqueKeys

/-! # The table of blocks as a cache

In the order of their last access, the rows of the table are those of a cache that drops what was accessed least
recently. As long as the clock moves on, every call on a block storage does to this cache what it does to the
table.
-/

namespace Guardata

open Machine Coroutine

namespace ChunkTable

variable {table : ChunkTable} {chunkId : ChunkID} {row : ChunkRow} {now : DateTime}

/-- No two rows were accessed at the same date. -/
def Dated (table : ChunkTable) : Prop :=
  table.byAge.Pairwise fun first second => first.accessedOn < second.accessedOn

/-- All rows were accessed before a date. -/
def Before (table : ChunkTable) (now : DateTime) : Prop := ∀ row ∈ table.rows, row.accessedOn < now

theorem byAge_perm (table : ChunkTable) : table.byAge.Perm table.rows := List.perm_insertionSort _ _

theorem mem_byAge : row ∈ table.byAge ↔ row ∈ table.rows := table.byAge_perm.mem_iff

theorem nodup_byAge (table : ChunkTable) : (table.byAge.map ChunkRow.chunkId).Nodup :=
  (table.byAge_perm.map _).nodup_iff.mpr table.unique

theorem find?_eq_some_iff : table.find? chunkId = some row ↔ row ∈ table.rows ∧ row.chunkId = chunkId :=
  List.find?_key_eq_some_iff table.unique chunkId row

theorem find?_eq_none_iff : table.find? chunkId = none ↔ chunkId ∉ table.ids := by
  simp [find?, ids]

/-- Rows with the right dates in the right order are the table by age. -/
theorem byAge_eq {rows : List ChunkRow} (perm : rows.Perm table.rows)
    (ordered : rows.Pairwise fun first second => first.accessedOn < second.accessedOn) :
    table.byAge = rows ∧ table.Dated := by
  have same : table.byAge = rows := List.sortedBy_eq_of_perm _ ordered perm
  rw [Dated, same]
  exact ⟨rfl, ordered⟩

section Statements

variable (dated : table.Dated)
include dated

theorem Dated.deleteWhere (chosen : ChunkID → Bool) :
    (table.deleteWhere chosen).byAge = table.byAge.filter (fun row => ¬ chosen row.chunkId) ∧
      (table.deleteWhere chosen).Dated :=
  byAge_eq (table.byAge_perm.filter _) (dated.sublist List.filter_sublist)

/-- A row with a later date comes last. -/
theorem Dated.append (chosen : ChunkRow → Bool) (row : ChunkRow) (before : table.Before row.accessedOn) :
    (table.byAge.filter chosen ++ [row]).Pairwise fun first second => first.accessedOn < second.accessedOn := by
  rw [List.pairwise_append]
  refine ⟨dated.sublist List.filter_sublist, List.pairwise_singleton .., fun other member last single => ?_⟩
  rw [List.mem_singleton.mp single]
  exact before other (mem_byAge.mp (List.mem_of_mem_filter member))

theorem Dated.insertOrReplace (row : ChunkRow) (before : table.Before row.accessedOn) :
    (table.insertOrReplace row).byAge =
        table.byAge.filter (fun other => other.chunkId ≠ row.chunkId) ++ [row] ∧
      (table.insertOrReplace row).Dated := by
  have perm : (table.byAge.filter (fun other => other.chunkId ≠ row.chunkId) ++ [row]).Perm
      (table.insertOrReplace row).rows := by
    simpa [ChunkTable.insertOrReplace, ChunkTable.deleteWhere] using (table.byAge_perm.filter _).append_right [row]
  exact byAge_eq perm (dated.append _ row before)

theorem Dated.updateAccessedOn (before : table.Before now) (found : table.find? chunkId = some row) :
    (table.updateAccessedOn chunkId now).byAge =
        table.byAge.filter (fun other => other.chunkId ≠ chunkId) ++ [{ row with accessedOn := now }] ∧
      (table.updateAccessedOn chunkId now).Dated := by
  obtain ⟨member, rfl⟩ := find?_eq_some_iff.mp found
  have perm := List.perm_map_change table.unique (fun other => { other with accessedOn := now }) member
  exact byAge_eq (((table.byAge_perm.filter _).append_right _).trans perm)
    (dated.append _ _ before)

/-- What is left when the oldest rows are deleted. -/
theorem Dated.deleteOldest (limit : ℕ) :
    let selected := (table.byAge.take limit).map ChunkRow.chunkId
    (table.deleteWhere (· ∈ selected)).byAge = table.byAge.drop limit ∧
      (table.deleteWhere (· ∈ selected)).Dated := by
  intro selected
  obtain ⟨left, ordered⟩ := dated.deleteWhere (· ∈ selected)
  have rest := List.filter_not_mem_take table.nodup_byAge limit
  simp only [decide_eq_true_eq] at left
  exact ⟨left.trans rest, ordered⟩

end Statements

end ChunkTable

namespace BlockStorage

variable {storage : BlockStorage} {chunkId : ChunkID} {raw : Bytes} {now : DateTime}

/-- The blocks in the order of their last access. -/
def toCache (storage : BlockStorage) : RecencyCache BlockID Bytes where
  rows := storage.chunks.byAge.map fun row => (row.chunkId, row.data.plain)
  unique := by
    rw [List.map_map]
    exact storage.chunks.nodup_byAge

/-- All blocks are encrypted with the key of the device. -/
def Keyed (storage : BlockStorage) : Prop := ∀ row ∈ storage.chunks.rows, row.data.key = storage.localSymkey

theorem length_toCache (storage : BlockStorage) : storage.toCache.rows.length = storage.getNbBlocks := by
  rw [toCache, List.length_map]
  exact storage.chunks.byAge_perm.length_eq

theorem mem_keys_toCache : chunkId ∈ storage.toCache.keys ↔ chunkId ∈ storage.chunks.ids := by
  rw [RecencyCache.keys, toCache, List.map_map]
  exact (storage.chunks.byAge_perm.map ChunkRow.chunkId).mem_iff

theorem get?_toCache : storage.toCache.get? chunkId =
    (storage.chunks.find? chunkId).map fun row => row.data.plain := by
  apply Option.ext
  intro found
  rw [RecencyCache.get?_eq_some_iff, Option.map_eq_some_iff, toCache, List.mem_map]
  simp only [ChunkTable.mem_byAge, ChunkTable.find?_eq_some_iff, Prod.mk.injEq, and_assoc]

/-- Rows with other ids are the same in the table and in the cache. -/
theorem filter_rows_toCache (storage : BlockStorage) (chunkId : ChunkID) :
    storage.toCache.rows.filter (fun row => row.1 ≠ chunkId) =
      (storage.chunks.byAge.filter fun row => row.chunkId ≠ chunkId).map fun row =>
        (row.chunkId, row.data.plain) := List.filter_map

/-- A block that is there is decrypted. -/
theorem getChunk_fst (keyed : storage.Keyed) (chunkId : ChunkID) (now : DateTime) :
    (storage.getChunk chunkId now).1 = (storage.toCache.get? chunkId).elim (.error (.localMiss chunkId)) .ok := by
  rw [ChunkStorage.getChunk, get?_toCache]
  cases found : storage.chunks.find? chunkId with
  | none => rfl
  | some row =>
    have opened : row.data.decrypt storage.localSymkey = .ok row.data.plain :=
      if_pos (keyed row (ChunkTable.find?_eq_some_iff.mp found).1)
    exact congrArg (Except.mapError fun _ => FileError.crypto) opened

section Calls

variable (dated : storage.chunks.Dated)
include dated

theorem clearChunk_spec :
    let after := { storage with toChunkStorage := (storage.clearChunk chunkId).2 }
    after.chunks.Dated ∧ after.toCache = storage.toCache.erase chunkId := by
  obtain ⟨left, ordered⟩ := dated.deleteWhere (· = chunkId)
  refine ⟨ordered, RecencyCache.ext ?_⟩
  rw [RecencyCache.rows_erase, filter_rows_toCache]
  refine (congrArg (List.map _) left).trans ?_
  simp only [decide_eq_true_eq, ne_eq]

variable (before : storage.chunks.Before now)
include before

/-- A block that is looked up is the one accessed last. -/
theorem getChunk_spec (chunkId : ChunkID) :
    let after := { storage with toChunkStorage := (storage.getChunk chunkId now).2 }
    after.chunks.Dated ∧ after.toCache = storage.toCache.access chunkId := by
  rw [ChunkStorage.getChunk, RecencyCache.access, get?_toCache]
  cases found : storage.chunks.find? chunkId with
  | none => exact ⟨dated, rfl⟩
  | some row =>
    obtain ⟨moved, ordered⟩ := dated.updateAccessedOn before found
    obtain ⟨-, rfl⟩ := ChunkTable.find?_eq_some_iff.mp found
    refine ⟨ordered, RecencyCache.ext ?_⟩
    dsimp only [Option.map_some]
    rw [RecencyCache.rows_put, filter_rows_toCache]
    exact (congrArg (List.map _) moved).trans (List.map_append ..)

/-- A block that is set comes behind the others, and pushes out those in front if there are too many. -/
theorem setChunk_spec (chunkId : ChunkID) (raw : Bytes) :
    let after := storage.setChunk chunkId raw now
    after.chunks.Dated ∧
      after.toCache = storage.toCache.insert storage.blockLimit (storage.blockLimit / 10) chunkId raw ∧
      ∃ evicted, storage.chunks.byAge.filter (fun row => row.chunkId ≠ chunkId) ++
        [⟨chunkId, now, ⟨storage.localSymkey, raw⟩⟩] = evicted ++ after.chunks.byAge := by
  let put : BlockStorage := { storage with toChunkStorage := storage.toChunkStorage.setChunk chunkId raw now }
  let new : ChunkRow := ⟨chunkId, now, ⟨storage.localSymkey, raw⟩⟩
  obtain ⟨stands, ordered⟩ : put.chunks.byAge =
      storage.chunks.byAge.filter (fun row => row.chunkId ≠ chunkId) ++ [new] ∧ put.chunks.Dated :=
    dated.insertOrReplace new before
  have same : put.toCache = storage.toCache.put chunkId raw := by
    refine RecencyCache.ext ?_
    rw [RecencyCache.rows_put, filter_rows_toCache]
    exact (congrArg (List.map _) stands).trans (List.map_append ..)
  have counted : put.getNbBlocks = (storage.toCache.put chunkId raw).rows.length := by
    rw [← same, length_toCache]
  have set : storage.setChunk chunkId raw now = if storage.blockLimit < put.getNbBlocks then
      put.clearOldBlocks (put.getNbBlocks - storage.blockLimit + storage.blockLimit / 10) else put := rfl
  dsimp only
  rw [set, RecencyCache.insert, RecencyCache.trim, counted, ← stands]
  split
  · generalize (storage.toCache.put chunkId raw).rows.length - storage.blockLimit + storage.blockLimit / 10 = limit
    obtain ⟨left, still⟩ := ordered.deleteOldest limit
    refine ⟨still, RecencyCache.ext ?_, put.chunks.byAge.take limit, ?_⟩
    · rw [RecencyCache.rows_dropOldest, ← same]
      exact (congrArg (List.map _) left).trans List.map_drop
    · exact (List.take_append_drop limit _).symm.trans (congrArg _ left.symm)
  · exact ⟨ordered, same, [], rfl⟩

end Calls

/-- What a reading client does to its cache is what `set_chunk` does to the table. -/
theorem setChunk_toCache (source : BlockSource) (same : source.cacheSize = storage.cacheSize)
    (dated : storage.chunks.Dated) (before : storage.chunks.Before now) (chunkId : ChunkID) (raw : Bytes) :
    source.setChunk storage.toCache chunkId raw = (storage.setChunk chunkId raw now).toCache := by
  rw [(setChunk_spec dated before chunkId raw).2.1, BlockSource.setChunk, BlockSource.blockLimit, same]
  rfl

/-- And so is what it does to read a block. -/
theorem run_getCleanBlock (client : CachedStorage) (same : client.blockStorage = storage.toCache)
    (dated : storage.chunks.Dated) (before : storage.chunks.Before now) (keyed : storage.Keyed) :
    let after := { storage with toChunkStorage := (storage.getChunk chunkId now).2 }
    (CachedStorage.getCleanBlock chunkId).run client =
      some ((storage.getChunk chunkId now).1, { client with blockStorage := after.toCache }) := by
  dsimp only
  rw [getChunk_fst keyed, (getChunk_spec dated before chunkId).2, ← same]
  exact CachedStorage.run_getCleanBlock client chunkId

end BlockStorage

end Guardata
