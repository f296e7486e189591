import Guardata.Model.WorkspaceTransactions
import Guardata.ToMathlib.SortedBy

/-! # The storage of chunks and blocks

Chunks and blocks are kept encrypted in a table of a local database, with the date of the last access. A block
storage is a cache for what the backend has anyway: as soon as there are more blocks than its limit, it deletes
those that were not accessed for the longest time.

A list of rows stands for the table, and every call is played alone, so its cursors are left out, and so are the
columns `size` and `offline`, which no call here reads. Where SQL leaves the order of equal dates open, the rows
are taken as they stand.
-/

namespace Guardata

/-- A row of the table `chunks`. -/
structure ChunkRow where
  chunkId : ChunkID
  accessedOn : DateTime
  data : Ciphered Bytes
deriving DecidableEq, Repr

/-- The table `chunks`, with `chunk_id` as its primary key. -/
structure ChunkTable where
  rows : List ChunkRow
  unique : (rows.map ChunkRow.chunkId).Nodup

namespace ChunkTable

instance : EmptyCollection ChunkTable := ⟨⟨[], List.nodup_nil⟩⟩

variable (table : ChunkTable)

def ids : List ChunkID := table.rows.map ChunkRow.chunkId

def find? (chunkId : ChunkID) : Option ChunkRow := table.rows.find? fun row => row.chunkId = chunkId

/-- `DELETE FROM chunks WHERE …` -/
def deleteWhere (chosen : ChunkID → Bool) : ChunkTable where
  rows := table.rows.filter fun row => ¬ chosen row.chunkId
  unique := table.unique.sublist (List.filter_sublist.map _)

/-- `INSERT OR REPLACE INTO chunks` -/
def insertOrReplace (row : ChunkRow) : ChunkTable where
  rows := (table.deleteWhere (· = row.chunkId)).rows ++ [row]
  unique := by
    rw [List.map_append, List.nodup_append]
    refine ⟨(table.deleteWhere _).unique, List.nodup_singleton _, ?_⟩
    intro other member last single same
    obtain ⟨kept, found, rfl⟩ := List.mem_map.mp member
    have different := (List.mem_filter.mp found).2
    rw [same, List.mem_singleton.mp single] at different
    simp at different

/-- `UPDATE chunks SET accessed_on = ? WHERE chunk_id = ?` -/
def updateAccessedOn (chunkId : ChunkID) (now : DateTime) : ChunkTable where
  rows := table.rows.map fun row => if row.chunkId = chunkId then { row with accessedOn := now } else row
  unique := by
    have same : (ChunkRow.chunkId ∘ fun row : ChunkRow =>
        if row.chunkId = chunkId then { row with accessedOn := now } else row) = ChunkRow.chunkId := by
      funext row
      simp only [Function.comp_apply]
      split <;> rfl
    rw [List.map_map, same]
    exact table.unique

/-- The rows in the order of `accessed_on`. -/
def byAge : List ChunkRow := table.rows.sortedBy ChunkRow.accessedOn

end ChunkTable

/-- Interface to access the local chunks of data. -/
structure ChunkStorage where
  localSymkey : SecretKey
  chunks : ChunkTable := ∅

namespace ChunkStorage

variable (storage : ChunkStorage)

def getNbBlocks : ℕ := storage.chunks.rows.length

def getChunk (chunkId : ChunkID) (now : DateTime) : Except FileError Bytes × ChunkStorage :=
  match storage.chunks.find? chunkId with
  | none => (.error (.localMiss chunkId), storage)
  | some row => ((row.data.decrypt storage.localSymkey).mapError fun _ => .crypto,
      { storage with chunks := storage.chunks.updateAccessedOn chunkId now })

def setChunk (chunkId : ChunkID) (raw : Bytes) (now : DateTime) : ChunkStorage :=
  { storage with chunks := storage.chunks.insertOrReplace ⟨chunkId, now, ⟨storage.localSymkey, raw⟩⟩ }

def clearChunk (chunkId : ChunkID) : Except FileError Unit × ChunkStorage :=
  (.require (chunkId ∈ storage.chunks.ids) (.localMiss chunkId),
    { storage with chunks := storage.chunks.deleteWhere (· = chunkId) })

end ChunkStorage

/-- Interface for caching the data blocks. -/
structure BlockStorage extends ChunkStorage where
  cacheSize : ℕ

namespace BlockStorage

variable (storage : BlockStorage)

def blockLimit : ℕ := storage.cacheSize / defaultBlockSize

def clearAllBlocks : BlockStorage := { storage with chunks := ∅ }

/-- `clear_old_blocks`, of the ids that a query selects in the order of `accessed_on`. -/
def clearOldBlocks (limit : ℕ) : BlockStorage :=
  let selected := (storage.chunks.byAge.take limit).map ChunkRow.chunkId
  { storage with chunks := storage.chunks.deleteWhere (· ∈ selected) }

/-- `set_chunk`. There is one commit for each cursor, but nothing else runs meanwhile. -/
def setChunk (chunkId : ChunkID) (raw : Bytes) (now : DateTime) : BlockStorage :=
  let storage := { storage with toChunkStorage := storage.toChunkStorage.setChunk chunkId raw now }
  let nbBlocks := storage.getNbBlocks
  -- Remove the extra block plus 10 % of the cache size
  if storage.blockLimit < nbBlocks then
    storage.clearOldBlocks (nbBlocks - storage.blockLimit + storage.blockLimit / 10)
  else storage

end BlockStorage

/-- A call on a block storage. -/
inductive BlockCall where
  | getChunk (chunkId : ChunkID)
  | setChunk (chunkId : ChunkID) (raw : Bytes)
  | clearChunk (chunkId : ChunkID)
  | clearAllBlocks
deriving DecidableEq, Repr

namespace BlockStorage

/-- The storage after a call, whether or not it raises. -/
def afterCall (storage : BlockStorage) (call : DateTime × BlockCall) : BlockStorage :=
  match call.2 with
  | .getChunk chunkId => { storage with toChunkStorage := (storage.getChunk chunkId call.1).2 }
  | .setChunk chunkId raw => storage.setChunk chunkId raw call.1
  | .clearChunk chunkId => { storage with toChunkStorage := (storage.clearChunk chunkId).2 }
  | .clearAllBlocks => storage.clearAllBlocks

def afterCalls (storage : BlockStorage) (calls : List (DateTime × BlockCall)) : BlockStorage :=
  calls.foldl afterCall storage

end BlockStorage

end Guardata
