import Mathlib.Data.Finset.Basic
import Guardata.Model.FileManifest
import Guardata.ToMathlib.Sequence

/-! # File operations

Reads, writes, resizes and reshapes, computed on a manifest alone: which chunks are to be read,
which chunks are to be written from where in the content, and which ids are not referenced any
more. Offsets into the content are signed, as the padding before the content counts as negative.
-/

namespace Guardata

/-- `locate_range`: the blocks that a range touches, with the part of it inside each of them. The
last block is found from `stop - 1`, which is negative for an empty range at the very start. -/
def locateRange (start stop blocksize : ℕ) : List (ℕ × ℕ × ℕ) :=
  let startBlock := start / blocksize
  let stopBlock : ℤ := ((stop : ℤ) - 1) / blocksize
  (List.range' startBlock (stopBlock + 1 - startBlock).toNat).map fun block =>
    (block, max start (block * blocksize), min stop (block * blocksize + blocksize))

def indexOfChunkBeforeStart (chunks : List Chunk) (start : ℕ) : ℤ :=
  (chunks.bisect fun chunk => chunk.start ≤ start) - 1

def indexOfChunkAfterStop (chunks : List Chunk) (stop : ℕ) : ℤ :=
  chunks.bisect fun chunk => chunk.start < stop

def chunkIdSet (chunks : List Chunk) : Finset ChunkID := (chunks.map Chunk.id).toFinset

/-- The item at a signed index, or `IndexError`. -/
def itemAt {α : Type} (entries : List α) (index : ℤ) : Except FileError α :=
  match entries.item? index with
  | some entry => .ok entry
  | none => .error .index

section Read

def splitRead (length offset blocksize : ℕ) : List (ℕ × ℕ × ℕ) :=
  (locateRange offset (offset + length) blocksize).map fun (block, start, stop) =>
    (block, stop - start, start)

def blockRead (chunks : List Chunk) (size start : ℕ) : List Chunk :=
  let stop := start + size
  let startIndex := indexOfChunkBeforeStart chunks start
  let stopIndex := indexOfChunkAfterStop chunks stop
  (chunks.slice startIndex stopIndex).map fun chunk =>
    { chunk with start := max chunk.start start, stop := min chunk.stop stop }

def prepareRead (manifest : LocalFileManifest) (size offset : ℕ) : List Chunk :=
  let offset := min offset manifest.size
  let size := min size (manifest.size - offset)
  (splitRead size offset manifest.blocksize).flatMap fun (block, length, start) =>
    blockRead (manifest.getChunks block) length start

end Read

section Write

def splitWrite (size offset blocksize : ℕ) : List (ℕ × ℕ × ℕ × ℕ) :=
  (locateRange offset (offset + size) blocksize).map fun (block, start, stop) =>
    (block, stop - start, start, start - offset)

/-- `block_write`: what is left of the old chunks around the new one, and the ids that are gone. -/
def blockWrite (chunks : List Chunk) (size start : ℕ) (newChunk : Chunk) :
    Except FileError (List Chunk × Finset ChunkID) :=
  if chunks = [] then .ok ([newChunk], ∅)
  else do
    let stop := start + size
    let startIndex := indexOfChunkBeforeStart chunks start
    let stopIndex := indexOfChunkAfterStop chunks stop
    let removedIds := chunkIdSet (chunks.slice startIndex stopIndex)
    let startChunk ← itemAt chunks startIndex
    let (front, removedIds) :=
      if startChunk.start < start then
        ([{ startChunk with stop := start }], removedIds.erase startChunk.id)
      else ([], removedIds)
    let stopChunk ← itemAt chunks (stopIndex - 1)
    let (back, removedIds) :=
      if stop < stopChunk.stop then
        ([{ stopChunk with start := stop }], removedIds.erase stopChunk.id)
      else ([], removedIds)
    let result := chunks.slice 0 startIndex ++ front ++ [newChunk] ++ back ++
      chunks.slice stopIndex chunks.length
    -- IDs might appear multiple times
    return (result, removedIds \ chunkIdSet result)

/-- The loop variables of `prepare_write`, with the id of the next new chunk. -/
structure WriteState where
  blocks : List (List Chunk)
  writeOperations : List (Chunk × ℤ)
  removedIds : Finset ChunkID
  nextId : ℕ

/-- Replace a block, or append one behind the last. -/
def setBlock (blocks : List (List Chunk)) (block : ℕ) (chunks : List Chunk) :
    Except FileError (List (List Chunk)) :=
  if blocks.length = block then .ok (blocks ++ [chunks])
  else if block < blocks.length then .ok (blocks.set block chunks)
  else .error .index

/-- One round of the loop over the blocks of `prepare_write`. -/
def writeBlock (manifest : LocalFileManifest) (padding : ℕ) (state : WriteState)
    (part : ℕ × ℕ × ℕ × ℕ) : Except FileError WriteState := do
  let (block, subsize, start, contentOffset) := part
  let newChunk ← Chunk.new state.nextId start (start + subsize)
  let (newChunks, moreRemovedIds) ←
    blockWrite (manifest.getChunks block) subsize start newChunk
  let blocks ← setBlock state.blocks block newChunks
  return {
    blocks
    writeOperations := state.writeOperations ++ [(newChunk, (contentOffset : ℤ) - padding)]
    removedIds := state.removedIds ∪ moreRemovedIds
    nextId := state.nextId + 1 }

/-- What `prepare_write` and `prepare_resize` return, with the id of the next new chunk. -/
structure PreparedWrite where
  manifest : LocalFileManifest
  writeOperations : List (Chunk × ℤ)
  removedIds : Finset ChunkID
  nextId : ℕ

def prepareWrite (manifest : LocalFileManifest) (size offset : ℕ) (nextId : ℕ) (now : DateTime) :
    Except FileError PreparedWrite := do
  let padding := offset - manifest.size
  let size := size + padding
  let offset := min offset manifest.size
  let state ← (splitWrite size offset manifest.blocksize).foldlM (writeBlock manifest padding)
    ⟨manifest.blocks, [], ∅, nextId⟩
  let newSize := max manifest.size (offset + size)
  return {
    manifest := manifest.evolveAndMarkUpdated newSize state.blocks now
    writeOperations := state.writeOperations
    removedIds := state.removedIds
    nextId := state.nextId }

end Write

section Resize

/-- `prepare_truncate`: the last chunk that is kept is cut at the new size. -/
def prepareTruncate (manifest : LocalFileManifest) (size : ℕ) (now : DateTime) :
    Except FileError (LocalFileManifest × Finset ChunkID) := do
  let block := size / manifest.blocksize
  let remainder := size % manifest.blocksize
  let chunks ← itemAt manifest.blocks block
  let later := chunkIdSet (manifest.blocks.drop (block + 1)).flatten
  if remainder = 0 then
    return (manifest.evolveAndMarkUpdated size (manifest.blocks.take block) now,
      chunkIdSet chunks ∪ later)
  else
    let stopIndex := indexOfChunkAfterStop chunks size
    let lastChunk ← itemAt chunks (stopIndex - 1)
    let kept := chunks.slice 0 (stopIndex - 1) ++ [{ lastChunk with stop := size }]
    return (manifest.evolveAndMarkUpdated size (manifest.blocks.take block ++ [kept]) now,
      (chunkIdSet chunks \ chunkIdSet kept) ∪ later)

def prepareResize (manifest : LocalFileManifest) (size : ℕ) (nextId : ℕ) (now : DateTime) :
    Except FileError PreparedWrite :=
  if manifest.size ≤ size then prepareWrite manifest 0 size nextId now
  else do
    let (manifest, removedIds) ← prepareTruncate manifest size now
    return ⟨manifest, [], removedIds, nextId⟩

end Resize

section Reshape

/-- What `prepare_reshape` yields for a block, apart from its update. -/
structure ReshapeOperation where
  source : List Chunk
  destination : Chunk
  removedIds : Finset ChunkID
deriving DecidableEq

/-- One round of the loop of `prepare_reshape`: nothing for a block, no removal for a
pseudo-block, and a new chunk for anything else. -/
def reshapeBlock (chunks : List Chunk) (id : ChunkID) : Except FileError (Option ReshapeOperation) :=
  match chunks with
  | [] => .error .index
  | [chunk] =>
      if chunk.isBlock then .ok none
      else if chunk.isPseudoBlock then .ok (some ⟨[chunk], chunk, ∅⟩)
      else do
        let newChunk ← Chunk.new id chunk.start chunk.stop
        return some ⟨[chunk], newChunk, chunkIdSet [chunk]⟩
  | first :: second :: rest => do
      let newChunk ← Chunk.new id first.start ((second :: rest).getLastD second).stop
      return some ⟨chunks, newChunk, chunkIdSet chunks⟩

/-- `update_manifest` of `prepare_reshape`. -/
def updateManifest (block : ℕ) (manifest : LocalFileManifest) (newChunk : Chunk) :
    LocalFileManifest :=
  { manifest with blocks := manifest.blocks.set block [newChunk] }

end Reshape

end Guardata
