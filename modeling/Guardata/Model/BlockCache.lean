import Guardata.Model.FileTransactions
import Guardata.Model.WorkspaceTransactions
import Guardata.ToMathlib.RecencyCache

/-! # Reads through the block cache

`fd_read` over a block storage of a limited size, which drops the blocks that were not accessed for the
longest time. The rows of the block storage stand in the order of `accessed_on`; the time is taken to
move on between two accesses. The chunk storage holds what was not uploaded yet, and has no limit. The
read is played alone, so the entry lock is left out, and the backend is what its blocks are.
-/

namespace Guardata

open Machine

/-- A file on a device, and where its chunks and blocks are stored. -/
structure CachedStorage where
  manifest : LocalFileManifest
  openFds : Finset FileDescriptor
  chunkStorage : ChunkID → Option Bytes
  blockStorage : RecencyCache BlockID Bytes

/-- The size of the block storage, and the blocks that the backend serves. -/
structure BlockSource where
  cacheSize : ℕ
  blocks : BlockID → Option (Ciphered Bytes)

def BlockSource.blockLimit (source : BlockSource) : ℕ := source.cacheSize / defaultBlockSize

/-- `set_chunk` of the block storage: the extra blocks are cleared, and ten percent of the limit. -/
def BlockSource.setChunk (source : BlockSource) (cache : RecencyCache BlockID Bytes) (id : BlockID)
    (raw : Bytes) :
    RecencyCache BlockID Bytes := cache.insert source.blockLimit (source.blockLimit / 10) id raw

namespace CachedStorage

open Coroutine

abbrev Transaction := Coroutine FileError CachedStorage

def loadFileDescriptor (fd : FileDescriptor) : Transaction LocalFileManifest :=
  observeOr fun storage =>
    if fd ∈ storage.openFds then .ok storage.manifest else .error (.invalidFileDescriptor fd)

/-- `get_chunk` of the block storage, which notes the access. -/
def getCleanBlock (id : BlockID) : Transaction Bytes :=
  transact fun storage => match storage.blockStorage.get? id with
    | some data => .ok (data, { storage with blockStorage := storage.blockStorage.access id })
    | none => .error (.localMiss id)

def getChunk (id : ChunkID) : Transaction Bytes := do
  match ← observe fun storage => storage.chunkStorage id with
  | some data => return data
  | none => getCleanBlock id

def readChunk (chunk : Chunk) : Transaction Bytes := do
  let data ← getChunk chunk.id
  return data.slice ((chunk.start : ℤ) - chunk.rawOffset) ((chunk.stop : ℤ) - chunk.rawOffset)

def buildChunk (start : ℕ) (built : Bytes × List BlockAccess) (chunk : Chunk) :
    Transaction (Bytes × List BlockAccess) := do
  match ← (readChunk chunk).attempt with
  | .ok data =>
      return (Transaction.splice built.1 (chunk.start - start) (chunk.stop - start) data, built.2)
  | .error (.localMiss _) =>
      match chunk.access with
      | some access => return (built.1, built.2 ++ [access])
      | none => .raise .assertion
  | .error error => .raise error

def buildData (chunks : List Chunk) : Transaction (Bytes × List BlockAccess) :=
  match chunks with
  | [] => pure ([], [])
  | first :: rest =>
      let stop := (rest.getLastD first).stop
      chunks.foldlM (buildChunk first.start) (List.replicate (stop - first.start) 0, [])

def loadBlock (source : BlockSource) (access : BlockAccess) : Transaction Unit := do
  let ciphered ← .ofExcept ((source.blocks access.id).elim (.error (.remoteBlockNotFound access.id)) .ok)
  let block ← .ofExcept ((ciphered.decrypt access.key).mapError fun _ => FileError.crypto)
  .ofExcept (.require (HashDigest.fromData block = access.digest) .assertion)
  update fun storage => { storage with blockStorage := source.setChunk storage.blockStorage access.id block }

def loadBlocks (source : BlockSource) (accesses : List BlockAccess) : Transaction Unit :=
  accesses.forM (loadBlock source)

/-- One attempt to read, from the second `async with` of the loop on. -/
def readAttempt (fd : FileDescriptor) (size offset : ℤ) (raiseEof : Bool) :
    Transaction ((ℕ × ℕ) × Bytes × List BlockAccess) := do
  let manifest ← loadFileDescriptor fd
  if raiseEof ∧ (manifest.size : ℤ) ≤ offset then .raise .endOfFile
  else
    let offset := Transaction.normalizeArgument offset manifest
    let size := Transaction.normalizeArgument size manifest
    if manifest.size < offset then return ((size, offset), [], [])
    else
      let built ← buildData (prepareRead manifest size offset)
      return ((size, offset), built)

/-- `fd_read`, which tries until nothing is missing; `none` if the attempts are used up. -/
def fdRead (source : BlockSource) (fd : FileDescriptor) (size offset : ℤ) (raiseEof : Bool) :
    ℕ → List BlockAccess → Transaction (Option Bytes)
  | 0, _ => pure none
  | attempts + 1, missing => do
      loadBlocks source missing
      let ((size, offset), data, missing) ← readAttempt fd size offset raiseEof
      if missing = [] then return some data
      else fdRead source fd size offset raiseEof attempts missing

end CachedStorage

end Guardata
