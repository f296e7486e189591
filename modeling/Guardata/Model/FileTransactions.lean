import Guardata.Machine.Coroutine
import Guardata.Model.FileOperations

/-! # File transactions

The transactions on the descriptors of one file, over the local storage of a device. A removed
chunk is not deleted at once: its id waits in `aheadOfLocaldb` until the manifest is written to
disk. Every `await` of the source is an atomic action of a coroutine, and so is every computation
that draws new ids, which are never drawn twice. The caches that only repeat what is on disk, the
events and the block cache's own limit are left out.
-/

namespace Guardata

open Machine

/-- What a device stores about a file. -/
structure LocalStorage where
  manifest : LocalFileManifest
  /-- `_cache_ahead_of_localdb`: the chunks to be deleted with the next write to disk. -/
  aheadOfLocaldb : Option (Finset ChunkID) := none
  chunkStorage : ChunkID → Option Bytes := fun _ => none
  blockStorage : BlockID → Option Bytes := fun _ => none
  openFds : Finset FileDescriptor := ∅
  writeCount : FileDescriptor → ℕ := fun _ => 0
  /-- The entry lock. -/
  locked : Bool := false

/-- The block store, and the versions of the file's manifest, oldest first. -/
structure Backend where
  blocks : BlockID → Option (Ciphered Bytes) := fun _ => none
  versions : List RemoteFileManifest := []

/-- A device and the backend, with the supply of new ids and the time. -/
structure World where
  storage : LocalStorage
  backend : Backend := {}
  nextId : ℕ := 0
  clock : DateTime := 0

abbrev Transaction := Coroutine FileError World

def World.updateStorage (world : World) (change : LocalStorage → LocalStorage) : World :=
  { world with storage := change world.storage }

/-- Write the manifest to disk, if it is ahead of it, and delete the chunks that wait for it. -/
def LocalStorage.persist (storage : LocalStorage) : LocalStorage :=
  match storage.aheadOfLocaldb with
  | none => storage
  | some removedIds => { storage with
      aheadOfLocaldb := none
      chunkStorage := fun id => if id ∈ removedIds then none else storage.chunkStorage id }

/-- Set the cached manifest, and let more chunks wait for their deletion. -/
def LocalStorage.cache (storage : LocalStorage) (manifest : LocalFileManifest)
    (removedIds : Finset ChunkID) : LocalStorage :=
  { storage with
    manifest := manifest, aheadOfLocaldb := some (storage.aheadOfLocaldb.getD ∅ ∪ removedIds) }

namespace Transaction

open Coroutine

/-- Compute something that may draw new ids or ask for the time. -/
def drawing {α : Type} (compute : ℕ → DateTime → Except FileError (α × ℕ)) : Transaction α :=
  .atomic
    (fun world => match compute world.nextId world.clock with
      | .ok (_, nextId) => some { world with nextId := nextId }
      | .error _ => some world)
    fun world => match compute world.nextId world.clock with
      | .ok (value, _) => pure value
      | .error error => .raise error

section Storage

def loadFileDescriptor (fd : FileDescriptor) : Transaction LocalFileManifest :=
  observeOr fun world =>
    if fd ∈ world.storage.openFds then .ok world.storage.manifest
    else .error (.invalidFileDescriptor fd)

def removeFileDescriptor (fd : FileDescriptor) : Transaction Unit := do
  let _ ← loadFileDescriptor fd
  update fun world => world.updateStorage fun storage =>
    { storage with openFds := storage.openFds.erase fd }

def getDirtyBlock (id : BlockID) : Transaction Bytes :=
  observeOr fun world => match world.storage.chunkStorage id with
    | some data => .ok data
    | none => .error (.localMiss id)

/-- `get_chunk`: a dirty chunk, or else a clean block. -/
def getChunk (id : ChunkID) : Transaction Bytes := do
  match ← observe fun world => world.storage.chunkStorage id with
  | some data => return data
  | none => observeOr fun world => match world.storage.blockStorage id with
      | some data => .ok data
      | none => .error (.localMiss id)

def setChunk (id : ChunkID) (data : Bytes) : Transaction Unit :=
  update fun world => world.updateStorage fun storage =>
    { storage with chunkStorage := Function.update storage.chunkStorage id (some data) }

/-- `clear_chunk(id, miss_ok=True)`. -/
def clearChunk (id : ChunkID) : Transaction Unit :=
  update fun world => world.updateStorage fun storage =>
    { storage with chunkStorage := Function.update storage.chunkStorage id none }

def setCleanBlock (id : BlockID) (data : Bytes) : Transaction Unit :=
  update fun world => world.updateStorage fun storage =>
    { storage with blockStorage := Function.update storage.blockStorage id (some data) }

def ensureManifestPersistent : Transaction Unit :=
  update fun world => world.updateStorage LocalStorage.persist

def setManifest (manifest : LocalFileManifest) (cacheOnly : Bool)
    (removedIds : Finset ChunkID := ∅) : Transaction Unit := do
  update fun world => world.updateStorage fun storage => storage.cache manifest removedIds
  if cacheOnly then return () else ensureManifestPersistent

def acquire : Transaction Unit :=
  .atomic
    (fun world => if world.storage.locked then none
      else some (world.updateStorage fun storage => { storage with locked := true }))
    fun _ => pure ()

def release : Transaction Unit :=
  update fun world => world.updateStorage fun storage => { storage with locked := false }

/-- Hold the entry lock during the body, however that ends. -/
def lockEntry {α : Type} (body : Transaction α) : Transaction α := do
  acquire
  body.ensuring release

/-- `_load_and_lock_file`. -/
def loadAndLockFile {α : Type} (fd : FileDescriptor) (body : LocalFileManifest → Transaction α) :
    Transaction α := do
  let _ ← loadFileDescriptor fd
  lockEntry do
    let manifest ← loadFileDescriptor fd
    body manifest

end Storage

section Helpers

def normalizeArgument (arg : ℤ) (manifest : LocalFileManifest) : ℕ :=
  if arg < 0 then manifest.size else arg.toNat

/-- `padded_data`: the data counts as preceded by null bytes. -/
def paddedData (data : Bytes) (start stop : ℤ) : Except FileError Bytes := do
  .require (start ≤ stop) .assertion
  if stop ≤ 0 then return List.replicate (stop - start).toNat 0
  else if 0 ≤ start then return data.slice start stop
  else return List.replicate (0 - start).toNat 0 ++ data.slice 0 stop

def readChunk (chunk : Chunk) : Transaction Bytes := do
  let data ← getChunk chunk.id
  return data.slice ((chunk.start : ℤ) - chunk.rawOffset) ((chunk.stop : ℤ) - chunk.rawOffset)

def writeChunk (chunk : Chunk) (content : Bytes) (offset : ℤ) : Transaction ℕ := do
  let data ← .ofExcept (paddedData content offset (offset + chunk.stop - chunk.start))
  setChunk chunk.id data
  return data.length

/-- `result[start:stop] = data` on a byte array. -/
def splice (result : Bytes) (start stop : ℕ) (data : Bytes) : Bytes :=
  result.take start ++ data ++ result.drop (max start stop)

/-- One round of the loop of `_build_data`; the data of a chunk that is not there has to be
downloaded. -/
def buildChunk (start : ℕ) (built : Bytes × List BlockAccess) (chunk : Chunk) :
    Transaction (Bytes × List BlockAccess) := do
  match ← (readChunk chunk).attempt with
  | .ok data => return (splice built.1 (chunk.start - start) (chunk.stop - start) data, built.2)
  | .error (.localMiss _) =>
      match chunk.access with
      | some access => return (built.1, built.2 ++ [access])
      | none => .raise .assertion
  | .error error => .raise error

def buildData (chunks : List Chunk) : Transaction (Bytes × List BlockAccess) :=
  match chunks with
  | [] => pure ([], [])
  | first :: rest =>
      let stop := (rest.getLastD first).stop
      chunks.foldlM (buildChunk first.start) (List.replicate (stop - first.start) 0, [])

def loadBlock (access : BlockAccess) : Transaction Unit := do
  let ciphered ← observeOr fun world => match world.backend.blocks access.id with
    | some ciphered => .ok ciphered
    | none => .error (.remoteBlockNotFound access.id)
  let block ← .ofExcept ((ciphered.decrypt access.key).mapError fun _ => FileError.crypto)
  .ofExcept (.require (HashDigest.fromData block = access.digest) .assertion)
  setCleanBlock access.id block

def loadBlocks (accesses : List BlockAccess) : Transaction Unit := accesses.forM loadBlock

end Helpers

section Reshape

/-- One round of the loop of `_manifest_reshape`. -/
def reshapeOne (progress : LocalFileManifest × List BlockAccess) (block : List Chunk × ℕ) :
    Transaction (LocalFileManifest × List BlockAccess) := do
  let (manifest, missing) := progress
  match ← drawing fun id _ => return (← reshapeBlock block.1 id, id + 1) with
  | none => return (manifest, missing)
  | some operation =>
      let (data, extraMissing) ← buildData operation.source
      if extraMissing ≠ [] then return (manifest, missing ++ extraMissing)
      else
        let newChunk ← drawing fun key _ =>
          return (← operation.destination.evolveAsBlock ⟨key⟩ data, key + 1)
        if operation.source ≠ [operation.destination] then
          let _ ← writeChunk newChunk data 0
        let manifest := updateManifest block.2 manifest newChunk
        -- Set the new manifest, acting as a checkpoint
        setManifest manifest true operation.removedIds
        return (manifest, missing)

/-- `_manifest_reshape`: the blocks that have to be downloaded first, if any. -/
def manifestReshape (manifest : LocalFileManifest) (cacheOnly : Bool) :
    Transaction (List BlockAccess) := do
  let (_, missing) ← manifest.blocks.zipIdx.foldlM reshapeOne (manifest, [])
  if cacheOnly then return missing
  else
    ensureManifestPersistent
    return missing

end Reshape

section Resize

def manifestResize (manifest : LocalFileManifest) (length : ℕ) (cacheOnly : Bool) :
    Transaction Unit :=
  if manifest.size = length then pure ()
  else do
    let prepared ← drawing fun nextId now => do
      let prepared ← prepareResize manifest length nextId now
      return (prepared, prepared.nextId)
    prepared.writeOperations.forM fun operation => do
      let _ ← writeChunk operation.1 [] operation.2
    setManifest prepared.manifest cacheOnly prepared.removedIds

end Resize

/-- The part of the content that lies within the file. -/
def constrainedContent (manifest : LocalFileManifest) (content : Bytes) (offset : ℤ) : Bytes :=
  let endOffset := min (manifest.size : ℤ) (offset + content.length)
  content.take (max (endOffset - offset) 0).toNat

/-- `fd_write`, once there is something to write. -/
def writeContent (fd : FileDescriptor) (manifest : LocalFileManifest) (content : Bytes) (offset : ℕ) :
    Transaction ℕ := do
  let prepared ← drawing fun nextId now => do
    let prepared ← prepareWrite manifest content.length offset nextId now
    return (prepared, prepared.nextId)
  prepared.writeOperations.forM fun operation => do
    let written ← writeChunk operation.1 content operation.2
    update fun world => world.updateStorage fun storage => { storage with
      writeCount := Function.update storage.writeCount fd (storage.writeCount fd + written) }
  setManifest prepared.manifest true prepared.removedIds
  let writeCount ← observe fun world => world.storage.writeCount fd
  if prepared.manifest.blocksize ≤ writeCount then
    let _ ← manifestReshape prepared.manifest true
    update fun world => world.updateStorage fun storage => { storage with
      writeCount := Function.update storage.writeCount fd 0 }
  return content.length

def fdWrite (fd : FileDescriptor) (content : Bytes) (offset : ℤ) (constrained : Bool) :
    Transaction ℕ :=
  loadAndLockFile fd fun manifest =>
    let content := if constrained then constrainedContent manifest content offset else content
    if content = [] then pure 0
    else writeContent fd manifest content (normalizeArgument offset manifest)

def fdResize (fd : FileDescriptor) (length : ℕ) (truncateOnly : Bool) : Transaction Unit :=
  loadAndLockFile fd fun manifest =>
    if truncateOnly ∧ manifest.size ≤ length then pure ()
    else manifestResize manifest length true

/-- One attempt to read: the data, or what has to be downloaded before the next attempt. -/
def readAttempt (fd : FileDescriptor) (size offset : ℤ) (raiseEof : Bool) :
    Transaction ((ℕ × ℕ) × Bytes × List BlockAccess) :=
  loadAndLockFile fd fun manifest =>
    if raiseEof ∧ (manifest.size : ℤ) ≤ offset then .raise .endOfFile
    else
      let offset := normalizeArgument offset manifest
      let size := normalizeArgument size manifest
      if manifest.size < offset then pure ((size, offset), [], [])
      else do
        let built ← buildData (prepareRead manifest size offset)
        return ((size, offset), built)

/-- `fd_read`, which tries until nothing is missing; `none` if the attempts are used up. -/
def fdRead (fd : FileDescriptor) (size offset : ℤ) (raiseEof : Bool) :
    ℕ → List BlockAccess → Transaction (Option Bytes)
  | 0, _ => pure none
  | attempts + 1, missing => do
      loadBlocks missing
      let ((size, offset), data, missing) ← readAttempt fd size offset raiseEof
      if missing = [] then return some data
      else fdRead fd size offset raiseEof attempts missing

def fdFlush (fd : FileDescriptor) : Transaction Unit :=
  loadAndLockFile fd fun manifest => do
    let _ ← manifestReshape manifest false
    ensureManifestPersistent

def fdClose (fd : FileDescriptor) : Transaction Unit :=
  loadAndLockFile fd fun _ => do
    ensureManifestPersistent
    removeFileDescriptor fd
    update fun world => world.updateStorage fun storage => { storage with
      writeCount := Function.update storage.writeCount fd 0 }

end Transaction

end Guardata
