import Guardata.Model.FolderMerge

/-! # Chunks and file manifests

A local file is a list of blocks, each of them a list of chunks. The raw data of a chunk is found
under its id in the chunk storage and lies at `rawOffset` in the file; the chunk shows the part of
it between `start` and `stop`. A chunk that shows all of its data and has an access is a block,
and a file whose blocks are all of that kind is reshaped: it can be uploaded.

The ids of new chunks and the keys of new accesses are arguments. A digest stands for the data it
was taken from.
-/

namespace Guardata

abbrev ChunkID := UUID
abbrev BlockID := UUID
abbrev FileDescriptor := ℕ

/-- What a call on a file can raise. -/
inductive FileError where
  | assertion
  | index
  | type
  | crypto
  | localMiss (id : UUID)
  | invalidFileDescriptor (fd : FileDescriptor)
  | endOfFile
  | remoteBlockNotFound (id : BlockID)
  | remoteManifestNotFound
  | remoteSync
  | reshapingRequired
  | fileConflict
deriving DecidableEq, Repr

structure HashDigest where
  ofData : Bytes
deriving DecidableEq, Repr

def HashDigest.fromData (data : Bytes) : HashDigest := ⟨data⟩

structure BlockAccess where
  id : BlockID
  key : SecretKey
  offset : ℕ
  size : ℕ
  digest : HashDigest
deriving DecidableEq, Repr

structure Chunk where
  id : ChunkID
  start : ℕ
  stop : ℕ
  rawOffset : ℕ
  rawSize : ℕ
  access : Option BlockAccess
deriving DecidableEq, Repr

namespace Chunk

/-- Left and right aligned with its raw data. -/
def isPseudoBlock (chunk : Chunk) : Bool :=
  chunk.start = chunk.rawOffset ∧ chunk.stop = chunk.rawOffset + chunk.rawSize

def isBlock (chunk : Chunk) : Bool :=
  match chunk.access with
  | none => false
  | some access =>
      chunk.isPseudoBlock ∧ chunk.rawOffset = access.offset ∧ chunk.rawSize = access.size

def new (id : ChunkID) (start stop : ℕ) : Except FileError Chunk := do
  .require (start < stop) .assertion
  return ⟨id, start, stop, start, stop - start, none⟩

def fromBlockAccess (access : BlockAccess) : Chunk where
  id := access.id
  start := access.offset
  stop := access.offset + access.size
  rawOffset := access.offset
  rawSize := access.size
  access := some access

def evolveAsBlock (chunk : Chunk) (key : SecretKey) (data : Bytes) : Except FileError Chunk :=
  if chunk.isBlock then .ok chunk
  else do
    .require (chunk.rawOffset = chunk.start) .type
    return { chunk with
      access := some ⟨chunk.id, key, chunk.start, chunk.stop - chunk.start, .fromData data⟩ }

def getBlockAccess (chunk : Chunk) : Except FileError (Option BlockAccess) := do
  .require chunk.isBlock .type
  return chunk.access

end Chunk

structure RemoteFileManifest where
  author : DeviceID
  timestamp : DateTime
  id : EntryID
  parent : EntryID
  version : ℕ
  created : DateTime
  updated : DateTime
  size : ℕ
  blocksize : ℕ
  blocks : List BlockAccess
deriving DecidableEq, Repr

structure LocalFileManifest where
  base : RemoteFileManifest
  needSync : Bool
  updated : DateTime
  size : ℕ
  blocksize : ℕ
  blocks : List (List Chunk)
deriving DecidableEq, Repr

namespace LocalFileManifest

def newPlaceholder (author : DeviceID) (parent id : EntryID) (now : DateTime) (blocksize : ℕ) :
    LocalFileManifest where
  base := ⟨author, now, id, parent, 0, now, now, 0, blocksize, []⟩
  needSync := true
  updated := now
  size := 0
  blocksize := blocksize
  blocks := []

def baseVersion (manifest : LocalFileManifest) : ℕ := manifest.base.version

/-- The chunks of a block, none beyond the last one. -/
def getChunks (manifest : LocalFileManifest) (block : ℕ) : List Chunk :=
  manifest.blocks[block]?.getD []

def isReshaped (manifest : LocalFileManifest) : Bool :=
  manifest.blocks.all fun chunks =>
    match chunks with
    | [chunk] => chunk.isBlock
    | _ => false

/-- `assert_integrity` on the chunks of one block, from where the block starts to where it stops. -/
def assertChunks (current : ℕ) (chunks : List Chunk) : Except FileError ℕ :=
  chunks.foldlM (fun current chunk => do
    .require (chunk.start = current) .assertion
    .require (chunk.start < chunk.stop) .assertion
    .require (chunk.rawOffset ≤ chunk.start) .assertion
    .require (chunk.stop ≤ chunk.rawOffset + chunk.rawSize) .assertion
    return chunk.stop) current

/-- `assert_integrity`: the blocks and chunks follow each other without a gap up to the size. -/
def assertIntegrity (manifest : LocalFileManifest) : Except FileError Unit := do
  let current ← manifest.blocks.zipIdx.foldlM (fun current block => do
    .require (block.2 * manifest.blocksize = current) .assertion
    .require (0 < block.1.length) .assertion
    assertChunks current block.1) 0
  .require (current = manifest.size) .assertion

def fromRemote (remote : RemoteFileManifest) : LocalFileManifest where
  base := remote
  needSync := false
  updated := remote.updated
  size := remote.size
  blocksize := remote.blocksize
  blocks := remote.blocks.map fun access => [Chunk.fromBlockAccess access]

/-- The access of the single chunk of a reshaped block. -/
def blockAccess (chunks : List Chunk) : Except FileError BlockAccess :=
  match chunks with
  | [] => .error .index
  | chunk :: _ => do
      match ← chunk.getBlockAccess with
      | some access => return access
      | none => .error .type

def toRemote (manifest : LocalFileManifest) (author : DeviceID) (timestamp : DateTime) :
    Except FileError RemoteFileManifest := do
  manifest.assertIntegrity
  .require manifest.isReshaped .assertion
  let blocks ← manifest.blocks.mapM blockAccess
  return {
    author, timestamp, blocks
    id := manifest.base.id
    parent := manifest.base.parent
    version := manifest.baseVersion + 1
    created := manifest.base.created
    updated := manifest.updated
    size := manifest.size
    blocksize := manifest.blocksize }

def matchRemote (manifest : LocalFileManifest) (remote : RemoteFileManifest) :
    Except FileError Bool :=
  if manifest.isReshaped then do
    let reference ← manifest.toRemote remote.author remote.timestamp
    return decide ({ reference with version := remote.version } = remote)
  else .ok false

/-- `evolve_and_mark_updated` with a new size and new blocks. -/
def evolveAndMarkUpdated (manifest : LocalFileManifest) (size : ℕ) (blocks : List (List Chunk))
    (now : DateTime) : LocalFileManifest :=
  { manifest with size := size, blocks := blocks, updated := now, needSync := true }

end LocalFileManifest

end Guardata
