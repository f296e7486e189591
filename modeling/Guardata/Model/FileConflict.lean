import Guardata.Model.FolderSync
import Guardata.Model.WorkspaceTransactions

/-! # Resolving a file conflict

`file_conflict` on the manifests and chunks that a device stores: the local version of a file is registered
in the parent as a new child, and the remote version becomes the actual one. The chunks are copied before
the name of the new child is looked for. The call is played alone, so locks and events are left out; ids of
all kinds come from one supply.
-/

namespace Guardata

open Machine

/-- What a device stores about a workspace, with the data of its files. -/
structure DeviceStorage where
  manifests : EntryID → Option LocalEntryManifest
  /-- `_cache_ahead_of_localdb`: the chunks to be deleted when the manifest is next written to disk. -/
  aheadOfLocaldb : EntryID → Finset ChunkID := fun _ => ∅
  chunkStorage : ChunkID → Option Bytes := fun _ => none
  blockStorage : BlockID → Option Bytes := fun _ => none
  nextId : ℕ := 0

/-- The device, and how it normalizes names. -/
structure DeviceContext where
  localAuthor : DeviceID
  patternFilter : Pattern
  normalize : String → String
  now : DateTime

/-- Why `file_conflict` raises. -/
inductive ConflictError where
  | localMiss (id : UUID)
  /-- A file where a folder is expected, or the other way round. -/
  | attribute
  | file (error : FileError)
  | folder (error : FolderError)
deriving DecidableEq

abbrev ConflictCall := Coroutine ConflictError DeviceStorage

/-- `get_filename`. -/
def LocalFolderishManifest.getFilename (manifest : LocalFolderishManifest) (entryId : EntryID) :
    Option EntryName :=
  (manifest.children.items.find? fun entry => entry.2 = entryId).map Prod.fst

namespace DeviceStorage

/-- The data that is stored under an id. -/
def held (storage : DeviceStorage) (id : ChunkID) : Option Bytes :=
  (storage.chunkStorage id).or (storage.blockStorage id)

/-- `set_manifest`, which is written to disk at once. -/
def set (storage : DeviceStorage) (entryId : EntryID) (manifest : LocalEntryManifest) : DeviceStorage :=
  { storage with
    manifests := Function.update storage.manifests entryId (some manifest)
    aheadOfLocaldb := Function.update storage.aheadOfLocaldb entryId ∅
    chunkStorage := fun id =>
      if id ∈ storage.aheadOfLocaldb entryId then none else storage.chunkStorage id }

end DeviceStorage

namespace FileConflict

open Coroutine

section Storage

def getManifest (entryId : EntryID) : ConflictCall LocalEntryManifest :=
  observeOr fun storage => match storage.manifests entryId with
    | some manifest => .ok manifest
    | none => .error (.localMiss entryId)

def getFolder (entryId : EntryID) : ConflictCall LocalFolderishManifest := do
  match ← getManifest entryId with
  | .folder manifest => return manifest
  | .file _ => .raise .attribute

def getFile (entryId : EntryID) : ConflictCall LocalFileManifest := do
  match ← getManifest entryId with
  | .file manifest => return manifest
  | .folder _ => .raise .attribute

def setManifest (entryId : EntryID) (manifest : LocalEntryManifest) : ConflictCall Unit :=
  update fun storage => storage.set entryId manifest

def getChunk (id : ChunkID) : ConflictCall Bytes :=
  observeOr fun storage => match storage.held id with
    | some data => .ok data
    | none => .error (.localMiss id)

def setChunk (id : ChunkID) (data : Bytes) : ConflictCall Unit :=
  update fun storage => { storage with chunkStorage := Function.update storage.chunkStorage id (some data) }

/-- `ChunkID()`, `EntryID()` or `SecretKey.generate()`. -/
def drawId : ConflictCall UUID :=
  .atomic (fun storage => some { storage with nextId := storage.nextId + 1 })
    fun storage => pure storage.nextId

end Storage

section Copy

/-- One round of the inner loop over the chunks of a block. -/
def copyChunk (count : ℕ) (newChunks : List Chunk) (chunk : Chunk) : ConflictCall (List Chunk) := do
  let data ← getChunk chunk.id
  let id ← drawId
  let newChunk ← .ofExcept ((Chunk.new id chunk.start chunk.stop).mapError .file)
  setChunk newChunk.id data
  if count = 1 then
    let key ← drawId
    let _ ← .ofExcept ((newChunk.evolveAsBlock ⟨key⟩ data).mapError .file)
  -- The source appends `chunk`, not `new_chunk`
  return newChunks ++ [chunk]

/-- One round of the outer loop. -/
def copyBlock (newBlocks : List (List Chunk)) (chunks : List Chunk) : ConflictCall (List (List Chunk)) := do
  let newChunks ← chunks.foldlM (copyChunk chunks.length) []
  return newBlocks ++ [newChunks]

end Copy

variable (device : DeviceContext)

/-- The rest of `file_conflict`, once there is a name for the new child. -/
def registerConflict (entryId parentId : EntryID) (parent : LocalFolderishManifest)
    (current : LocalFileManifest) (newBlocks : List (List Chunk)) (newName : EntryName)
    (remote : RemoteFileManifest) : ConflictCall Unit := do
  let newId ← drawId
  let newManifest : LocalFileManifest :=
    { LocalFileManifest.newPlaceholder device.localAuthor parentId newId device.now defaultBlockSize with
      size := current.size, blocks := newBlocks }
  let newParent ← .ofExcept ((parent.evolveChildrenAndMarkUpdated
    ((∅ : Dict EntryName (Option EntryID)).insert newName (some newId)) device.patternFilter
      device.now).mapError .folder)
  setManifest newId (.file newManifest)
  setManifest parentId (.folder newParent)
  setManifest entryId (.file (.fromRemote remote))

/-- `file_conflict`; `none` if the search for a name takes more rounds than given. -/
def fileConflict (rounds : ℕ) (entryId : EntryID) (localManifest : LocalFileManifest)
    (remote : RemoteFileManifest) : ConflictCall (Option Unit) := do
  let parentId := localManifest.base.parent
  let parent ← getFolder parentId
  let current ← getFile entryId
  -- Make sure the file still exists
  match parent.getFilename entryId with
  | none => return some ()
  | some filename =>
      let newBlocks ← current.blocks.foldlM copyBlock []
      match getConflictFilename device.normalize filename parent.children.keys remote.author.toString
        rounds with
      | none => return none
      | some outcome =>
          let newName ← .ofExcept (outcome.mapError fun refused => .folder (.invalidEntryName refused))
          registerConflict device entryId parentId parent current newBlocks newName remote
          return some ()

end FileConflict

end Guardata
