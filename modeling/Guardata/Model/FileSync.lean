import Guardata.Model.FileTransactions

/-! # Synchronization of a file

`_sync_by_id` of a file and the calls on its descriptors, as tasks of one device that take turns at every
`await`. What a task does with the entry lock held is a transaction. Between two of them a `_sync_by_id` is
at a stage; the manifest that it is about to upload was computed under the lock, its blocks are looked up
and uploaded without.

Whether the file is confined is decided by its parents, so that each synchronization step is told. A request
that fails otherwise than with `FSRemoteSyncError` ends the task that made it: `abandon` does that between
any two requests.
-/

namespace Guardata

open Machine

/-- `merge_manifests` of a file. -/
def mergeFileManifests (localAuthor : DeviceID) (manifest : LocalFileManifest)
    (remote : Option RemoteFileManifest) : Except FileError LocalFileManifest :=
  match remote with
  | none => .ok manifest
  | some remote =>
      if remote.version ≤ manifest.baseVersion then .ok manifest
      else if ¬manifest.needSync then .ok (.fromRemote remote)
      else (manifest.matchRemote remote).bind fun uploaded =>
        if uploaded then .ok (.fromRemote remote)
        else if remote.author = localAuthor then .ok { manifest with base := remote }
        else .error .fileConflict

namespace Transaction

open Coroutine

def getManifest : Transaction LocalFileManifest := observe fun world => world.storage.manifest

/-- The part of `synchronization_step` that reshapes the file without downloading anything. -/
def quickReshape (manifest : LocalFileManifest) (final : Bool) : Transaction LocalFileManifest :=
  if final ∨ manifest.isReshaped then pure manifest
  else do
    let missing ← manifestReshape manifest false
    if missing ≠ [] then .raise .reshapingRequired
    else
      let manifest ← getManifest
      .ofExcept (.require manifest.isReshaped .assertion)
      return manifest

/-- The rest of `synchronization_step`: the manifest to upload, if any. -/
def mergeStep (localAuthor : DeviceID) (manifest : LocalFileManifest)
    (remote : Option RemoteFileManifest) (final : Bool) : Transaction (Option RemoteFileManifest) := do
  let newManifest ← .ofExcept (mergeFileManifests localAuthor manifest remote)
  if newManifest ≠ manifest then setManifest newManifest false
  if final ∨ ¬newManifest.needSync then return none
  else
    let now ← observe fun world => world.clock
    let toUpload ← .ofExcept (newManifest.toRemote localAuthor now)
    return some toUpload

def synchronizationStep (localAuthor : DeviceID) (confined : Bool) (remote : Option RemoteFileManifest)
    (final : Bool) : Transaction (Option RemoteFileManifest) :=
  lockEntry do
    let manifest ← getManifest
    if confined then return none
    else
      let manifest ← quickReshape manifest final
      mergeStep localAuthor manifest remote final

/-- One round of the loop of `file_reshape`, up to the download. -/
def fileReshape : Transaction (List BlockAccess) :=
  lockEntry do
    let manifest ← getManifest
    manifestReshape manifest false

/-- `file_reshape`, for at most as many rounds as given. -/
def fileReshapeRounds : ℕ → Transaction (Option Unit)
  | 0 => return none
  | rounds + 1 => do
      let missing ← fileReshape
      if missing = [] then return some ()
      else
        loadBlocks missing
        fileReshapeRounds rounds

/-- `block_create`; that the block exists already is no error. -/
def blockCreate (id : BlockID) (ciphered : Ciphered Bytes) : Transaction Unit :=
  update fun world => { world with
    backend := { world.backend with
      blocks := Function.update world.backend.blocks id (some ((world.backend.blocks id).getD ciphered)) } }

def uploadBlock (access : BlockAccess) (data : Bytes) : Transaction Unit := do
  blockCreate access.id ⟨access.key, data⟩
  setCleanBlock access.id data
  clearChunk access.id

/-- One round of the loop of `_upload_blocks`. -/
def uploadDirtyBlock (access : BlockAccess) : Transaction Unit := do
  match ← (getDirtyBlock access.id).attempt with
  | .ok data => uploadBlock access data
  | .error _ => return ()

def uploadBlocks (accesses : List BlockAccess) : Transaction Unit := accesses.forM uploadDirtyBlock

end Transaction

/-- Where a `_sync_by_id` is. What it waits for, or the transaction that it is in the middle of. -/
inductive SyncStage where
  | loading
  | stepping (remote : Option RemoteFileManifest) (final : Bool)
      (rest : Transaction (Option RemoteFileManifest))
  | reshaping (remote : Option RemoteFileManifest) (final : Bool) (rest : Transaction (List BlockAccess))
  | downloading (remote : Option RemoteFileManifest) (final : Bool) (rest : Transaction Unit)
  | uploading (manifest : RemoteFileManifest) (rest : Transaction Unit)
  | publishing (manifest : RemoteFileManifest)
  | reloading

inductive FileTask where
  | call (rest : Transaction Unit)
  | sync (stage : SyncStage)

/-- A call on a file descriptor that may change the file. -/
inductive DescriptorCall where
  | write (fd : FileDescriptor) (content : Bytes) (offset : ℤ) (constrained : Bool)
  | resize (fd : FileDescriptor) (length : ℕ) (truncateOnly : Bool)
  | flush (fd : FileDescriptor)
  | close (fd : FileDescriptor)
deriving DecidableEq

def DescriptorCall.transaction : DescriptorCall → Transaction Unit
  | write fd content offset constrained => do
      let _ ← Transaction.fdWrite fd content offset constrained
  | resize fd length truncateOnly => Transaction.fdResize fd length truncateOnly
  | flush fd => Transaction.fdFlush fd
  | close fd => Transaction.fdClose fd

namespace SyncStage

variable (localAuthor : DeviceID)

/-- The beginning of a round of the loop of `_sync_by_id`. -/
def beginStep (confined : Bool) (remote : Option RemoteFileManifest) (final : Bool) : SyncStage :=
  .stepping remote final (Transaction.synchronizationStep localAuthor confined remote final)

/-- The manifest is restamped before it is uploaded. -/
def beginPublish (world : World) (manifest : RemoteFileManifest) : SyncStage :=
  .publishing { manifest with timestamp := world.clock }

/-- `_upload_blocks` has got to here. -/
def goOnUploading (world : World) (manifest : RemoteFileManifest) : Transaction Unit → Option SyncStage
  | .ret _ => some (beginPublish world manifest)
  | .raise _ => none
  | rest => some (.uploading manifest rest)

/-- A synchronization step has got to here. -/
def goOnStepping (world : World) (remote : Option RemoteFileManifest) (final : Bool) :
    Transaction (Option RemoteFileManifest) → Option SyncStage
  | .ret none => none
  | .ret (some manifest) => goOnUploading world manifest (Transaction.uploadBlocks manifest.blocks)
  | .raise .reshapingRequired => some (.reshaping remote final Transaction.fileReshape)
  | .raise _ => none
  | rest => some (.stepping remote final rest)

/-- The download of missing blocks has got to here. -/
def goOnDownloading (remote : Option RemoteFileManifest) (final : Bool) :
    Transaction Unit → Option SyncStage
  | .ret _ => some (.reshaping remote final Transaction.fileReshape)
  | .raise _ => none
  | rest => some (.downloading remote final rest)

/-- A reshape has got to here. -/
def goOnReshaping (confined : Bool) (remote : Option RemoteFileManifest) (final : Bool) :
    Transaction (List BlockAccess) → Option SyncStage
  | .ret [] => some (beginStep localAuthor confined remote final)
  | .ret missing => goOnDownloading remote final (Transaction.loadBlocks missing)
  | .raise _ => none
  | rest => some (.reshaping remote final rest)

end SyncStage

/-- `vlob_create` or `vlob_update` of a manifest, by the next version number. -/
def Backend.accepts (backend : Backend) (manifest : RemoteFileManifest) : Bool :=
  manifest.version = backend.versions.length + 1

/-- A device with its tasks. -/
structure FileSync where
  world : World
  tasks : ℕ → Option FileTask := fun _ => none

inductive FileSyncEvent where
  | call (task : ℕ) (call : DescriptorCall)
  | syncById (task : ℕ) (remoteChanged confined : Bool)
  /-- The next action of a task. A synchronization step that begins with it finds the file confined or
  not. -/
  | proceed (task : ℕ) (confined : Bool)
  | abandon (task : ℕ)
  | tick (now : DateTime)

namespace FileSync

variable (localAuthor : DeviceID) (system : FileSync)

def setTask (task : ℕ) (world : World) (progress : Option FileTask) : FileSync :=
  ⟨world, Function.update system.tasks task progress⟩

def setStage (task : ℕ) (world : World) (stage : Option SyncStage) : FileSync :=
  system.setTask task world (stage.map .sync)

/-- The manifest is uploaded, or refused because there is such a version already. A manifest that is dated
before the last version ends the task. -/
def publish (task : ℕ) (confined : Bool) (manifest : RemoteFileManifest) : FileSync :=
  let backend := system.world.backend
  if ¬backend.accepts manifest then system.setStage task system.world (some .reloading)
  else if backend.versions.getLast?.any (manifest.timestamp < ·.timestamp) then
    system.setStage task system.world none
  else
    system.setStage task
      { system.world with backend := { backend with versions := backend.versions ++ [manifest] } }
      (some (.beginStep localAuthor confined (some manifest) true))

/-- The next action of a `_sync_by_id`. -/
def proceedSync (task : ℕ) (confined : Bool) : SyncStage → Option FileSync
  | .loading => some (system.setStage task system.world
      (some (.beginStep localAuthor confined system.world.backend.versions.getLast? false)))
  | .stepping remote final rest => do
      let (rest, world) ← rest.advance system.world
      return system.setStage task world (SyncStage.goOnStepping world remote final rest)
  | .reshaping remote final rest => do
      let (rest, world) ← rest.advance system.world
      return system.setStage task world (SyncStage.goOnReshaping localAuthor confined remote final rest)
  | .downloading remote final rest => do
      let (rest, world) ← rest.advance system.world
      return system.setStage task world (SyncStage.goOnDownloading remote final rest)
  | .uploading manifest rest => do
      let (rest, world) ← rest.advance system.world
      return system.setStage task world (SyncStage.goOnUploading world manifest rest)
  | .publishing manifest => some (system.publish localAuthor task confined manifest)
  | .reloading => do
      let remote ← system.world.backend.versions.getLast?
      return system.setStage task system.world (some (.beginStep localAuthor confined (some remote) false))

/-- What is left of a call. -/
def callProgress : Transaction Unit → Option FileTask
  | .ret _ => none
  | .raise _ => none
  | rest => some (.call rest)

/-- A stage at which the task holds no lock. -/
def abandonable : FileTask → Bool
  | .sync .loading | .sync (.downloading ..) | .sync (.uploading ..) | .sync (.publishing _)
  | .sync .reloading => true
  | _ => false

def step? : FileSyncEvent → Option FileSync
  | .call task call =>
      if (system.tasks task).isSome then none
      else some (system.setTask task system.world (callProgress call.transaction))
  | .syncById task remoteChanged confined =>
      if (system.tasks task).isSome then none
      else some (system.setStage task system.world (some
        (if remoteChanged then .loading else .beginStep localAuthor confined none false)))
  | .proceed task confined =>
      match system.tasks task with
      | none => none
      | some (.call rest) => do
          let (rest, world) ← rest.advance system.world
          return system.setTask task world (callProgress rest)
      | some (.sync stage) => system.proceedSync localAuthor task confined stage
  | .abandon task =>
      if (system.tasks task).any abandonable then some (system.setTask task system.world none) else none
  | .tick now => some { system with world := { system.world with clock := now } }

end FileSync

end Guardata
