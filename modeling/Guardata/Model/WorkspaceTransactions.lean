import Guardata.Machine.Coroutine
import Guardata.Model.EntryTransactions
import Guardata.Model.FileManifest
import Guardata.Model.RemoteLoader

/-! # Transactions on the entries of a workspace

The calls on paths, over the manifests that a device stores. A manifest that is missing on the way is
asked from the remote loader and stored; the calls then change the manifest of the parent folder as
`EntryTransactions` says. What the remote loader answers is a parameter; it checks that a manifest has the
id that it was asked for. A call is played alone: locks and events are left out.
-/

namespace Guardata

open Machine

/-- The names of an absolute path. -/
abbrev FsPath := List EntryName

namespace FsPath

/-- `FsPath.name`; the root has none. -/
def name (path : FsPath) : EntryName := path.getLastD ""

def parent (path : FsPath) : FsPath := path.dropLast

end FsPath

/-- A verified manifest of the backend. -/
inductive RemoteEntryManifest where
  | file (manifest : RemoteFileManifest)
  | folder (manifest : RemoteFolderishManifest)
deriving DecidableEq

def RemoteEntryManifest.id : RemoteEntryManifest → EntryID
  | file manifest => manifest.id
  | folder manifest => manifest.id

/-- A manifest in the local storage. -/
inductive LocalEntryManifest where
  | file (manifest : LocalFileManifest)
  | folder (manifest : LocalFolderishManifest)

namespace LocalEntryManifest

def id : LocalEntryManifest → EntryID
  | file manifest => manifest.base.id
  | folder manifest => manifest.base.id

/-- `BaseLocalManifest.from_remote`, without a local manifest. -/
def fromRemote (patternFilter : Pattern) : RemoteEntryManifest → LocalEntryManifest
  | .file remote => file (.fromRemote remote)
  | .folder remote => folder <| LocalFolderishManifest.filterRemoteEntries
      { base := remote, needSync := false, updated := remote.updated, children := remote.children }
      patternFilter

/-- What a transaction on the parent reads of a child. -/
def kind : LocalEntryManifest → ChildKind
  | file _ => .file
  | folder manifest => .folder (!manifest.children.items.isEmpty)

end LocalEntryManifest

theorem LocalEntryManifest.fromRemote_id (patternFilter : Pattern) (remote : RemoteEntryManifest) :
    (fromRemote patternFilter remote).id = remote.id := by
  cases remote with
  | file remote => rfl
  | folder remote =>
    simp only [fromRemote, LocalFolderishManifest.filterRemoteEntries]
    split <;> rfl

/-- `DEFAULT_BLOCK_SIZE`. -/
def defaultBlockSize : ℕ := 4096 * 1024

/-- Why a call on a path raises. -/
inductive TransactionError where
  | noAccess (path : FsPath)
  | readOnly (path : FsPath)
  | permission (path : FsPath)
  | crossDevice (source destination : FsPath)
  | notADirectory (path : FsPath)
  | fileNotFound (path : FsPath)
  | fileExists (path : FsPath)
  | isADirectory (path : FsPath)
  | directoryNotEmpty (path : FsPath)
  | localMiss (id : EntryID)
  | remote (error : FSError)
  | manifest (error : FolderError)
deriving DecidableEq

/-- The errors on a child, with the path of its parent. -/
def TransactionError.ofEntry (parent : FsPath) : EntryError → TransactionError
  | .fileNotFound name => fileNotFound (parent ++ [name])
  | .fileExists name => fileExists (parent ++ [name])
  | .isADirectory name => isADirectory (parent ++ [name])
  | .notADirectory name => notADirectory (parent ++ [name])
  | .directoryNotEmpty name => directoryNotEmpty (parent ++ [name])
  | .manifest error => manifest error

/-- What a device stores about a workspace. Every manifest is stored under its own id. -/
structure WorkspaceStorage where
  manifests : EntryID → Option LocalEntryManifest
  keyed : ∀ id manifest, manifests id = some manifest → manifest.id = id
  openFds : FileDescriptor → Option EntryID := fun _ => none
  fdCounter : ℕ := 0
  nextId : EntryID := 0

/-- The device, and what it asks the backend for. -/
structure Workspace where
  workspaceId : EntryID
  localAuthor : DeviceID
  role : Option RealmRole
  patternFilter : Pattern
  now : DateTime
  loadManifest : (id : EntryID) → Except FSError { remote : RemoteEntryManifest // remote.id = id }

abbrev WorkspaceCall := Coroutine TransactionError WorkspaceStorage

/-- `set_manifest`, under the id of the manifest. -/
def WorkspaceStorage.set (storage : WorkspaceStorage) (manifest : LocalEntryManifest) :
    WorkspaceStorage :=
  { storage with
    manifests := Function.update storage.manifests manifest.id (some manifest)
    keyed := by
      intro id other found
      by_cases same : id = manifest.id
      · subst same
        rw [Function.update_self] at found
        cases found
        rfl
      · rw [Function.update_of_ne same] at found
        exact storage.keyed id other found }

namespace Workspace

open Coroutine

variable (workspace : Workspace)

section Storage

def getManifest (id : EntryID) : WorkspaceCall LocalEntryManifest :=
  observeOr fun storage => match storage.manifests id with
    | some manifest => .ok manifest
    | none => .error (.localMiss id)

def setManifest (manifest : LocalEntryManifest) : WorkspaceCall Unit :=
  update fun storage => storage.set manifest

/-- `EntryID()`. -/
def newEntryId : WorkspaceCall EntryID :=
  .atomic (fun storage => some { storage with nextId := storage.nextId + 1 })
    fun storage => pure storage.nextId

def createFileDescriptor (id : EntryID) : WorkspaceCall FileDescriptor :=
  .atomic
    (fun storage => some { storage with
      fdCounter := storage.fdCounter + 1
      openFds := Function.update storage.openFds (storage.fdCounter + 1) (some id) })
    fun storage => pure (storage.fdCounter + 1)

end Storage

section Rights

def checkReadRights (path : FsPath) : WorkspaceCall Unit :=
  .ofExcept (.require workspace.role.isSome (.noAccess path))

def checkWriteRights (path : FsPath) : WorkspaceCall Unit := do
  workspace.checkReadRights path
  .ofExcept (.require (workspace.role ∈ canWriteRoles) (.readOnly path))

end Rights

section Lookup

/-- What the remote loader answers, as a local manifest. -/
def remoteManifest (id : EntryID) : WorkspaceCall LocalEntryManifest :=
  .ofExcept <| match workspace.loadManifest id with
    | .ok remote => .ok (.fromRemote workspace.patternFilter remote.1)
    | .error error => .error (.remote error)

/-- `_get_manifest`. -/
def fetchManifest (id : EntryID) : WorkspaceCall LocalEntryManifest := do
  match ← (getManifest id).attempt with
  | .ok manifest => return manifest
  | .error _ => workspace.remoteManifest id

/-- `_load_manifest`. -/
def loadLocalManifest (id : EntryID) : WorkspaceCall LocalEntryManifest := do
  match ← (getManifest id).attempt with
  | .ok manifest => return manifest
  | .error _ =>
      let manifest ← workspace.remoteManifest id
      setManifest manifest
      return manifest

/-- One name of a path. -/
def followName (path : FsPath) (found : EntryID × Bool) (name : EntryName) :
    WorkspaceCall (EntryID × Bool) := do
  match ← workspace.loadLocalManifest found.1 with
  | .file _ => .raise (.notADirectory path)
  | .folder manifest =>
      match manifest.children.get? name with
      | none => .raise (.fileNotFound path)
      | some entryId => return (entryId, found.2 || decide (entryId ∈ manifest.confinedEntries))

def entryIdFromPath (path : FsPath) : WorkspaceCall (EntryID × Bool) :=
  path.foldlM (workspace.followName path) (workspace.workspaceId, false)

def getManifestFromPath (path : FsPath) : WorkspaceCall (LocalEntryManifest × Bool) := do
  let (entryId, confined) ← workspace.entryIdFromPath path
  let manifest ← workspace.loadLocalManifest entryId
  return (manifest, confined)

/-- `_lock_parent_manifest_from_path`, which tries until the child, if there is one, is stored as well;
`none` if the attempts are used up. -/
def lockParentManifestFromPath {α : Type} (path : FsPath)
    (body : LocalFolderishManifest → Option LocalEntryManifest → WorkspaceCall α) :
    ℕ → WorkspaceCall (Option α)
  | 0 => pure none
  | attempts + 1 =>
      -- Source is root
      if path = [] then .raise (.permission path)
      else do
        let (manifest, _) ← workspace.getManifestFromPath path.parent
        match manifest with
        | .file _ => .raise (.notADirectory path.parent)
        | .folder parent =>
            match parent.children.get? path.name with
            | none =>
                let value ← body parent none
                return some value
            | some entryId =>
                match ← (getManifest entryId).attempt with
                | .ok child =>
                    let value ← body parent (some child)
                    return some value
                | .error _ =>
                    -- Child is not available
                    let _ ← workspace.loadLocalManifest entryId
                    lockParentManifestFromPath path body attempts

end Lookup

section Transactions

variable (attempts : ℕ)

/-- A computation on the manifest of the parent. -/
def ofEntry {α : Type} (path : FsPath) (result : Except EntryError α) : WorkspaceCall α :=
  .ofExcept (result.mapError (TransactionError.ofEntry path.parent))

/-- What the checks of a rename read of the entries. The source is only looked at if it is to
overwrite something. -/
def renamedKinds (parent : LocalFolderishManifest) (child : Option LocalEntryManifest)
    (source destination : EntryName) (overwrite : Bool) : WorkspaceCall (EntryID → ChildKind) :=
  match parent.children.get? source, child with
  | some sourceEntryId, some child =>
      if source ≠ destination ∧ overwrite then do
        let manifest ← workspace.fetchManifest sourceEntryId
        return fun id => if id = sourceEntryId then manifest.kind else child.kind
      else return fun _ => child.kind
  | _, _ => return fun _ => .file

/-- `entry_rename`, once the parent is locked. -/
def renameChild (source destination : FsPath) (overwrite : Bool) (parent : LocalFolderishManifest)
    (child : Option LocalEntryManifest) : WorkspaceCall (Option EntryID) := do
  let kindOf ← workspace.renamedKinds parent child source.name destination.name overwrite
  let newParent ← ofEntry destination <| EntryTransactions.entryRename kindOf parent
    workspace.patternFilter workspace.now source.name destination.name overwrite
  -- Source and destination are the same
  if source.name = destination.name then return none
  else
    setManifest (.folder newParent)
    return parent.children.get? source.name

/-- Pre-fetch the source if necessary. -/
def prefetchSource (source : FsPath) (overwrite : Bool) : WorkspaceCall Unit := do
  if overwrite then
    let _ ← workspace.getManifestFromPath source

def entryRename (source destination : FsPath) (overwrite : Bool) :
    WorkspaceCall (Option (Option EntryID)) := do
  workspace.checkWriteRights source
  if source = [] then .raise (.permission source)
  else if destination = [] then .raise (.permission destination)
  else if source.parent ≠ destination.parent then .raise (.crossDevice source destination)
  else
    workspace.prefetchSource source overwrite
    workspace.lockParentManifestFromPath destination
      (workspace.renameChild source destination overwrite) attempts

/-- `folder_delete` and `file_delete`, by their checks. -/
def entryDelete (path : FsPath)
    (delete : (EntryID → ChildKind) → LocalFolderishManifest → Pattern → DateTime → EntryName →
      Except EntryError LocalFolderishManifest) : WorkspaceCall (Option (Option EntryID)) := do
  workspace.checkWriteRights path
  workspace.lockParentManifestFromPath path (fun parent child => do
    let kindOf : EntryID → ChildKind := fun _ => (child.map LocalEntryManifest.kind).getD .file
    let newParent ← ofEntry path <|
      delete kindOf parent workspace.patternFilter workspace.now path.name
    setManifest (.folder newParent)
    return child.map LocalEntryManifest.id) attempts

def folderDelete (path : FsPath) : WorkspaceCall (Option (Option EntryID)) :=
  workspace.entryDelete attempts path EntryTransactions.folderDelete

def fileDelete (path : FsPath) : WorkspaceCall (Option (Option EntryID)) :=
  workspace.entryDelete attempts path EntryTransactions.fileDelete

/-- `folder_create` and `file_create`, by what they create and what they do with it. -/
def entryCreate {α : Type} (path : FsPath) (newPlaceholder : EntryID → EntryID → LocalEntryManifest)
    (finish : EntryID → WorkspaceCall α) : WorkspaceCall (Option α) := do
  workspace.checkWriteRights path
  workspace.lockParentManifestFromPath path (fun parent child =>
    if child.isSome then .raise (.fileExists path)
    else do
      let childId ← newEntryId
      let newParent ← ofEntry path <| EntryTransactions.entryCreate parent workspace.patternFilter
        workspace.now path.name childId
      setManifest (newPlaceholder parent.base.id childId)
      setManifest (.folder newParent)
      finish childId) attempts

def folderCreate (path : FsPath) : WorkspaceCall (Option EntryID) :=
  workspace.entryCreate attempts path
    (fun parent id => .folder (.newPlaceholder workspace.localAuthor id (some parent) workspace.now)) pure

def fileCreate (path : FsPath) (openFile : Bool) : WorkspaceCall (Option (EntryID × Option FileDescriptor)) :=
  workspace.entryCreate attempts path
    (fun parent id => .file (.newPlaceholder workspace.localAuthor parent id workspace.now defaultBlockSize))
    fun id => do
      if openFile then
        let fd ← createFileDescriptor id
        return (id, some fd)
      else return (id, none)

end Transactions

end Workspace

end Guardata
