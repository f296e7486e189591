import Guardata.Model.FolderManifest

/-! # Synchronizing a folder between devices

`mergeManifests` and `synchronizationStep` as a device runs them on one folder or workspace, and
the system they make up: any number of devices, each with its own local manifest and pattern
filter, and a backend that accepts version `n + 1` on top of version `n` only. A manifest that a
step produced is uploaded later, outside of the entry lock, so it waits in `prepared` while edits
go on. Every call holds the entry lock and is atomic; a call that raises is no step.
-/

namespace Guardata

def DeviceID.toString (device : DeviceID) : String := device.userId ++ "@" ++ device.deviceName

/-- What a device keeps about the folder. -/
structure FolderDevice where
  manifest : Option LocalFolderishManifest := none
  patternFilter : Pattern := fun _ => false
  patternFilterFullyApplied : Bool := false
  /-- Manifests that are on their way to the backend. -/
  prepared : List RemoteFolderishManifest := []

/-- Start by re-applying the filter, if that is asked for. -/
def reapplyFilter (localManifest : LocalFolderishManifest) (patternFilter : Pattern)
    (forceFilter : Bool) (now : DateTime) : Except FolderError LocalFolderishManifest :=
  if forceFilter then localManifest.applyFilter patternFilter now else .ok localManifest

section Merge

variable (normalize : String → String)

/-- `merge_manifests` on a folder; `ids` is the order of the walk through the conflicting ids. -/
def mergeManifests (localAuthor : DeviceID) (patternFilter : Pattern)
    (localManifest : LocalFolderishManifest) (remoteManifest : Option RemoteFolderishManifest)
    (forceFilter : Bool) (ids : List EntryID) (now : DateTime) :
    Except FolderError LocalFolderishManifest := do
  let localManifest ← reapplyFilter localManifest patternFilter forceFilter now
  match remoteManifest with
  | none => return localManifest
  | some remoteManifest =>
      -- The remote hasn't changed
      if remoteManifest.version ≤ localManifest.baseVersion then return localManifest
      else
        let localFromRemote ←
          LocalFolderishManifest.fromRemote remoteManifest patternFilter (some localManifest) now
        -- Only the remote has changed
        if localManifest.needSync = false then return localFromRemote
        -- All the local changes have been successfully uploaded
        else if localManifest.matchRemote remoteManifest then return localFromRemote
        -- The remote changes are ours, simply acknowledge them and keep our local changes
        else if remoteManifest.author = localAuthor then
          return { localManifest with base := remoteManifest }
        -- Solve the folder conflict
        else
          let conflict : ConflictingChildren :=
            ⟨localManifest.base.children, localManifest.children, localFromRemote.children,
              remoteManifest.author.toString⟩
          let newChildren ← (mergeFolderChildren normalize conflict ids).mapError .invalidEntryName
          return { localFromRemote with children := newChildren, updated := now, needSync := true }

/-- `synchronization_step` on a folder: the new local manifest and what is to be uploaded, if
anything. A folder that is confined somewhere up its parent chain is left alone. -/
def synchronizationStep (localAuthor : DeviceID) (device : FolderDevice)
    (localManifest : LocalFolderishManifest) (confined : Bool)
    (remoteManifest : Option RemoteFolderishManifest) (final : Bool) (ids : List EntryID)
    (now : DateTime) :
    Except FolderError (LocalFolderishManifest × Option RemoteFolderishManifest) :=
  if confined then .ok (localManifest, none)
  else do
    let merged ← mergeManifests normalize localAuthor device.patternFilter localManifest
      remoteManifest (!device.patternFilterFullyApplied) ids now
    -- Set the new base manifest
    let newLocalManifest := if merged.Equal localManifest then localManifest else merged
    if final || !newLocalManifest.needSync then return (newLocalManifest, none)
    else return (newLocalManifest, some (newLocalManifest.toRemote localAuthor now))

/-- `get_minimal_remote_manifest`. -/
def getMinimalRemoteManifest (localAuthor : DeviceID) (localManifest : LocalFolderishManifest)
    (now : DateTime) : Option RemoteFolderishManifest :=
  if localManifest.isPlaceholder then
    some { localManifest.base with author := localAuthor, timestamp := now, version := 1 }
  else none

/-- The calls of a device on its copy of the folder, and its uploads. -/
inductive FolderCall where
  /-- Create the folder. -/
  | newPlaceholder (parent : Option EntryID)
  /-- Fetch a version of a folder that is not there locally. -/
  | loadManifest (version : ℕ)
  /-- Create, rename or delete children. -/
  | evolveChildren (data : Dict EntryName (Option EntryID))
  /-- Any pattern, together with the flag that the storage keeps about it. -/
  | setPatternFilter (patternFilter : Pattern) (fullyApplied : Bool)
  | applyFilter (patternFilter : Pattern)
  /-- With any version of the backend, or none, as the remote manifest. -/
  | synchronizationStep (confined : Bool) (remoteVersion : Option ℕ) (final : Bool) (ids : List EntryID)
  | minimalSync
  /-- Upload one of the prepared manifests, restamped unless it is a minimal one. -/
  | uploadManifest (index : ℕ) (restamp : Bool)

/-- The versions that the backend has accepted, oldest first, and the devices. -/
structure FolderSystem where
  entryId : EntryID
  versions : List RemoteFolderishManifest := []
  devices : DeviceID → FolderDevice := fun _ => {}

namespace FolderSystem

/-- The version with that number; the first one has number one. -/
def version? (system : FolderSystem) (version : ℕ) : Option RemoteFolderishManifest :=
  match version with
  | 0 => none
  | index + 1 => system.versions[index]?

/-- The remote manifest that a synchronization step is given. -/
def remoteManifest? (system : FolderSystem) :
    Option ℕ → Option (Option RemoteFolderishManifest)
  | none => some none
  | some version => (system.version? version).map some

def setDevice (system : FolderSystem) (author : DeviceID) (device : FolderDevice) : FolderSystem :=
  { system with devices := Function.update system.devices author device }

/-- One call of a device at a given time; it is no step when it raises or has nothing to act on. -/
def step? (system : FolderSystem) (event : DeviceID × DateTime × FolderCall) : Option FolderSystem :=
  let (author, now, call) := event
  let device := system.devices author
  match call, device.manifest with
  | .newPlaceholder parent, none =>
      some (system.setDevice author { device with
        manifest := some (.newPlaceholder author system.entryId parent now) })
  | .newPlaceholder _, some _ => none
  | .loadManifest version, none => do
      let remote ← system.version? version
      let manifest ← (LocalFolderishManifest.fromRemote remote device.patternFilter none now).toOption
      return system.setDevice author { device with manifest := some manifest }
  | .loadManifest _, some _ => none
  | .evolveChildren data, some manifest => do
      let manifest ←
        (manifest.evolveChildrenAndMarkUpdated data device.patternFilter now).toOption
      return system.setDevice author { device with manifest := some manifest }
  | .setPatternFilter patternFilter fullyApplied, _ =>
      some (system.setDevice author { device with
        patternFilter := patternFilter, patternFilterFullyApplied := fullyApplied })
  | .applyFilter patternFilter, some manifest => do
      let filtered ← (manifest.applyFilter patternFilter now).toOption
      return system.setDevice author { device with
        manifest := some (if filtered.Equal manifest then manifest else filtered) }
  | .synchronizationStep confined remoteVersion final ids, some manifest => do
      let remote ← system.remoteManifest? remoteVersion
      let (manifest, toUpload) ← (Guardata.synchronizationStep normalize author device manifest
        confined remote final ids now).toOption
      return system.setDevice author { device with
        manifest := some manifest, prepared := device.prepared ++ toUpload.toList }
  | .minimalSync, some manifest =>
      some (system.setDevice author { device with
        prepared := device.prepared ++ (getMinimalRemoteManifest author manifest now).toList })
  | .evolveChildren _, none | .applyFilter _, none | .synchronizationStep .., none
  | .minimalSync, none => none
  | .uploadManifest index restamp, _ => do
      let manifest ← device.prepared[index]?
      -- The backend refuses a version that does not follow its last one
      if manifest.version = system.versions.length + 1 then
        return { system with versions := system.versions ++
          [{ manifest with timestamp := if restamp then now else manifest.timestamp }] }
      else none

end FolderSystem

end Merge

end Guardata
