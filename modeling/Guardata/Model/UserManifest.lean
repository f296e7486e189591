import Mathlib.Data.Finset.Dedup
import Mathlib.Data.List.Sort
import Guardata.Model.FolderMerge
import Guardata.Model.RemoteLoader

/-! # User manifests

A user keeps the list of their workspaces, with keys, names and roles, in a manifest that all their
devices share. The merge of a received version with local changes, the calls that make local
changes, and the system of several devices of one user with the versions that the backend has
accepted. The lock of a device makes each change atomic; what is fetched or on its way to the backend
waits while other calls go on. Dates, new ids and new keys are arguments.
-/

namespace Guardata

/-- `WorkspaceEntry` as the user manifest keeps it. -/
structure UserWorkspaceEntry extends WorkspaceEntry where
  name : EntryName
  id : EntryID
  encryptedOn : DateTime
  roleCachedOn : DateTime
  role : Option RealmRole
deriving DecidableEq, Repr

def UserWorkspaceEntry.new (name : EntryName) (id : EntryID) (key : SecretKey) (now : DateTime) :
    UserWorkspaceEntry where
  name := name
  id := id
  key := key
  encryptionRevision := 1
  encryptedOn := now
  roleCachedOn := now
  role := some .owner

structure UserManifest where
  author : DeviceID
  timestamp : DateTime
  id : EntryID
  version : ℕ
  created : DateTime
  updated : DateTime
  lastProcessedMessage : ℕ
  workspaces : List UserWorkspaceEntry
deriving DecidableEq, Repr

structure LocalUserManifest where
  base : UserManifest
  needSync : Bool
  updated : DateTime
  lastProcessedMessage : ℕ
  workspaces : List UserWorkspaceEntry
deriving DecidableEq, Repr

/-- `get_workspace_entry`. -/
def getWorkspaceEntry (workspaces : List UserWorkspaceEntry) (workspaceId : EntryID) :
    Option UserWorkspaceEntry :=
  workspaces.find? fun entry => entry.id = workspaceId

/-- Entries by their ids, as the source turns tuples into mappings. -/
def workspacesById (workspaces : List UserWorkspaceEntry) : Dict EntryID UserWorkspaceEntry :=
  .ofList (workspaces.map fun entry => (entry.id, entry))

section Merging

/-- The assertions of the merge. -/
inductive UserMergeError where
  | entryIds
  | removedEntries
  | manifestIds
  | notNewer
  | created
deriving DecidableEq, Repr

/-- If the name has been modified on both sides, target always wins. -/
def mergeWorkspaceName (base : Option UserWorkspaceEntry) (diverged target : UserWorkspaceEntry) :
    EntryName :=
  match base with
  | none => target.name
  | some base =>
      if base.name ≠ target.name then target.name
      else if base.name ≠ diverged.name then diverged.name
      else target.name

/-- Keep last encryption. -/
def mergeWorkspaceEncryption (diverged target : UserWorkspaceEntry) : WorkspaceEntry × DateTime :=
  if diverged.encryptionRevision < target.encryptionRevision then
    (target.toWorkspaceEntry, target.encryptedOn)
  else (diverged.toWorkspaceEntry, diverged.encryptedOn)

/-- Keep most recent cache info on role. -/
def mergeWorkspaceRole (diverged target : UserWorkspaceEntry) : Option RealmRole × DateTime :=
  if target.role = diverged.role then (target.role, max target.roleCachedOn diverged.roleCachedOn)
  else if diverged.roleCachedOn < target.roleCachedOn then (target.role, target.roleCachedOn)
  else (diverged.role, diverged.roleCachedOn)

/-- The entry that `merge_workspace_entry` builds. -/
def mergedWorkspaceEntry (base : Option UserWorkspaceEntry) (diverged target : UserWorkspaceEntry) :
    UserWorkspaceEntry where
  toWorkspaceEntry := (mergeWorkspaceEncryption diverged target).1
  name := mergeWorkspaceName base diverged target
  id := target.id
  encryptedOn := (mergeWorkspaceEncryption diverged target).2
  roleCachedOn := (mergeWorkspaceRole diverged target).2
  role := (mergeWorkspaceRole diverged target).1

def mergeWorkspaceEntry (base : Option UserWorkspaceEntry) (diverged target : UserWorkspaceEntry) :
    Except UserMergeError UserWorkspaceEntry := do
  .require (diverged.id = target.id) .entryIds
  .require (∀ entry ∈ base, entry.id = target.id) .entryIds
  return mergedWorkspaceEntry base diverged target

/-- The body of the loop of `merge_workspace_entries`. -/
def resolveWorkspaceEntry (base : List UserWorkspaceEntry) (resolved : Dict EntryID UserWorkspaceEntry)
    (diverged : UserWorkspaceEntry) : Except UserMergeError (Dict EntryID UserWorkspaceEntry) :=
  match resolved.get? diverged.id with
  -- Diverged have added this entry alone, no conflict then
  | none => .ok (resolved.insert diverged.id diverged)
  | some target =>
      -- Target and diverged agree on the entry, nothing more to do
      if target = diverged then .ok resolved
      -- Target and diverged have both modified this entry
      else do
        let merged ← mergeWorkspaceEntry (getWorkspaceEntry base diverged.id) diverged target
        return resolved.insert diverged.id merged

/-- The merged entries, sorted by their names, and whether they have to be uploaded. -/
def mergeWorkspaceEntries (base diverged target : List UserWorkspaceEntry) :
    Except UserMergeError (List UserWorkspaceEntry × Bool) := do
  -- Workspace entries should never be removed
  .require (∀ entry ∈ base, entry.id ∈ diverged.map (·.id)) .removedEntries
  .require (∀ entry ∈ base, entry.id ∈ target.map (·.id)) .removedEntries
  let resolved ← diverged.foldlM (resolveWorkspaceEntry base) (workspacesById target)
  let needSync := decide (resolved.keys.toFinset ≠ (target.map (·.id)).toFinset)
  return (resolved.values.insertionSort fun first second => first.name ≤ second.name, needSync)

def mergeLocalUserManifests (diverged : LocalUserManifest) (target : UserManifest) :
    Except UserMergeError LocalUserManifest := do
  .require (diverged.base.id = target.id) .manifestIds
  .require (diverged.base.version < target.version) .notNewer
  -- Not true when merging user manifest v1 given v0 is lazily generated
  .require (diverged.base.version = 0 ∨ diverged.base.created = target.created) .created
  let (workspaces, missing) ←
    mergeWorkspaceEntries diverged.base.workspaces diverged.workspaces target.workspaces
  let lastProcessedMessage := max diverged.lastProcessedMessage target.lastProcessedMessage
  let needSync := missing || decide (lastProcessedMessage ≠ target.lastProcessedMessage)
  return {
    base := target
    needSync := needSync
    updated :=
      if !needSync then target.updated
      else if diverged.updated < target.updated then target.updated
      else diverged.updated
    lastProcessedMessage := lastProcessedMessage
    workspaces := workspaces }

end Merging

namespace LocalUserManifest

def newPlaceholder (author : DeviceID) (id : EntryID) (now : DateTime) : LocalUserManifest where
  base := ⟨author, now, id, 0, now, now, 0, []⟩
  needSync := true
  updated := now
  lastProcessedMessage := 0
  workspaces := []

def toRemote (manifest : LocalUserManifest) (author : DeviceID) (timestamp : DateTime) :
    UserManifest where
  author := author
  timestamp := timestamp
  id := manifest.base.id
  version := manifest.base.version + 1
  created := manifest.base.created
  updated := manifest.updated
  lastProcessedMessage := manifest.lastProcessedMessage
  workspaces := manifest.workspaces

/-- `evolve_workspaces_and_mark_updated` with one entry. -/
def evolveWorkspacesAndMarkUpdated (manifest : LocalUserManifest) (entry : UserWorkspaceEntry)
    (now : DateTime) : LocalUserManifest :=
  { manifest with
    workspaces := (workspacesById (manifest.workspaces ++ [entry])).values
    updated := now, needSync := true }

def workspaceRename (manifest : LocalUserManifest) (workspaceId : EntryID) (newName : EntryName)
    (now : DateTime) : Option LocalUserManifest := do
  let entry ← getWorkspaceEntry manifest.workspaces workspaceId
  return manifest.evolveWorkspacesAndMarkUpdated { entry with name := newName } now

/-- Merge with existing as target to keep possible workpace rename. -/
def mergeWithExisting (manifest : LocalUserManifest) (entry : UserWorkspaceEntry) :
    Except UserMergeError UserWorkspaceEntry :=
  match getWorkspaceEntry manifest.workspaces entry.id with
  | none => .ok entry
  | some existing => mergeWorkspaceEntry none entry existing

/-- The last part of `_process_message_sharing_granted`, which also handles re-encryption messages. -/
def processSharingGranted (manifest : LocalUserManifest) (entry : UserWorkspaceEntry) (now : DateTime) :
    Except UserMergeError LocalUserManifest := do
  let entry ← manifest.mergeWithExisting entry
  return manifest.evolveWorkspacesAndMarkUpdated entry now

/-- The last part of `_process_message_sharing_revoked`. -/
def processSharingRevoked (manifest : LocalUserManifest) (workspaceId : EntryID) (now : DateTime) :
    Except UserMergeError LocalUserManifest :=
  match getWorkspaceEntry manifest.workspaces workspaceId with
  | none => .ok manifest
  | some existing => do
      let entry ← mergeWorkspaceEntry none existing { existing with role := none, roleCachedOn := now }
      -- Cheap idempotent check
      if existing = entry then return manifest
      else return manifest.evolveWorkspacesAndMarkUpdated entry now

/-- The end of `process_last_messages`. -/
def updateMessageOffset (manifest : LocalUserManifest) (count : ℕ) (now : DateTime) : LocalUserManifest :=
  if manifest.lastProcessedMessage < count then
    { manifest with lastProcessedMessage := count, updated := now, needSync := true }
  else manifest

/-- Take over a version, unless a concurrent operation has done so. -/
def receive (manifest : LocalUserManifest) (target : UserManifest) :
    Except UserMergeError LocalUserManifest :=
  if target.version ≤ manifest.base.version then .ok manifest
  else mergeLocalUserManifests manifest target

end LocalUserManifest

/-- What a device keeps: its manifest, the versions it has fetched, the manifests it is about to
upload, and those that were accepted. -/
structure UserDevice where
  manifest : LocalUserManifest
  fetched : List UserManifest := []
  outbound : List LocalUserManifest := []
  uploaded : List UserManifest := []

inductive UserCall where
  | workspaceCreate (name : EntryName) (id : EntryID) (key : SecretKey)
  | workspaceRename (workspaceId : EntryID) (newName : EntryName)
  | sharingGranted (name : EntryName) (id : EntryID) (key : SecretKey) (encryptionRevision : ℕ)
      (encryptedOn : DateTime) (selfRole : Option RealmRole)
  | sharingRevoked (workspaceId : EntryID)
  | updateMessageOffset (count : ℕ)
  | fetchRemoteUserManifest
  /-- Merge a version that was fetched. -/
  | inboundSync (index : ℕ)
  /-- Start uploading the present manifest, if that is needed. -/
  | startOutboundSync
  | uploadUserManifest (index : ℕ)
  /-- Merge back a manifest that was accepted. -/
  | finishOutboundSync (index : ℕ)

/-- The versions that the backend has accepted, oldest first, and the devices of the user. -/
structure UserSystem where
  versions : List UserManifest := []
  devices : DeviceID → UserDevice

namespace UserSystem

/-- Devices that have never synchronized. -/
def initial (userManifestId : EntryID) (created : DeviceID → DateTime) : UserSystem where
  devices author := { manifest := .newPlaceholder author userManifestId (created author) }

def setDevice (system : UserSystem) (author : DeviceID) (device : UserDevice) : UserSystem :=
  { system with devices := Function.update system.devices author device }

def setManifest (system : UserSystem) (author : DeviceID) (manifest : LocalUserManifest) : UserSystem :=
  system.setDevice author { system.devices author with manifest := manifest }

/-- One call of a device at a given time; it is no step when it raises or has nothing to act on. -/
def step? (system : UserSystem) (event : DeviceID × DateTime × UserCall) : Option UserSystem :=
  let (author, now, call) := event
  let device := system.devices author
  match call with
  | .workspaceCreate name id key =>
      some (system.setManifest author
        (device.manifest.evolveWorkspacesAndMarkUpdated (.new name id key now) now))
  | .workspaceRename workspaceId newName =>
      (device.manifest.workspaceRename workspaceId newName now).map (system.setManifest author)
  | .sharingGranted name id key encryptionRevision encryptedOn selfRole =>
      (device.manifest.processSharingGranted
        { name, id, key, encryptionRevision, encryptedOn, role := selfRole, roleCachedOn := now }
        now).toOption.map (system.setManifest author)
  | .sharingRevoked workspaceId =>
      (device.manifest.processSharingRevoked workspaceId now).toOption.map (system.setManifest author)
  | .updateMessageOffset count =>
      some (system.setManifest author (device.manifest.updateMessageOffset count now))
  | .fetchRemoteUserManifest => do
      let target ← system.versions.getLast?
      return system.setDevice author { device with fetched := device.fetched ++ [target] }
  | .inboundSync index => do
      let target ← device.fetched[index]?
      let manifest ← (device.manifest.receive target).toOption
      return system.setManifest author manifest
  | .startOutboundSync =>
      if device.manifest.needSync then
        some (system.setDevice author { device with outbound := device.outbound ++ [device.manifest] })
      else none
  | .uploadUserManifest index => do
      let manifest ← device.outbound[index]?
      let toSync := manifest.toRemote author now
      -- The backend refuses a version that does not follow its last one
      guard (toSync.version = system.versions.length + 1)
      return { system.setDevice author { device with uploaded := device.uploaded ++ [toSync] } with
        versions := system.versions ++ [toSync] }
  | .finishOutboundSync index => do
      let target ← device.uploaded[index]?
      let manifest ← (device.manifest.receive target).toOption
      return system.setManifest author manifest

end UserSystem

end Guardata
