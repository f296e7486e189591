import Guardata.Model.WorkspaceTransactions

/-! # The loops over the parents of an entry

Two places go from an entry through its parents up to the workspace manifest: a synchronization step,
which looks whether one of them confines the entry below it, and the version lister, which puts the
names of a path together. The parent that a manifest names is what its author wrote there. Both loops are
`while` loops, here with a number of rounds at most; `none` means that there are rounds left to do.
-/

namespace Guardata

/-- The `parent` of a manifest; only a workspace manifest has none. -/
def LocalEntryManifest.parent? : LocalEntryManifest → Option EntryID
  | file manifest => some manifest.base.parent
  | folder manifest => manifest.base.parent

def RemoteEntryManifest.parent? : RemoteEntryManifest → Option EntryID
  | file manifest => some manifest.parent
  | folder manifest => manifest.parent

section Synchronization

/-- How the loop of `synchronization_step` ends. -/
inductive ParentChainOutcome where
  /-- The workspace manifest is reached, and the step goes on. -/
  | workspace
  /-- `FS_ENTRY_CONFINED` is sent, and nothing is synchronized. -/
  | confined (causeId : EntryID)
  /-- `FSLocalMissError` -/
  | localMiss (id : EntryID)
  /-- A file has no confined entries. -/
  | attributeError
deriving DecidableEq

variable (manifests : Dict EntryID LocalEntryManifest)

/-- The loop, from the current manifest on. -/
def goThroughParentChain : ℕ → LocalEntryManifest → Option ParentChainOutcome
  | 0, _ => none
  | rounds + 1, currentManifest =>
      match currentManifest.parent? with
      | none => some .workspace
      | some parent =>
          match manifests.get? parent with
          | none => some (.localMiss parent)
          | some (.file _) => some .attributeError
          | some (.folder parentManifest) =>
              if currentManifest.id ∉ parentManifest.confinedEntries then
                goThroughParentChain rounds (.folder parentManifest)
              else some (.confined parentManifest.base.id)

/-- The part of `synchronization_step` that looks at the parents. -/
def checkParentChain (rounds : ℕ) (entryId : EntryID) : Option ParentChainOutcome :=
  match manifests.get? entryId with
  | none => some (.localMiss entryId)
  | some localManifest => goThroughParentChain manifests rounds localManifest

end Synchronization

section Path

/-- `FSRemoteManifestNotFound` with its subclasses. -/
def FSError.isRemoteManifestNotFound : FSError → Bool
  | remoteManifestNotFound _ | remoteManifestNotFoundBadVersion _ | remoteManifestNotFoundBadTimestamp _ => true
  | _ => false

/-- What `get_path_at_timestamp` raises. -/
inductive PathError where
  | entryNotFound (id : EntryID)
  | fs (error : FSError)
  /-- A file has no children. -/
  | attributeError
deriving DecidableEq

/-- A load that fails: a manifest that is not found breaks the path. -/
def PathError.ofLoad (entryId : EntryID) (error : FSError) : PathError :=
  if error.isRemoteManifestNotFound then entryNotFound entryId else fs error

-- `load` is what a load at the timestamp returns, from the cache or from the backend.
variable (load : EntryID → Except FSError RemoteEntryManifest) (entryId : EntryID)

/-- The loop over the parts of the path. -/
def loopOverParts : ℕ → EntryID → RemoteEntryManifest → List EntryName → Option (Except PathError FsPath)
  | 0, _, _, _ => none
  | rounds + 1, currentId, currentManifest, parts =>
      match currentManifest.parent? with
      | none => some (.ok parts.reverse)
      | some parent =>
          match load parent with
          | .error error => some (.error (.ofLoad entryId error))
          | .ok (.file _) => some (.error .attributeError)
          | .ok (.folder parentManifest) =>
              match parentManifest.children.items.find? fun child => child.2 = currentId with
              | none => some (.error (.entryNotFound entryId))
              | some (name, _) => loopOverParts rounds parent (.folder parentManifest) (parts ++ [name])

def getPathAtTimestamp (rounds : ℕ) : Option (Except PathError FsPath) :=
  match load entryId with
  | .error error => some (.error (.ofLoad entryId error))
  | .ok currentManifest => loopOverParts load entryId rounds entryId currentManifest []

end Path

end Guardata
