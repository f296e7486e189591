import Mathlib.Data.Finset.Basic
import Guardata.Model.FolderMerge

/-! # Folder and workspace manifests

A device keeps, for every folder, the last remote version it knows of (`base`), its own children,
and two sets of entry ids: the confined entries, which are there locally and never uploaded, and
the filtered entries, which are there remotely and not shown. `toRemote` drops the former and puts
the latter back. Folders and workspaces differ in one field only, the parent, which a workspace
does not have.

The current time is an argument wherever the source asks for it.
-/

namespace Guardata

/-- A pattern filter, by the names it matches. -/
abbrev Pattern := EntryName → Bool

/-- `RemoteFolderManifest` and `RemoteWorkspaceManifest`; the latter has no parent. -/
structure RemoteFolderishManifest where
  author : DeviceID
  timestamp : DateTime
  id : EntryID
  parent : Option EntryID
  version : ℕ
  created : DateTime
  updated : DateTime
  children : Dict EntryName EntryID
deriving DecidableEq

/-- Equality of manifests: their children are compared as mappings. -/
def RemoteFolderishManifest.Equal (left right : RemoteFolderishManifest) : Prop :=
  left.author = right.author ∧ left.timestamp = right.timestamp ∧ left.id = right.id ∧
    left.parent = right.parent ∧ left.version = right.version ∧ left.created = right.created ∧
    left.updated = right.updated ∧ left.children.Same right.children

instance (left right : RemoteFolderishManifest) : Decidable (left.Equal right) :=
  inferInstanceAs (Decidable (_ ∧ _))

/-- `LocalFolderManifest` and `LocalWorkspaceManifest`. -/
structure LocalFolderishManifest where
  base : RemoteFolderishManifest
  needSync : Bool
  updated : DateTime
  children : Dict EntryName EntryID
  confinedEntries : Finset EntryID := ∅
  filteredEntries : Finset EntryID := ∅

/-- Why a call on a folder manifest raises. -/
inductive FolderError where
  /-- `assert not set(data.values()).intersection(new_children.values())` -/
  | duplicatedEntryId
  | invalidEntryName (error : InvalidEntryName)
deriving DecidableEq, Repr

namespace LocalFolderishManifest

/-- Equality of manifests: their children are compared as mappings. -/
def Equal (left right : LocalFolderishManifest) : Prop :=
  left.base.Equal right.base ∧ left.needSync = right.needSync ∧ left.updated = right.updated ∧
    left.children.Same right.children ∧ left.confinedEntries = right.confinedEntries ∧
    left.filteredEntries = right.filteredEntries

instance (left right : LocalFolderishManifest) : Decidable (left.Equal right) :=
  inferInstanceAs (Decidable (_ ∧ _))

def newPlaceholder (author : DeviceID) (id : EntryID) (parent : Option EntryID) (now : DateTime) :
    LocalFolderishManifest where
  base := ⟨author, now, id, parent, 0, now, now, ∅⟩
  needSync := true
  updated := now
  children := ∅

def baseVersion (manifest : LocalFolderishManifest) : ℕ := manifest.base.version

def isPlaceholder (manifest : LocalFolderishManifest) : Bool := manifest.base.version = 0

/-- The local variables of `evolve_children_and_mark_updated`. -/
structure ChildrenEdit where
  updated : Bool
  children : Dict EntryName EntryID
  confinedEntries : Finset EntryID

/-- Remove a name, if it is there. Only an entry that was confined leaves no trace remotely. -/
def ChildrenEdit.remove (edit : ChildrenEdit) (name : EntryName) : ChildrenEdit :=
  match edit.children.get? name with
  | none => edit
  | some oldEntryId =>
      { updated := edit.updated || decide (oldEntryId ∉ edit.confinedEntries)
        children := edit.children.erase name
        confinedEntries := edit.confinedEntries.erase oldEntryId }

/-- Add an entry, if there is one to add; it is confined if its name matches the filter. -/
def ChildrenEdit.add (patternFilter : Pattern) (edit : ChildrenEdit)
    (entry : EntryName × Option EntryID) : ChildrenEdit :=
  match entry.2 with
  | none => edit
  | some entryId =>
      { updated := edit.updated || !patternFilter entry.1
        children := edit.children.insert entry.1 entryId
        confinedEntries :=
          if patternFilter entry.1 then insert entryId edit.confinedEntries
          else edit.confinedEntries }

/-- The removals come first, for every name of the data. -/
def removeChildren (manifest : LocalFolderishManifest) (data : Dict EntryName (Option EntryID)) :
    ChildrenEdit :=
  data.keys.foldl ChildrenEdit.remove ⟨false, manifest.children, manifest.confinedEntries⟩

/-- `evolve_children_and_mark_updated`. -/
def evolveChildrenAndMarkUpdated (manifest : LocalFolderishManifest)
    (data : Dict EntryName (Option EntryID)) (patternFilter : Pattern) (now : DateTime) :
    Except FolderError LocalFolderishManifest := do
  let removed := manifest.removeChildren data
  -- Make sure no entry_id is duplicated
  .require (∀ entryId ∈ data.values.reduceOption, entryId ∉ removed.children.values)
    .duplicatedEntryId
  let edit := data.items.foldl (ChildrenEdit.add patternFilter) removed
  if edit.updated then
    return { manifest with
      children := edit.children, confinedEntries := edit.confinedEntries
      updated := now, needSync := true }
  else
    return { manifest with children := edit.children, confinedEntries := edit.confinedEntries }

/-- `_filter_confined_entries`. -/
def filterConfinedEntries (manifest : LocalFolderishManifest) : LocalFolderishManifest :=
  if manifest.confinedEntries = ∅ then manifest
  else { manifest with
    confinedEntries := ∅
    children := manifest.children.filter fun _ entryId => entryId ∉ manifest.confinedEntries }

/-- `_restore_confined_entries`. The filtered entries of `self` restore what was present locally
before a new filter hid it. -/
def restoreConfinedEntries (manifest other : LocalFolderishManifest) (patternFilter : Pattern)
    (now : DateTime) : Except FolderError LocalFolderishManifest :=
  if other.confinedEntries = ∅ ∧ manifest.filteredEntries = ∅ then .ok manifest
  else
    let previouslyConfined := other.children.filter fun _ entryId =>
      entryId ∈ other.confinedEntries ∨ entryId ∈ manifest.filteredEntries
    manifest.evolveChildrenAndMarkUpdated (previouslyConfined.mapValues some) patternFilter now

/-- `_filter_remote_entries`. -/
def filterRemoteEntries (manifest : LocalFolderishManifest) (patternFilter : Pattern) :
    LocalFolderishManifest :=
  let filteredEntries := (manifest.children.filter fun name _ => patternFilter name).values.toFinset
  if filteredEntries = ∅ then manifest
  else { manifest with
    children := manifest.children.filter fun _ entryId => entryId ∉ filteredEntries
    filteredEntries := filteredEntries }

/-- `_restore_filtered_entries`: the base knows under which names. -/
def restoreFilteredEntries (manifest : LocalFolderishManifest) : LocalFolderishManifest :=
  if manifest.filteredEntries = ∅ then manifest
  else { manifest with
    filteredEntries := ∅
    children := manifest.children.update
      (manifest.base.children.filter fun _ entryId => entryId ∈ manifest.filteredEntries) }

def applyFilter (manifest : LocalFolderishManifest) (patternFilter : Pattern) (now : DateTime) :
    Except FolderError LocalFolderishManifest :=
  let filtered := manifest.filterConfinedEntries.restoreFilteredEntries.filterRemoteEntries patternFilter
  filtered.restoreConfinedEntries manifest patternFilter now

def fromRemote (remote : RemoteFolderishManifest) (patternFilter : Pattern)
    (localManifest : Option LocalFolderishManifest) (now : DateTime) :
    Except FolderError LocalFolderishManifest :=
  let result : LocalFolderishManifest :=
    { base := remote, needSync := false, updated := remote.updated, children := remote.children }
  let result := result.filterRemoteEntries patternFilter
  match localManifest with
  | none => .ok result
  | some localManifest => result.restoreConfinedEntries localManifest patternFilter now

def toRemote (manifest : LocalFolderishManifest) (author : DeviceID) (timestamp : DateTime) :
    RemoteFolderishManifest where
  author := author
  timestamp := timestamp
  id := manifest.base.id
  parent := manifest.base.parent
  version := manifest.baseVersion + 1
  created := manifest.base.created
  updated := manifest.updated
  children := manifest.filterConfinedEntries.restoreFilteredEntries.children

/-- Whether the remote manifest is what this one would be uploaded as, its version apart. -/
def matchRemote (manifest : LocalFolderishManifest) (remote : RemoteFolderishManifest) : Bool :=
  let reference := manifest.toRemote remote.author remote.timestamp
  decide (RemoteFolderishManifest.Equal { reference with version := remote.version } remote)

end LocalFolderishManifest

end Guardata
