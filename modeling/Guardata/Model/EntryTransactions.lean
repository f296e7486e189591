import Guardata.Model.FolderSync

/-! # Entry transactions on a folder

`file_create`, `folder_create`, `entry_rename`, `file_delete` and `folder_delete`, as they change
the manifest of the parent folder; and the life of that manifest on one device, where these calls
alternate with changes of the filter and with remote versions. Rights, locks and events are left
out. The id of a new child is an argument; it is fresh. What the transactions read of the children's
own manifests is whether they are files, or folders with something in them.
-/

namespace Guardata

/-- What a transaction reads of the manifest of a child. -/
inductive ChildKind where
  | file
  | folder (hasChildren : Bool)
deriving DecidableEq, Repr

inductive EntryError where
  | fileNotFound (name : EntryName)
  | fileExists (name : EntryName)
  | isADirectory (name : EntryName)
  | notADirectory (name : EntryName)
  | directoryNotEmpty (name : EntryName)
  | manifest (error : FolderError)
deriving DecidableEq, Repr

namespace EntryTransactions

variable (kindOf : EntryID → ChildKind) (parent : LocalFolderishManifest) (patternFilter : Pattern)
  (now : DateTime)

/-- The new manifest of the parent. -/
def evolveParent (data : Dict EntryName (Option EntryID)) : Except EntryError LocalFolderishManifest :=
  (parent.evolveChildrenAndMarkUpdated data patternFilter now).mapError .manifest

/-- `file_create` and `folder_create`, which treat the parent alike. -/
def entryCreate (name : EntryName) (childId : EntryID) : Except EntryError LocalFolderishManifest := do
  .require (parent.children.get? name = none) (.fileExists name)
  evolveParent parent patternFilter now (.ofList [(name, some childId)])

/-- The overwrite logic of `entry_rename`. -/
def checkOverwrite (source child : ChildKind) (destination : EntryName) : Except EntryError Unit :=
  match source, child with
  | .file, .folder _ => .error (.isADirectory destination)
  | .folder _, .file => .error (.notADirectory destination)
  | .folder _, .folder true => .error (.directoryNotEmpty destination)
  | _, _ => .ok ()

/-- The checks of `entry_rename` on what stands under the new name. -/
def checkDestination (sourceEntryId : EntryID) (destination : EntryName) (overwrite : Bool) :
    Except EntryError Unit :=
  match parent.children.get? destination with
  | none => .ok ()
  | some childId =>
      if overwrite then checkOverwrite (kindOf sourceEntryId) (kindOf childId) destination
      else .error (.fileExists destination)

def entryRename (source destination : EntryName) (overwrite : Bool) :
    Except EntryError LocalFolderishManifest :=
  match parent.children.get? source with
  | none => .error (.fileNotFound source)
  | some sourceEntryId =>
      if source = destination then .ok parent
      else do
        checkDestination kindOf parent sourceEntryId destination overwrite
        evolveParent parent patternFilter now
          (.ofList [(destination, some sourceEntryId), (source, none)])

/-- Remove a child, if it passes a check. -/
def entryDelete (check : ChildKind → Except EntryError Unit) (name : EntryName) :
    Except EntryError LocalFolderishManifest :=
  match parent.children.get? name with
  | none => .error (.fileNotFound name)
  | some childId => do
      check (kindOf childId)
      evolveParent parent patternFilter now (.ofList [(name, none)])

def folderDelete (name : EntryName) : Except EntryError LocalFolderishManifest :=
  entryDelete kindOf parent patternFilter now
    (fun
      | .file => .error (.notADirectory name)
      | .folder true => .error (.directoryNotEmpty name)
      | .folder false => .ok ())
    name

def fileDelete (name : EntryName) : Except EntryError LocalFolderishManifest :=
  entryDelete kindOf parent patternFilter now
    (fun
      | .folder _ => .error (.isADirectory name)
      | .file => .ok ())
    name

end EntryTransactions

/-- What happens to the manifest of a folder on a device. A merge that re-applies the filter first
is two changes. -/
inductive FolderChange where
  | create (name : EntryName) (childId : EntryID)
  | rename (source destination : EntryName) (overwrite : Bool)
  | folderDelete (name : EntryName)
  | fileDelete (name : EntryName)
  | applyFilter
  | merge (localAuthor : DeviceID) (remote : RemoteFolderishManifest) (ids : List EntryID)

/-- A change, with the filter and the time at which it happens. -/
structure FolderEvent where
  patternFilter : Pattern
  now : DateTime
  kindOf : EntryID → ChildKind := fun _ => .file
  change : FolderChange

namespace LocalFolderishManifest

/-- An id that the manifest has never seen. -/
def Fresh (manifest : LocalFolderishManifest) (childId : EntryID) : Prop :=
  childId ∉ manifest.children.values ∧ childId ∉ manifest.base.children.values ∧
    childId ∉ manifest.confinedEntries ∧ childId ∉ manifest.filteredEntries

instance (manifest : LocalFolderishManifest) (childId : EntryID) : Decidable (manifest.Fresh childId) :=
  inferInstanceAs (Decidable (_ ∧ _))

/-- What a merge with a remote version would have to reconcile. -/
def conflictWith (manifest localFromRemote : LocalFolderishManifest) (remote : RemoteFolderishManifest) :
    ConflictingChildren :=
  ⟨manifest.base.children, manifest.children, localFromRemote.children, remote.author.toString⟩

instance (conflict : ConflictingChildren) (ids : List EntryID) : Decidable (conflict.IsWalk ids) :=
  decidable_of_iff (ids.Nodup ∧
      (∀ id ∈ ids, id ∈ conflict.localChildren.values ∨ id ∈ conflict.remoteChildren.values) ∧
      (∀ id ∈ conflict.localChildren.values, id ∈ ids) ∧
      ∀ id ∈ conflict.remoteChildren.values, id ∈ ids)
    ⟨fun ⟨nodup, known, locals, remotes⟩ =>
        ⟨nodup, fun id => ⟨known id, fun either => either.elim (locals id) (remotes id)⟩⟩,
      fun ⟨nodup, same⟩ => ⟨nodup, fun id => (same id).mp, fun id member => (same id).mpr (.inl member),
        fun id member => (same id).mpr (.inr member)⟩⟩

/-- The ids are walked through in an order in which the set of them may be. -/
def Walks (manifest : LocalFolderishManifest) (remote : RemoteFolderishManifest)
    (patternFilter : Pattern) (now : DateTime) (ids : List EntryID) : Prop :=
  ∀ localFromRemote ∈ (fromRemote remote patternFilter (some manifest) now).toOption,
    (manifest.conflictWith localFromRemote remote).IsWalk ids

instance (manifest : LocalFolderishManifest) (remote : RemoteFolderishManifest)
    (patternFilter : Pattern) (now : DateTime) (ids : List EntryID) :
    Decidable (manifest.Walks remote patternFilter now ids) :=
  inferInstanceAs (Decidable (∀ localFromRemote ∈ Except.toOption _, _))

/-- One change of the manifest. It is no step when it raises; the ids of new children are fresh, and
no remote version has an id under two names. -/
def step? (normalize : String → String) (manifest : LocalFolderishManifest) (event : FolderEvent) :
    Option LocalFolderishManifest :=
  match event.change with
  | .create name childId =>
      if manifest.Fresh childId then
        (EntryTransactions.entryCreate manifest event.patternFilter event.now name childId).toOption
      else none
  | .rename source destination overwrite =>
      (EntryTransactions.entryRename event.kindOf manifest event.patternFilter event.now source
        destination overwrite).toOption
  | .folderDelete name =>
      (EntryTransactions.folderDelete event.kindOf manifest event.patternFilter event.now name).toOption
  | .fileDelete name =>
      (EntryTransactions.fileDelete event.kindOf manifest event.patternFilter event.now name).toOption
  | .applyFilter => (manifest.applyFilter event.patternFilter event.now).toOption
  | .merge localAuthor remote ids =>
      if remote.children.values.Nodup ∧ manifest.Walks remote event.patternFilter event.now ids then
        (mergeManifests normalize localAuthor event.patternFilter manifest (some remote) false ids
          event.now).toOption
      else none

/-- The manifests that a device starts with: a placeholder, or one from a remote version. -/
inductive Initial : LocalFolderishManifest → Prop
  | newPlaceholder (author : DeviceID) (id : EntryID) (parent : Option EntryID) (now : DateTime) :
      Initial (.newPlaceholder author id parent now)
  | fromRemote (remote : RemoteFolderishManifest) (patternFilter : Pattern) (now : DateTime)
      (manifest : LocalFolderishManifest) (unique : remote.children.values.Nodup)
      (loaded : LocalFolderishManifest.fromRemote remote patternFilter none now = .ok manifest) :
      Initial manifest

end LocalFolderishManifest

end Guardata
