import Guardata.Proofs.FileTreeCalls

/-! # A workspace is a tree of files

Any calls on the entries of a workspace, one after the other, come to what they do to the tree of files that
the user has in mind. Loading from the remote shows nowhere but in the errors, ids stay unique, and the
assertion on the ids of a folder never fails.
-/

namespace Guardata

open Machine Coroutine EdgeWalks

open FileTree in
/-- What a call does to the tree of files, for a user who has a role. -/
noncomputable def EntryCall.onTree (role : Option RealmRole) (tree : FileTree) :
    EntryCall → Except TransactionError FileTree
  | folderCreate path => do
      checkWrite role path
      tree.create path .folder
  | fileCreate path _ => do
      checkWrite role path
      tree.create path .file
  | entryRename source destination overwrite => do
      checkWrite role source
      tree.renameEntry source destination overwrite
  | folderDelete path => do
      checkWrite role path
      tree.deleteFolder path
  | fileDelete path => do
      checkWrite role path
      tree.deleteFile path

namespace Workspace

variable {workspace : Workspace} {before storage : WorkspaceStorage} {path : FsPath}

theorem comes_entryCreate {α : Type} {newPlaceholder : EntryID → EntryID → LocalEntryManifest}
    {finish : EntryID → WorkspaceCall α} {node : TreeNode} (creation : Creation newPlaceholder finish node)
    (attempts : ℕ) (sound : workspace.Sound before) :
    Comes workspace before (workspace.entryCreate (attempts + 2) path newPlaceholder finish)
      (fun value => value.isSome) (do
        FileTree.checkWrite workspace.role path
        (workspace.tree before).create path node) := by
  refine comes_checkWrite sound (comes_lockParent attempts sound ?_)
  intro storage parentId parent child loads sound locked
  have created := comes_create creation locked sound
  rw [loads.tree_eq] at created
  cases child <;> exact created

theorem comes_entryDelete {check : EntryName → ChildKind → Except EntryError Unit}
    {edit : Option TreeNode → Except TransactionError FileTree} (attempts : ℕ)
    (sound : workspace.Sound before)
    (none_eq : edit none = .error (.fileNotFound path))
    (some_eq : ∀ storage parentId parent manifest, workspace.tree storage = workspace.tree before →
      Locked workspace storage path parentId parent (some manifest) →
      edit (some (.ofManifest (.ok manifest))) = (do
        (check path.name manifest.kind).mapError (TransactionError.ofEntry path.parent)
        return (workspace.tree before).remove path)) :
    Comes workspace before (workspace.entryDelete (attempts + 2) path fun kindOf parent patternFilter now name =>
        EntryTransactions.entryDelete kindOf parent patternFilter now (check name) name)
      (fun value => value.isSome) (do
        FileTree.checkWrite workspace.role path
        (workspace.tree before).lookToEdit path >>= edit) := by
  refine comes_checkWrite sound (comes_lockParent attempts sound ?_)
  intro storage parentId parent child loads sound locked
  have deleted := comes_delete locked sound (check path.name)
  have same : edit (child.map fun manifest => .ofManifest (.ok manifest)) =
      deleteLocked (workspace.tree before) path (check path.name) child := by
    cases child with
    | none => exact none_eq
    | some manifest => exact some_eq storage parentId parent manifest loads.tree_eq locked
  rw [same, ← loads.tree_eq]
  exact deleted

theorem comes_entryRename {source destination : FsPath} {overwrite : Bool} (attempts : ℕ)
    (sound : workspace.Sound before) :
    Comes workspace before (workspace.entryRename (attempts + 2) source destination overwrite)
      (fun value => value.isSome) (do
        FileTree.checkWrite workspace.role source
        (workspace.tree before).renameEntry source destination overwrite) := by
  refine comes_checkWrite sound ?_
  rw [FileTree.renameEntry]
  by_cases named : source = []
  · rw [if_pos named, Except.require, if_neg (not_not.mpr named)]
    exact comes_error sound .refl rfl
  by_cases named' : destination = []
  · rw [if_neg named, if_pos named', Except.require, if_pos named, Except.require,
      if_neg (not_not.mpr named')]
    exact comes_error sound .refl rfl
  by_cases beside : source.parent = destination.parent
  · rw [if_neg named, if_neg named', if_neg (not_not.mpr beside), Except.require, if_pos named,
      Except.require, if_pos named', Except.require, if_pos beside, Except.ok_bind, Except.ok_bind,
      Except.ok_bind]
    obtain ⟨fetched, loads, played⟩ := workspace.run_prefetchSource source overwrite before
    cases looked : (workspace.tree before).lookToRename source overwrite with
    | error error =>
      rw [looked] at played
      exact comes_error sound loads (run_bind_of_error _ played)
    | ok done =>
      rw [looked] at played
      refine Comes.bind loads played ?_
      rw [← loads.tree_eq]
      refine comes_lockParent attempts (loads.sound sound) ?_
      intro storage parentId parent child later sound locked
      rw [← later.tree_eq]
      refine comes_renameChild locked sound named beside fun overwrites error stands => ?_
      -- What is to be overwritten something with was fetched.
      rw [later.tree_eq, loads.tree_eq] at stands
      rw [FileTree.lookToRename, if_pos overwrites, FileTree.look_of_node? stands] at looked
      cases looked
  · rw [if_neg named, if_neg named', if_pos beside, Except.require, if_pos named,
      Except.require, if_pos named', Except.require, if_neg beside]
    exact comes_error sound .refl rfl

end Workspace

section Calls

variable {workspace : Workspace} {before : WorkspaceStorage}

open Workspace

private theorem folder_creation (localAuthor : DeviceID) (now : DateTime) :
    Creation (fun parent id => .folder (.newPlaceholder localAuthor id (some parent) now)) pure .folder where
  own _ _ := rfl
  bare _ _ := .inr rfl
  node _ _ := rfl
  finishes id storage := ⟨id, storage, rfl, rfl, rfl⟩

private theorem file_creation (localAuthor : DeviceID) (now : DateTime) (openFile : Bool) :
    Creation (fun parent id => .file (.newPlaceholder localAuthor parent id now defaultBlockSize))
      (fun id => do
        if openFile then
          let fd ← createFileDescriptor id
          return (id, some fd)
        else return (id, none)) .file where
  own _ _ := rfl
  bare _ _ := .inl rfl
  node _ _ := rfl
  finishes id storage := by
    cases openFile with
    | true => exact ⟨_, _, rfl, rfl, rfl⟩
    | false => exact ⟨_, _, rfl, rfl, rfl⟩

/-- A call comes to what it does to the tree. -/
theorem EntryCall.comes_transaction (call : EntryCall) (attempts : ℕ) (sound : workspace.Sound before) :
    Comes workspace before (call.transaction workspace (attempts + 2)) (· = some ())
      (call.onTree workspace.role (workspace.tree before)) := by
  have done {α : Type} (value : Option α) (here : value.isSome) : (value.map fun _ => ()) = some () := by
    cases value with
    | none => cases here
    | some value => rfl
  cases call with
  | folderCreate path =>
    exact (comes_entryCreate (folder_creation _ _) attempts sound).map fun value => done value
  | fileCreate path openFile =>
    exact (comes_entryCreate (file_creation _ _ openFile) attempts sound).map fun value => done value
  | entryRename source destination overwrite =>
    exact (comes_entryRename attempts sound).map fun value => done value
  | folderDelete path =>
    refine (comes_entryDelete attempts sound rfl ?_).map fun value => done value
    intro storage parentId parent manifest same locked
    have whole := parent_append_name locked.named
    cases manifest with
    | file manifest =>
      simp only [TreeNode.ofManifest, LocalEntryManifest.kind, Except.mapError, TransactionError.ofEntry,
        whole]
      rfl
    | folder manifest =>
      obtain ⟨entryId, stands, stored⟩ := locked.exists_entry
      have children := hasChildren_iff (by rw [locked.entryAt_eq, stands]) stored
      rw [same] at children
      cases something : !manifest.children.items.isEmpty <;> rw [something] at children <;>
        simp [TreeNode.ofManifest, LocalEntryManifest.kind, Except.mapError, TransactionError.ofEntry, whole,
          something, children, Except.require]
  | fileDelete path =>
    refine (comes_entryDelete attempts sound rfl ?_).map fun value => done value
    intro storage parentId parent manifest same locked
    have whole := parent_append_name locked.named
    cases manifest <;>
      simp only [TreeNode.ofManifest, LocalEntryManifest.kind, Except.mapError, TransactionError.ofEntry,
        whole] <;> rfl

end Calls

/-- A call, with the role that the user has and the time at which it is made. -/
structure EntryRequest where
  role : Option RealmRole
  now : DateTime
  call : EntryCall

namespace Workspace

/-- The device as it is when a call is made. -/
def asOf (workspace : Workspace) (request : EntryRequest) : Workspace :=
  { workspace with role := request.role, now := request.now }

/-- Calls one after the other, with what each of them comes to. -/
def runCalls (workspace : Workspace) (attempts : ℕ) : List EntryRequest → WorkspaceStorage →
    Option (List (Except TransactionError (Option Unit)) × WorkspaceStorage)
  | [], storage => some ([], storage)
  | request :: rest, storage => do
      let (result, storage) ← (request.call.transaction (workspace.asOf request) attempts).run storage
      let (results, storage) ← workspace.runCalls attempts rest storage
      return (result :: results, storage)

end Workspace

namespace FileTree

/-- Calls one after the other on a tree of files. Those that raise leave it as it is. -/
noncomputable def runCalls : List EntryRequest → FileTree →
    List (Except TransactionError (Option Unit)) × FileTree
  | [], tree => ([], tree)
  | request :: rest, tree =>
      let outcome := request.call.onTree request.role tree
      let (results, tree) := runCalls rest (outcome.toOption.getD tree)
      ((outcome.map fun _ => some ()) :: results, tree)

end FileTree

namespace Workspace

variable {workspace : Workspace}

/-- Every entry that can be reached has one folder and one name there, and an id that has been drawn. -/
theorem sound_of_edges {storage : WorkspaceStorage}
    (once : ∀ first second name other place, (∃ path, workspace.entryAt storage path = some first) →
      (∃ path, workspace.entryAt storage path = some second) → workspace.edge storage first name = some place →
      workspace.edge storage second other = some place → first = second ∧ name = other)
    (above : ∀ place name, (∃ path, workspace.entryAt storage path = some place) →
      workspace.edge storage place name ≠ some workspace.workspaceId)
    (drawn : ∀ place name id, (∃ path, workspace.entryAt storage path = some place) →
      workspace.edge storage place name = some id → id < storage.nextId)
    (rootDrawn : workspace.workspaceId < storage.nextId) : workspace.Sound storage := by
  refine ⟨treelike_of_unique once above, fun path id reached => ?_⟩
  rcases List.eq_nil_or_concat path with rfl | ⟨front, name, rfl⟩
  · cases reached
    exact rootDrawn
  · rw [List.concat_eq_append] at reached
    obtain ⟨last, here, leads⟩ := walk_concat_eq_some_iff.mp reached
    exact drawn last name id ⟨front, here⟩ leads

section Example

/-- The root, with a folder `a` that another device has uploaded. -/
private def sharedRoot : LocalFolderishManifest where
  base := ⟨⟨"bob", "desktop"⟩, 1, 5, none, 1, 1, 1, .ofList [("a", 6)]⟩
  needSync := false
  updated := 1
  children := .ofList [("a", 6)]

/-- What the remote has under `a`: a folder with a file `b`. -/
private def sharedFolder : RemoteFolderishManifest :=
  ⟨⟨"bob", "desktop"⟩, 1, 6, some 5, 1, 1, 1, .ofList [("b", 7)]⟩

private def sharedFile : RemoteFileManifest := ⟨⟨"bob", "desktop"⟩, 1, 7, 6, 1, 1, 1, 0, 512, []⟩

/-- Only the root is stored. -/
private def rootStored : WorkspaceStorage where
  manifests := fun id => if id = 5 then some (.folder sharedRoot) else none
  keyed := by
    intro id manifest found
    split at found
    · next here =>
      cases found
      exact here.symm
    · cases found
  nextId := 8

private theorem folder_id {id : EntryID} (same : id = 6) : (RemoteEntryManifest.folder sharedFolder).id = id :=
  same.symm

private theorem file_id {id : EntryID} (same : id = 7) : (RemoteEntryManifest.file sharedFile).id = id :=
  same.symm

private def sharedWorkspace : Workspace where
  workspaceId := 5
  localAuthor := ⟨"alice", "laptop"⟩
  role := some .owner
  patternFilter := fun _ => false
  now := 2
  loadManifest := fun id => if same : id = 6 then .ok ⟨.folder sharedFolder, folder_id same⟩
    else if same : id = 7 then .ok ⟨.file sharedFile, file_id same⟩ else .error (.remoteManifestNotFound id)

private theorem edge_rootStored {id place : EntryID} {name : EntryName}
    (leads : sharedWorkspace.edge rootStored id name = some place) :
    (id = 5 ∧ name = "a" ∧ place = 6) ∨ (id = 6 ∧ name = "b" ∧ place = 7) := by
  have only (key : EntryName) (child : EntryID)
      (found : (Dict.ofList [(key, child)]).get? name = some place) : name = key ∧ place = child := by
    change ((∅ : Dict EntryName EntryID).insert key child).get? name = some place at found
    rw [Dict.get?_insert] at found
    split at found
    · next same => exact ⟨same, (Option.some.inj found).symm⟩
    · cases found
  by_cases root : id = 5
  · subst root
    exact .inl ⟨rfl, only "a" 6 leads⟩
  by_cases folder : id = 6
  · subst folder
    exact .inr ⟨rfl, only "b" 7 leads⟩
  by_cases file : id = 7
  · subst file
    cases leads
  · simp [edge, view, rootStored, sharedWorkspace, root, folder, file, Except.map] at leads

private theorem sound_rootStored : sharedWorkspace.Sound rootStored := by
  refine sound_of_edges ?_ ?_ ?_ (by decide)
  · intro first second name other place _ _ leads leads'
    rcases edge_rootStored leads with ⟨rfl, rfl, rfl⟩ | ⟨rfl, rfl, rfl⟩ <;>
      rcases edge_rootStored leads' with ⟨rfl, rfl, same⟩ | ⟨rfl, rfl, same⟩ <;> simp at same ⊢
  · intro place name _ leads
    rcases edge_rootStored leads with ⟨-, -, same⟩ | ⟨-, -, same⟩ <;> cases same
  · intro place name id _ leads
    rcases edge_rootStored leads with ⟨-, -, rfl⟩ | ⟨-, -, rfl⟩ <;> decide

private def someRequests : List EntryRequest := [
  ⟨some .owner, 2, .folderCreate ["c"]⟩, ⟨some .owner, 3, .fileCreate ["a", "d"] true⟩,
  ⟨some .owner, 4, .entryRename ["a"] ["c"] true⟩, ⟨some .reader, 5, .fileDelete ["c", "b"]⟩,
  ⟨some .owner, 6, .fileDelete ["c", "b"]⟩]

end Example

end Workspace

end Guardata
