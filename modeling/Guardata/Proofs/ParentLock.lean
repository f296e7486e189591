import Guardata.Proofs.WorkspaceView

/-! # The lock on a folder

A call on a path first gets hold of the folder that the path is in, and of the child under its name if there is
one. What it finds is what stands in the tree of files. A child that is not stored is loaded, and found in the next
attempt.
-/

namespace Guardata

open Machine Coroutine EdgeWalks

namespace Workspace

variable {workspace : Workspace} {before storage : WorkspaceStorage} {path : FsPath}

/-- The folder of a path and, if there is one, the child are stored. -/
structure Locked (workspace : Workspace) (storage : WorkspaceStorage) (path : FsPath) (parentId : EntryID)
    (parent : LocalFolderishManifest) (child : Option LocalEntryManifest) : Prop where
  named : path ≠ []
  reached : workspace.entryAt storage path.parent = some parentId
  stored : storage.manifests parentId = some (.folder parent)
  child : match parent.children.get? path.name with
    | none => child = none
    | some entryId => ∃ manifest, child = some manifest ∧ storage.manifests entryId = some manifest

/-- A path is its folder and its name. -/
theorem parent_append_name (named : path ≠ []) : path.parent ++ [path.name] = path := by
  rw [FsPath.parent, FsPath.name, List.getLastD_eq_getLast?, List.getLast?_eq_some_getLast named,
    Option.getD_some]
  exact List.dropLast_append_getLast named

section Locked

variable {parentId : EntryID} {parent : LocalFolderishManifest} {child : Option LocalEntryManifest}

theorem Locked.edge_eq (locked : Locked workspace storage path parentId parent child) :
    workspace.edge storage parentId = parent.children.get? := by
  funext name
  rw [edge, view_of_stored locked.stored]

theorem Locked.entryAt_eq (locked : Locked workspace storage path parentId parent child) :
    workspace.entryAt storage path = parent.children.get? path.name := by
  rw [← parent_append_name locked.named, entryAt, walk_concat, ← entryAt, locked.reached, Option.bind_some,
    locked.edge_eq, parent_append_name locked.named]

theorem Locked.node_eq (locked : Locked workspace storage path parentId parent child) :
    (workspace.tree storage).node? path = child.map fun manifest => .ofManifest (.ok manifest) := by
  have known := locked.child
  simp only [tree, locked.entryAt_eq]
  cases stands : parent.children.get? path.name with
  | none =>
    rw [stands] at known
    subst known
    rfl
  | some entryId =>
    rw [stands] at known
    obtain ⟨manifest, rfl, stored⟩ := known
    rw [Option.map_some, Option.map_some, view_of_stored stored]

theorem Locked.folder (locked : Locked workspace storage path parentId parent child) :
    (workspace.tree storage).node? path.parent = some .folder := by
  simp only [tree, locked.reached, Option.map_some, view_of_stored locked.stored]
  rfl

theorem Locked.lookToEdit_eq (locked : Locked workspace storage path parentId parent child) :
    (workspace.tree storage).lookToEdit path =
      .ok (child.map fun manifest => .ofManifest (.ok manifest)) := by
  rw [FileTree.lookToEdit_of_folder locked.named locked.folder, locked.node_eq]
  rcases child with _ | _ | _ <;> rfl

end Locked

section Lock

variable (workspace) {α : Type}
  (body : LocalFolderishManifest → Option LocalEntryManifest → WorkspaceCall α)

/-- One attempt ends, or gets hold of the folder and the child, or only misses the child. -/
theorem run_lockOnce (path : FsPath) (attempts : ℕ) (before : WorkspaceStorage) :
    ∃ storage, workspace.Loads before storage ∧
      ((∃ error, (workspace.lockParentManifestFromPath path body (attempts + 1)).run before =
          some (.error error, storage) ∧ (workspace.tree before).lookToEdit path = .error error) ∨
      (∃ parentId parent child, Locked workspace storage path parentId parent child ∧
        (workspace.lockParentManifestFromPath path body (attempts + 1)).run before =
          (body parent child >>= fun value => pure (some value)).run storage) ∨
      ∃ parentId parent entryId, path ≠ [] ∧ workspace.entryAt before path.parent = some parentId ∧
        workspace.view before parentId = .ok (.folder parent) ∧
        parent.children.get? path.name = some entryId ∧ storage.manifests entryId = none ∧
        (workspace.lockParentManifestFromPath path body (attempts + 1)).run before =
          (workspace.loadLocalManifest entryId >>= fun _ =>
            workspace.lockParentManifestFromPath path body attempts).run storage) := by
  rw [lockParentManifestFromPath]
  by_cases named : path = []
  · refine ⟨before, .refl, .inl ⟨.permission path, ?_, ?_⟩⟩
    · rw [if_pos named]
      rfl
    · rw [FileTree.lookToEdit, Except.require, if_neg (not_not.mpr named)]
      rfl
  · rw [if_neg named]
    obtain ⟨result, storage, played, loads, comes⟩ :=
      workspace.run_getManifestFromPath before path.parent
    cases result with
    | error error =>
      refine ⟨storage, loads, .inl ⟨error, ?_, ?_⟩⟩
      · rw [run_bind_of_error _ played]
      · rw [FileTree.lookToEdit_of_named named, comes]
        rfl
    | ok found =>
      obtain ⟨manifest, confined⟩ := found
      obtain ⟨parentId, reached, seen, stored⟩ := comes
      rw [run_bind_of_ok _ played]
      cases manifest with
      | file manifest =>
        refine ⟨storage, loads, .inl ⟨.notADirectory path.parent, rfl, ?_⟩⟩
        have stands : (workspace.tree before).node? path.parent = some .file := by
          simp only [tree, reached, Option.map_some, seen]
          rfl
        rw [FileTree.lookToEdit_of_named named, FileTree.look_of_node? stands]
        rfl
      | folder parent =>
        refine ⟨storage, loads, .inr ?_⟩
        have here : workspace.entryAt storage path.parent = some parentId := by
          rw [loads.entryAt_eq, reached]
        cases stands : parent.children.get? path.name with
        | none =>
          refine .inl ⟨parentId, parent, none, ⟨named, here, stored, by rw [stands]⟩, ?_⟩
          simp only [stands]
        | some entryId =>
          have looked := run_attempt_getManifest storage entryId
          cases known : storage.manifests entryId with
          | some child =>
            refine .inl ⟨parentId, parent, some child, ⟨named, here, stored, ?_⟩, ?_⟩
            · rw [stands]
              exact ⟨child, rfl, known⟩
            · rw [known, Option.elim_some] at looked
              simp only [stands]
              rw [run_bind_of_ok _ looked]
          | none =>
            refine .inr ⟨parentId, parent, entryId, named, reached, seen, stands, known, ?_⟩
            rw [known, Option.elim_none] at looked
            simp only [stands]
            rw [run_bind_of_ok _ looked]

/-- Two attempts are enough: the child that the first one misses is stored for the second. -/
theorem run_lockParent (path : FsPath) (attempts : ℕ) (before : WorkspaceStorage) :
    ∃ storage, workspace.Loads before storage ∧
      ((∃ error, (workspace.lockParentManifestFromPath path body (attempts + 2)).run before =
          some (.error error, storage) ∧ (workspace.tree before).lookToEdit path = .error error) ∨
      ∃ parentId parent child, Locked workspace storage path parentId parent child ∧
        (workspace.lockParentManifestFromPath path body (attempts + 2)).run before =
          (body parent child >>= fun value => pure (some value)).run storage) := by
  obtain ⟨storage, loads, ends | locks | ⟨parentId, parent, entryId, named, reached, seen, stands, missing,
    played⟩⟩ := workspace.run_lockOnce body path (attempts + 1) before
  · exact ⟨storage, loads, .inl ends⟩
  · exact ⟨storage, loads, .inr locks⟩
  rw [played]
  obtain ⟨loaded, playedLoad, later, stored⟩ :=
    workspace.run_loadLocalManifest storage entryId
  have stillSeen : workspace.view storage parentId = .ok (.folder parent) := by rw [loads.view_eq, seen]
  cases asked : workspace.view storage entryId with
  | error error =>
    rw [asked] at playedLoad
    refine ⟨loaded, loads.trans later, .inl ⟨.remote error, run_bind_of_error _ playedLoad, ?_⟩⟩
    have folder : (workspace.tree before).node? path.parent = some .folder := by
      simp only [tree, reached, Option.map_some, seen]
      rfl
    have child : (workspace.tree before).node? path = some (.unavailable error) := by
      have leads : workspace.edge before parentId path.name = some entryId := by rw [edge, seen]; exact stands
      simp only [tree]
      rw [entryAt, ← parent_append_name named, walk_concat, ← entryAt, reached, Option.bind_some, leads,
        Option.map_some, ← loads.view_eq, asked]
      rfl
    rw [FileTree.lookToEdit_of_folder named folder, child]
    rfl
  | ok manifest =>
    rw [asked] at playedLoad
    rw [run_bind_of_ok _ playedLoad]
    obtain ⟨again, loadsAgain, ends | locks | ⟨parentId', parent', entryId', -, reached', seen', stands',
      missing', -⟩⟩ := workspace.run_lockOnce body path attempts loaded
    · rw [later.tree_eq, loads.tree_eq] at ends
      exact ⟨again, (loads.trans later).trans loadsAgain, .inl ends⟩
    · exact ⟨again, (loads.trans later).trans loadsAgain, .inr locks⟩
    · -- The same folder still has the same child, which is stored by now.
      rw [later.entryAt_eq, loads.entryAt_eq, reached] at reached'
      cases reached'
      rw [later.view_eq, stillSeen] at seen'
      cases seen'
      rw [stands] at stands'
      cases stands'
      have kept := loadsAgain.kept entryId manifest (stored manifest asked)
      rw [missing'] at kept
      cases kept

end Lock

end Workspace

end Guardata
