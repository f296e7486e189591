import Guardata.ToMathlib.EdgeWalks
import Guardata.Model.FileTree
import Guardata.Proofs.WorkspaceTransactions

/-! # The files that a device sees

What a device sees of a workspace is what it stores and, where it stores nothing, what the remote loader
answers. To store an answer does not change what is seen. The walks from the root over this view make up a
tree of files, and the lookups of the calls on paths find what stands in it, or raise what the way there says.
-/

namespace Guardata

open Machine Coroutine EdgeWalks

namespace FileTree

variable {tree : FileTree} {whole done rest path : FsPath}

/-- Whatever stands at the end of a path is found there. -/
theorem resolve_of_isSome (stands : (tree.node? (done ++ rest)).isSome) :
    tree.resolve whole done rest = reach whole (tree.node? (done ++ rest)) := by
  induction rest generalizing done with
  | nil => rw [resolve, List.append_nil]
  | cons name rest ih =>
    rw [resolve, folder_above (List.cons_ne_nil name rest) stands]
    rw [List.append_cons done name rest] at stands ⊢
    exact ih stands

theorem look_of_isSome (stands : (tree.node? path).isSome) :
    tree.look path = reach path (tree.node? path) := resolve_of_isSome stands

theorem look_of_node? {node : TreeNode} (stands : tree.node? path = some node) :
    tree.look path = reach path (some node) := by
  rw [look_of_isSome (by rw [stands]; rfl), stands]

theorem lookToEdit_of_named (named : path ≠ []) :
    tree.lookToEdit path = tree.look path.parent >>= fun node => match node with
      | .folder => lookAt (tree.node? path)
      | _ => .error (.notADirectory path.parent) := by
  rw [lookToEdit, Except.require, if_pos named]
  rfl

theorem lookToEdit_of_folder (named : path ≠ []) (folder : tree.node? path.parent = some .folder) :
    tree.lookToEdit path = lookAt (tree.node? path) := by
  rw [lookToEdit_of_named named, look_of_node? folder]
  rfl

end FileTree

/-- What a tree of files shows of a manifest. -/
def TreeNode.ofManifest : Except FSError LocalEntryManifest → TreeNode
  | .ok (.file _) => file
  | .ok (.folder _) => folder
  | .error error => unavailable error

namespace Workspace

variable (workspace : Workspace)

/-- What the device sees under an id. -/
def view (storage : WorkspaceStorage) (id : EntryID) : Except FSError LocalEntryManifest :=
  match storage.manifests id with
  | some manifest => .ok manifest
  | none => (workspace.loadManifest id).map fun remote => .fromRemote workspace.patternFilter remote.1

/-- The children that it sees. -/
def edge (storage : WorkspaceStorage) (id : EntryID) (name : EntryName) : Option EntryID :=
  match workspace.view storage id with
  | .ok (.folder manifest) => manifest.children.get? name
  | _ => none

/-- The id that a path leads to. -/
def entryAt (storage : WorkspaceStorage) (path : FsPath) : Option EntryID :=
  walk (workspace.edge storage) workspace.workspaceId path

/-- The tree of files that the device sees. -/
def tree (storage : WorkspaceStorage) : FileTree where
  node? path := (workspace.entryAt storage path).map fun id => .ofManifest (workspace.view storage id)
  closed := by
    intro path name stands
    rw [Option.isSome_map, Option.isSome_iff_exists] at stands
    obtain ⟨child, reached⟩ := stands
    obtain ⟨id, here, leads⟩ := walk_concat_eq_some_iff.mp reached
    rw [entryAt, here, Option.map_some, Option.some.injEq]
    unfold edge at leads
    split at leads
    · next manifest seen =>
      rw [seen]
      rfl
    · cases leads

variable {workspace} {before storage after : WorkspaceStorage} {path : FsPath}

theorem view_of_stored {id : EntryID} {manifest : LocalEntryManifest}
    (stored : storage.manifests id = some manifest) : workspace.view storage id = .ok manifest := by
  rw [view, stored]

/-- To store an answer changes nothing that is seen. -/
theorem Loads.view_eq (loads : workspace.Loads before after) :
    workspace.view after = workspace.view before := by
  funext id
  cases old : before.manifests id with
  | some manifest => rw [view_of_stored old, view_of_stored (loads.kept id manifest old)]
  | none =>
    cases new : after.manifests id with
    | none => rw [view, view, old, new]
    | some manifest =>
      rw [view, view, old, new]
      rcases loads.loaded id manifest new with stored | ⟨remote, answered, rfl⟩
      · rw [old] at stored
        cases stored
      · simp only [answered, Except.map]

theorem Loads.edge_eq (loads : workspace.Loads before after) :
    workspace.edge after = workspace.edge before := by
  funext id name
  rw [edge, edge, loads.view_eq]

theorem Loads.entryAt_eq (loads : workspace.Loads before after) :
    workspace.entryAt after = workspace.entryAt before := by
  funext path
  rw [entryAt, entryAt, loads.edge_eq]

theorem Loads.tree_eq (loads : workspace.Loads before after) :
    workspace.tree after = workspace.tree before := by
  ext1 path
  simp only [tree, loads.entryAt_eq, loads.view_eq]

theorem run_attempt_getManifest (storage : WorkspaceStorage) (id : EntryID) :
    ((getManifest id).attempt : WorkspaceCall _).run storage =
      some (.ok ((storage.manifests id).elim (.error (.localMiss id)) .ok), storage) := by
  rw [run_attempt, getManifest, run_observeOr]
  cases storage.manifests id <;> rfl

section Lookup

variable (workspace)

/-- Storing what was asked for, a load returns what is seen. -/
theorem run_loadLocalManifest (storage : WorkspaceStorage) (id : EntryID) :
    ∃ after, (workspace.loadLocalManifest id).run storage =
        some ((workspace.view storage id).mapError .remote, after) ∧ workspace.Loads storage after ∧
      ∀ manifest, workspace.view storage id = .ok manifest → after.manifests id = some manifest := by
  rw [loadLocalManifest, run_bind_of_ok _ (run_attempt_getManifest storage id)]
  cases stored : storage.manifests id with
  | some manifest =>
    refine ⟨storage, ?_, .refl, ?_⟩
    · rw [view_of_stored stored]
      rfl
    · intro other seen
      rw [view_of_stored stored] at seen
      cases seen
      exact stored
  | none =>
    cases asked : workspace.loadManifest id with
    | error error =>
      refine ⟨storage, ?_, .refl, ?_⟩
      · simp only [view, remoteManifest, stored, asked]
        rfl
      · intro other seen
        rw [view, stored, asked] at seen
        cases seen
    | ok remote =>
      refine ⟨_, ?_, Loads.refl.set stored asked, ?_⟩
      · simp only [view, remoteManifest, stored, asked]
        rfl
      · intro other seen
        rw [view, stored, asked] at seen
        cases seen
        simp only [WorkspaceStorage.set]
        rw [LocalEntryManifest.fromRemote_id, remote.2, Function.update_self]

/-- What a walk from an entry in the tree comes to. -/
theorem run_followNames (whole done rest : FsPath) (storage : WorkspaceStorage) (found : EntryID × Bool)
    (here : workspace.entryAt storage done = some found.1) :
    ∃ result after, (rest.foldlM (workspace.followName whole) found).run storage = some (result, after) ∧
      workspace.Loads storage after ∧ match result with
        | .ok next => workspace.entryAt storage (done ++ rest) = some next.1
        | .error error => (workspace.tree storage).resolve whole done rest = .error error := by
  induction rest generalizing storage done found with
  | nil =>
    refine ⟨.ok found, storage, rfl, .refl, ?_⟩
    rw [List.append_nil]
    exact here
  | cons name rest ih =>
    obtain ⟨loaded, played, loads, -⟩ := workspace.run_loadLocalManifest storage found.1
    have stands : (workspace.tree storage).node? done =
        some (.ofManifest (workspace.view storage found.1)) := by
      simp only [tree, here, Option.map_some]
    have fails {error : TransactionError}
        (raised : (workspace.followName whole found name).run storage = some (.error error, loaded)) :
        ((name :: rest).foldlM (workspace.followName whole) found).run storage =
          some (.error error, loaded) := by
      rw [List.foldlM_cons, run_bind_of_error _ raised]
    cases seen : workspace.view storage found.1 with
    | error error =>
      rw [seen] at played stands
      refine ⟨.error (.remote error), loaded, fails ?_, loads, ?_⟩
      · rw [followName, run_bind_of_error _ played]
      · rw [FileTree.resolve, stands]
        rfl
    | ok manifest =>
      rw [seen] at played stands
      cases manifest with
      | file manifest =>
        refine ⟨.error (.notADirectory whole), loaded, fails ?_, loads, ?_⟩
        · rw [followName, run_bind_of_ok _ played]
          rfl
        · rw [FileTree.resolve, stands]
          rfl
      | folder manifest =>
        cases child : manifest.children.get? name with
        | none =>
          refine ⟨.error (.fileNotFound whole), loaded, fails ?_, loads, ?_⟩
          · rw [followName, run_bind_of_ok _ played]
            simp only [child]
            rfl
          · have nothing : (workspace.tree storage).node? (done ++ [name]) = none := by
              have missing : workspace.edge storage found.1 name = none := by rw [edge, seen]; exact child
              simp only [tree]
              rw [entryAt, walk_concat, ← entryAt, here, Option.bind_some, missing]
              rfl
            rw [FileTree.resolve, stands]
            change (workspace.tree storage).resolve whole (done ++ [name]) rest = _
            cases rest <;> rw [FileTree.resolve, nothing] <;> rfl
        | some entryId =>
          have leads : workspace.edge storage found.1 name = some entryId := by rw [edge, seen]; exact child
          have reached : workspace.entryAt storage (done ++ [name]) = some entryId := by
            rw [entryAt, walk_concat, ← entryAt, here, Option.bind_some, leads]
          have followed : (workspace.followName whole found name).run storage = some
              (.ok (entryId, found.2 || decide (entryId ∈ manifest.confinedEntries)), loaded) := by
            rw [followName, run_bind_of_ok _ played]
            simp only [child]
            rfl
          obtain ⟨result, after, ends, later, comes⟩ := ih (done ++ [name]) loaded
            (entryId, found.2 || decide (entryId ∈ manifest.confinedEntries))
            (by rw [loads.entryAt_eq, reached])
          refine ⟨result, after, ?_, loads.trans later, ?_⟩
          · rw [List.foldlM_cons, run_bind_of_ok _ followed, ends]
          · rw [loads.entryAt_eq, loads.tree_eq] at comes
            cases result with
            | ok next =>
              rw [List.append_cons]
              exact comes
            | error error =>
              rw [FileTree.resolve, stands]
              exact comes

/-- The manifest that a path leads to, if it does. -/
theorem run_getManifestFromPath (storage : WorkspaceStorage) (path : FsPath) :
    ∃ result after, (workspace.getManifestFromPath path).run storage = some (result, after) ∧
      workspace.Loads storage after ∧ match result with
        | .ok found => ∃ entryId, workspace.entryAt storage path = some entryId ∧
            workspace.view storage entryId = .ok found.1 ∧ after.manifests entryId = some found.1
        | .error error => (workspace.tree storage).look path = .error error := by
  obtain ⟨result, walked, played, loads, comes⟩ := workspace.run_followNames path [] path
    storage (workspace.workspaceId, false) rfl
  rw [getManifestFromPath, entryIdFromPath]
  cases result with
  | error error =>
    refine ⟨.error error, walked, ?_, loads, comes⟩
    rw [run_bind_of_error _ played]
  | ok found =>
    obtain ⟨after, loaded, later, stored⟩ := workspace.run_loadLocalManifest walked found.1
    rw [loads.view_eq] at loaded stored
    have stands : (workspace.tree storage).node? path =
        some (.ofManifest (workspace.view storage found.1)) := by
      simp only [tree]
      rw [← List.nil_append path, comes]
      rfl
    cases seen : workspace.view storage found.1 with
    | error error =>
      rw [seen] at loaded stands
      refine ⟨.error (.remote error), after, ?_, loads.trans later, ?_⟩
      · rw [run_bind_of_ok _ played, run_bind_of_error _ loaded]
      · simp only
        rw [FileTree.look_of_node? stands]
        rfl
    | ok manifest =>
      rw [seen] at loaded
      refine ⟨.ok (manifest, found.2), after, ?_, loads.trans later, found.1, comes, seen,
        stored manifest seen⟩
      rw [run_bind_of_ok _ played, run_bind_of_ok _ loaded]
      rfl

end Lookup

end Workspace

end Guardata
