import Guardata.Soundness.FolderBookkeeping

/-! # From the manifests to the tree of files

The calls on paths, once the lock has found the folder and the child that the tree shows. The change of the
folder's manifest changes the walks behind it and no others, as long as the ids that can be reached make up a
tree, and the checks decide by the manifests what the tree decides by its nodes.
-/

namespace Guardata

open Machine Coroutine EdgeWalks LocalFolderishManifest EntryTransactions

namespace Workspace

variable {workspace : Workspace} {before storage after : WorkspaceStorage} {path : FsPath}

/-- The ids that can be reached make up a tree, and all of them have been drawn. -/
structure Sound (workspace : Workspace) (storage : WorkspaceStorage) : Prop where
  tree : Treelike (workspace.edge storage) workspace.workspaceId
  drawn : ∀ path id, workspace.entryAt storage path = some id → id < storage.nextId

theorem Loads.sound (loads : workspace.Loads before after) (sound : workspace.Sound before) :
    workspace.Sound after := by
  constructor
  · rw [loads.edge_eq]
    exact sound.tree
  · intro path id reached
    rw [loads.entryAt_eq] at reached
    rw [loads.nextId]
    exact sound.drawn path id reached

/-- Of the entries that could be reached, one folder has been changed. -/
structure Swaps (workspace : Workspace) (before after : WorkspaceStorage) (parentId : EntryID)
    (parent next : LocalFolderishManifest) : Prop where
  stored : before.manifests parentId = some (.folder parent)
  changed : after.manifests parentId = some (.folder next)
  others : ∀ path id, workspace.entryAt before path = some id → id ≠ parentId →
    after.manifests id = before.manifests id

section Swap

variable {parentId id : EntryID} {parent next : LocalFolderishManifest} {front : FsPath} {last : EntryName}

theorem Swaps.changesAt (swaps : workspace.Swaps before after parentId parent next) :
    ChangesAt (workspace.edge before) (workspace.edge after) workspace.workspaceId parentId := by
  intro path id reached other
  funext name
  rw [edge, edge, view, view, swaps.others path id reached other]

theorem Swaps.edge_before (swaps : workspace.Swaps before after parentId parent next) :
    workspace.edge before parentId = parent.children.get? := by
  funext name
  rw [edge, view_of_stored swaps.stored]

theorem Swaps.edge_after (swaps : workspace.Swaps before after parentId parent next) :
    workspace.edge after parentId = next.children.get? := by
  funext name
  rw [edge, view_of_stored swaps.changed]

/-- A folder stays a folder. -/
theorem Swaps.node_eq (swaps : workspace.Swaps before after parentId parent next)
    (reached : workspace.entryAt before path = some id) :
    TreeNode.ofManifest (workspace.view after id) = .ofManifest (workspace.view before id) := by
  by_cases same : id = parentId
  · subst same
    rw [view_of_stored swaps.stored, view_of_stored swaps.changed]
    rfl
  · rw [view, view, swaps.others path id reached same]

/-- The walks that end where another one ended show what that one showed. -/
theorem Swaps.node?_eq (swaps : workspace.Swaps before after parentId parent next) {former : FsPath}
    (same : workspace.entryAt after path = workspace.entryAt before former) :
    (workspace.tree after).node? path = (workspace.tree before).node? former := by
  simp only [tree, same]
  cases reached : workspace.entryAt before former with
  | none => rfl
  | some id => rw [Option.map_some, Option.map_some, swaps.node_eq reached]

theorem Swaps.sound (swaps : workspace.Swaps before after parentId parent next)
    (sound : workspace.Sound before) (here : workspace.entryAt before front = some parentId)
    {former : EntryName → Option EntryName}
    (renames : Renames (workspace.edge before) (workspace.edge after) parentId former)
    (nextId : after.nextId = before.nextId) : workspace.Sound after := by
  refine ⟨sound.tree.rename swaps.changesAt here renames, fun path id reached => ?_⟩
  obtain ⟨former, before⟩ := renames.reached sound.tree swaps.changesAt here reached
  rw [nextId]
  exact sound.drawn former id before

theorem Swaps.sound_remove (swaps : workspace.Swaps before after parentId parent next)
    (sound : workspace.Sound before) (here : workspace.entryAt before front = some parentId)
    (removed : ∀ name, next.children.get? name = if name = last then none else parent.children.get? name)
    (nextId : after.nextId = before.nextId) : workspace.Sound after := by
  have renames : Renames (workspace.edge before) (workspace.edge after) parentId
      fun name => if name = last then none else some name := by
    constructor
    · intro name
      rw [swaps.edge_after, swaps.edge_before, removed]
      dsimp only
      split <;> rfl
    · intro first second old atFirst atSecond
      simp only [ite_eq_iff, reduceCtorEq, and_false, false_or, Option.some.injEq] at atFirst atSecond
      exact atFirst.2.trans atSecond.2.symm
  exact swaps.sound sound here renames nextId

theorem Swaps.tree_remove (swaps : workspace.Swaps before after parentId parent next)
    (sound : workspace.Sound before) (here : workspace.entryAt before front = some parentId)
    (removed : ∀ name, next.children.get? name = if name = last then none else parent.children.get? name) :
    workspace.tree after = (workspace.tree before).remove (front ++ [last]) := by
  ext1 path
  rw [FileTree.node?_remove]
  by_cases behind : Behind front path
  · obtain ⟨name, rest, rfl⟩ := behind
    simp only [prefix_behind_iff]
    split
    · next same =>
      have cut : workspace.edge after parentId name = none := by
        rw [swaps.edge_after, removed, if_pos same.symm]
      simp only [tree]
      rw [entryAt, walk_cut sound.tree swaps.changesAt here cut]
      rfl
    · next other =>
      refine swaps.node?_eq (walk_renamed sound.tree swaps.changesAt here ?_ rest)
      rw [swaps.edge_after, swaps.edge_before, removed, if_neg (Ne.symm other)]
  · rw [if_neg fun under => behind (behind_of_starts under)]
    exact swaps.node?_eq (walk_outside sound.tree swaps.changesAt here behind)

theorem Swaps.sound_rename (swaps : workspace.Swaps before after parentId parent next)
    (sound : workspace.Sound before) (here : workspace.entryAt before front = some parentId)
    {source destination : EntryName}
    (renamed : ∀ name, next.children.get? name = if name = destination then parent.children.get? source
      else if name = source then none else parent.children.get? name)
    (nextId : after.nextId = before.nextId) : workspace.Sound after := by
  have renames : Renames (workspace.edge before) (workspace.edge after) parentId
      fun name => if name = destination then some source else if name = source then none else some name := by
    constructor
    · intro name
      rw [swaps.edge_after, swaps.edge_before, renamed]
      dsimp only
      split
      · rfl
      · split <;> rfl
    · intro first second old atFirst atSecond
      simp only [ite_eq_iff, reduceCtorEq, and_false, false_or, Option.some.injEq] at atFirst atSecond
      rcases atFirst with ⟨rfl, rfl⟩ | ⟨-, kept, rfl⟩ <;> rcases atSecond with ⟨rfl, same⟩ | ⟨-, kept', same⟩
      · rfl
      · exact absurd same kept'
      · exact absurd same.symm kept
      · exact same.symm
  exact swaps.sound sound here renames nextId

theorem Swaps.tree_rename (swaps : workspace.Swaps before after parentId parent next)
    (sound : workspace.Sound before) (here : workspace.entryAt before front = some parentId)
    {source destination : EntryName}
    (renamed : ∀ name, next.children.get? name = if name = destination then parent.children.get? source
      else if name = source then none else parent.children.get? name) :
    workspace.tree after = (workspace.tree before).rename front source destination := by
  ext1 path
  rw [FileTree.node?_rename]
  by_cases behind : Behind front path
  · obtain ⟨name, rest, rfl⟩ := behind
    simp only [prefix_behind_iff]
    have rest_eq : (front ++ name :: rest).drop (front.length + 1) = rest := by
      rw [List.append_cons, List.drop_left' (by simp)]
    rw [rest_eq]
    split
    · next same =>
      refine swaps.node?_eq (walk_renamed sound.tree swaps.changesAt here ?_ rest)
      rw [swaps.edge_after, swaps.edge_before, renamed, if_pos same.symm]
    · next other =>
      split
      · next gone =>
        have cut : workspace.edge after parentId name = none := by
          rw [swaps.edge_after, renamed, if_neg (Ne.symm other), if_pos gone.symm]
        simp only [tree]
        rw [entryAt, walk_cut sound.tree swaps.changesAt here cut]
        rfl
      · next untouched =>
        refine swaps.node?_eq (walk_renamed sound.tree swaps.changesAt here ?_ rest)
        rw [swaps.edge_after, swaps.edge_before, renamed, if_neg (Ne.symm other),
          if_neg (Ne.symm untouched)]
  · rw [if_neg fun under => behind (behind_of_starts under),
      if_neg fun under => behind (behind_of_starts under)]
    exact swaps.node?_eq (walk_outside sound.tree swaps.changesAt here behind)

/-- A new entry that has nothing in it. -/
structure Adds (workspace : Workspace) (before after : WorkspaceStorage) (parentId : EntryID)
    (parent next : LocalFolderishManifest) (last : EntryName) (leaf : EntryID)
    (manifest : LocalEntryManifest) : Prop extends workspace.Swaps before after parentId parent next where
  absent : parent.children.get? last = none
  added : ∀ name, next.children.get? name = if name = last then some leaf else parent.children.get? name
  fresh : ∀ path, workspace.entryAt before path ≠ some leaf
  leaf : after.manifests leaf = some manifest
  bare : manifest.kind = .file ∨ manifest.kind = .folder false

theorem Adds.grows {leaf : EntryID} {manifest : LocalEntryManifest}
    (adds : workspace.Adds before after parentId parent next last leaf manifest) :
    Grows (workspace.edge before) (workspace.edge after) workspace.workspaceId parentId last leaf where
  grown := by rw [adds.edge_after, adds.added, if_pos rfl]
  others other different := by rw [adds.edge_after, adds.edge_before, adds.added, if_neg different]
  fresh := adds.fresh
  bare name := by
    rw [edge, view_of_stored adds.leaf]
    cases manifest with
    | file manifest => rfl
    | folder manifest =>
      obtain same | same := adds.bare
      · cases same
      · have empty : manifest.children = ∅ := by
          rw [Dict.eq_empty_iff]
          simpa [LocalEntryManifest.kind] using same
        simp only [empty, Dict.get?_empty]

theorem Adds.tree_insert {leaf : EntryID} {manifest : LocalEntryManifest}
    (adds : workspace.Adds before after parentId parent next last leaf manifest)
    (sound : workspace.Sound before) (here : workspace.entryAt before front = some parentId) :
    workspace.tree after = (workspace.tree before).insert front last (.ofManifest (.ok manifest)) := by
  have place : (workspace.tree before).node? front = some .folder ∧
      (workspace.tree before).node? (front ++ [last]) = none := by
    constructor
    · simp only [tree, here, Option.map_some, view_of_stored adds.stored]
      rfl
    · simp only [tree]
      rw [entryAt, walk_concat, ← entryAt, here, Option.bind_some, adds.edge_before, adds.absent]
      rfl
  ext1 path
  rw [FileTree.node?_insert place]
  by_cases behind : Behind front path
  · obtain ⟨name, rest, rfl⟩ := behind
    by_cases same : name = last
    · subst same
      have leads := walk_leaf sound.tree adds.changesAt here adds.grows.grown adds.grows.bare rest
      cases rest with
      | nil =>
        rw [if_pos rfl] at leads ⊢
        simp only [tree, entryAt, leads, Option.map_some, view_of_stored adds.leaf]
      | cons next rest =>
        rw [if_neg (List.cons_ne_nil _ _)] at leads
        rw [if_neg (by simp)]
        have nothing : ((workspace.tree before).node? (front ++ name :: next :: rest)) = none := by
          by_contra stands
          rw [List.append_cons] at stands
          have above := FileTree.folder_above (List.cons_ne_nil next rest) (Option.isSome_iff_ne_none.mpr stands)
          rw [place.2] at above
          cases above
        rw [nothing]
        simp only [tree, entryAt, leads]
        rfl
    · rw [if_neg (by simp [same])]
      refine adds.node?_eq (walk_renamed sound.tree adds.changesAt here ?_ rest)
      rw [adds.edge_after, adds.edge_before, adds.added, if_neg same]
  · rw [if_neg (by rintro rfl; exact behind behind_append)]
    exact adds.node?_eq (walk_outside sound.tree adds.changesAt here behind)

theorem Adds.sound {leaf : EntryID} {manifest : LocalEntryManifest}
    (adds : workspace.Adds before after parentId parent next last leaf manifest)
    (sound : workspace.Sound before) (here : workspace.entryAt before front = some parentId)
    (nextId : after.nextId = leaf + 1) (drawn : leaf = before.nextId) : workspace.Sound after := by
  refine ⟨sound.tree.grow adds.changesAt here adds.grows, fun path id reached => ?_⟩
  rw [nextId]
  rcases adds.grows.reached sound.tree adds.changesAt here reached with ⟨-, rfl⟩ | before
  · exact Nat.lt_succ_self id
  · rw [drawn]
    exact Nat.lt_succ_of_lt (sound.drawn path id before)

end Swap

/-- A body comes to what is said of the tree. -/
def Comes {β : Type} (workspace : Workspace) (storage : WorkspaceStorage) (body : WorkspaceCall β)
    (returns : β → Prop) (outcome : Except TransactionError FileTree) : Prop :=
  ∃ after, workspace.Sound after ∧ match outcome with
    | .error error => body.run storage = some (.error error, after) ∧
        workspace.tree after = workspace.tree storage
    | .ok tree => workspace.tree after = tree ∧
        ∃ value, returns value ∧ body.run storage = some (.ok value, after)

section Comes

variable {α β : Type} {returns : β → Prop} {outcome : Except TransactionError FileTree}

theorem comes_error {body : WorkspaceCall β} {error : TransactionError} (sound : workspace.Sound storage)
    (loads : workspace.Loads storage after) (raised : body.run storage = some (.error error, after)) :
    Comes workspace storage body returns (.error error) :=
  ⟨after, loads.sound sound, raised, loads.tree_eq⟩

/-- A first part that only looks does not matter. -/
theorem Comes.bind {first : WorkspaceCall α} {rest : α → WorkspaceCall β} {value : α}
    (loads : workspace.Loads before storage) (played : first.run before = some (.ok value, storage))
    (comes : Comes workspace storage (rest value) returns outcome) :
    Comes workspace before (first >>= rest) returns outcome := by
  obtain ⟨after, sound, ends⟩ := comes
  refine ⟨after, sound, ?_⟩
  cases outcome with
  | error error =>
    rw [run_bind_of_ok _ played, ← loads.tree_eq]
    exact ends
  | ok tree =>
    obtain ⟨same, value, good, ends⟩ := ends
    exact ⟨same, value, good, (run_bind_of_ok _ played).trans ends⟩

theorem Comes.map {body : WorkspaceCall α} {change : α → β} {goodBefore : α → Prop}
    (good : ∀ value, goodBefore value → returns (change value))
    (comes : Comes workspace storage body goodBefore outcome) :
    Comes workspace storage (body >>= fun value => pure (change value)) returns outcome := by
  obtain ⟨after, sound, ends⟩ := comes
  refine ⟨after, sound, ?_⟩
  cases outcome with
  | error error => exact ⟨run_bind_of_error _ ends.1, ends.2⟩
  | ok tree =>
    obtain ⟨same, value, holds, played⟩ := ends
    exact ⟨same, change value, good value holds, run_bind_of_ok _ played⟩

variable (workspace) in
theorem run_checkWriteRights (path : FsPath) (storage : WorkspaceStorage) :
    (workspace.checkWriteRights path).run storage =
      some (FileTree.checkWrite workspace.role path, storage) := by
  rw [checkWriteRights, run_bind, checkReadRights, run_ofExcept]
  unfold FileTree.checkWrite Except.require
  split
  · exact run_ofExcept storage _
  · rfl

theorem comes_checkWrite {body : Unit → WorkspaceCall β} (sound : workspace.Sound storage)
    (comes : Comes workspace storage (body ()) returns outcome) :
    Comes workspace storage (workspace.checkWriteRights path >>= body) returns
      (FileTree.checkWrite workspace.role path >>= fun _ => outcome) := by
  have checked := workspace.run_checkWriteRights path storage
  cases allowed : FileTree.checkWrite workspace.role path with
  | ok done =>
    rw [allowed] at checked
    exact comes.bind .refl checked
  | error error =>
    rw [allowed] at checked
    exact comes_error sound .refl (run_bind_of_error _ checked)

/-- What is done under the lock is done to the tree that is looked at. -/
theorem comes_lockParent {body : LocalFolderishManifest → Option LocalEntryManifest → WorkspaceCall α}
    {edit : Option TreeNode → Except TransactionError FileTree} (attempts : ℕ)
    (sound : workspace.Sound before)
    (comes : ∀ storage parentId parent child, workspace.Loads before storage → workspace.Sound storage →
      Locked workspace storage path parentId parent child →
      Comes workspace storage (body parent child) (fun _ => True)
        (edit (child.map fun manifest => .ofManifest (.ok manifest)))) :
    Comes workspace before (workspace.lockParentManifestFromPath path body (attempts + 2))
      (fun value => value.isSome) ((workspace.tree before).lookToEdit path >>= edit) := by
  obtain ⟨storage, loads, ⟨error, raised, looked⟩ | ⟨parentId, parent, child, locked, played⟩⟩ :=
    workspace.run_lockParent body path attempts before
  · rw [looked]
    exact comes_error sound loads raised
  · have looked := locked.lookToEdit_eq
    rw [loads.tree_eq] at looked
    rw [looked, Except.ok_bind]
    obtain ⟨after, soundAfter, ends⟩ : Comes workspace storage
        (body parent child >>= fun value => pure (some value)) (fun value => value.isSome)
        (edit (child.map fun manifest => .ofManifest (.ok manifest))) :=
      (comes storage parentId parent child loads (loads.sound sound) locked).map fun _ _ => rfl
    refine ⟨after, soundAfter, ?_⟩
    rw [played, ← loads.tree_eq]
    exact ends

end Comes

section Edits

variable {parentId : EntryID} {parent : LocalFolderishManifest} {child : Option LocalEntryManifest}

theorem run_ofEntry {α : Type} (result : Except EntryError α) :
    (ofEntry path result).run storage =
      some (result.mapError (TransactionError.ofEntry path.parent), storage) := run_ofExcept _ _

/-- A folder has something under it if its manifest has children. -/
theorem hasChildren_iff {entryId : EntryID} {manifest : LocalFolderishManifest}
    (reached : workspace.entryAt storage path = some entryId)
    (stored : storage.manifests entryId = some (.folder manifest)) :
    (workspace.tree storage).HasChildren path ↔ (!manifest.children.items.isEmpty) = true := by
  have child (name : EntryName) : ((workspace.tree storage).node? (path ++ [name])).isSome ↔
      (manifest.children.get? name).isSome := by
    simp only [tree, Option.isSome_map]
    rw [entryAt, walk_concat, ← entryAt, reached, Option.bind_some, edge, view_of_stored stored]
  rw [FileTree.HasChildren, exists_congr child]
  cases items : manifest.children.items with
  | nil =>
    rw [Dict.eq_empty_iff.mpr items]
    simp
  | cons entry rest =>
    refine ⟨fun _ => rfl, fun _ => ⟨entry.1, ?_⟩⟩
    have stands : manifest.children.get? entry.1 = some entry.2 :=
      Dict.get?_eq_some_iff.mpr (by rw [items]; exact List.mem_cons_self)
    rw [stands]
    rfl

/-- The folder is set to its new version. -/
theorem swaps_set (locked : Locked workspace storage path parentId parent child)
    {next : LocalFolderishManifest} (base : next.base = parent.base) :
    workspace.Swaps storage (storage.set (.folder next)) parentId parent next := by
  have own : (LocalEntryManifest.folder next).id = parentId := by
    rw [← storage.keyed parentId _ locked.stored, LocalEntryManifest.id, LocalEntryManifest.id, base]
  refine ⟨locked.stored, ?_, fun _ id _ other => ?_⟩
  · simp only [WorkspaceStorage.set, own, Function.update_self]
  · simp only [WorkspaceStorage.set, own]
    exact Function.update_of_ne other _ _

/-- The checks of a deletion once the folder is locked. -/
def deleteLocked (tree : FileTree) (path : FsPath) (check : ChildKind → Except EntryError Unit) :
    Option LocalEntryManifest → Except TransactionError FileTree
  | none => .error (.fileNotFound path)
  | some manifest => do
      (check manifest.kind).mapError (TransactionError.ofEntry path.parent)
      return tree.remove path

theorem comes_delete (locked : Locked workspace storage path parentId parent child)
    (sound : workspace.Sound storage) (check : ChildKind → Except EntryError Unit) :
    Comes workspace storage
      (do
        let newParent ← ofEntry path <| EntryTransactions.entryDelete
          (fun _ => (child.map LocalEntryManifest.kind).getD .file) parent workspace.patternFilter
          workspace.now check path.name
        setManifest (.folder newParent)
        return child.map LocalEntryManifest.id)
      (fun _ => True) (deleteLocked (workspace.tree storage) path check child) := by
  have known := locked.child
  have whole := parent_append_name locked.named
  cases stands : parent.children.get? path.name with
  | none =>
    rw [stands] at known
    subst known
    refine comes_error sound .refl (run_bind_of_error _ ?_)
    rw [run_ofEntry, EntryTransactions.entryDelete, stands]
    simp only [Except.mapError, TransactionError.ofEntry, whole]
  | some entryId =>
    rw [stands] at known
    obtain ⟨manifest, rfl, stored⟩ := known
    rw [deleteLocked]
    have deleted (kindOf : EntryID → ChildKind) : EntryTransactions.entryDelete kindOf parent workspace.patternFilter
        workspace.now check path.name = (check (kindOf entryId) >>= fun _ =>
          evolveParent parent workspace.patternFilter workspace.now (.ofList [(path.name, none)])) := by
      rw [EntryTransactions.entryDelete, stands]
    cases checked : check manifest.kind with
    | error error =>
      refine comes_error sound .refl (run_bind_of_error _ ?_)
      rw [run_ofEntry, deleted]
      simp only [Option.map_some, Option.getD_some, checked]
      rfl
    | ok done =>
      have returns : ∃ next, parent.evolveChildrenAndMarkUpdated (.ofList [(path.name, none)])
          workspace.patternFilter workspace.now = .ok next := by
        rw [evolveChildren_returns_iff]
        intro added kept id adds
        rw [get?_single] at adds
        split at adds <;> cases adds
      obtain ⟨next, edited⟩ := returns
      have accepted : EntryTransactions.entryDelete (fun _ => manifest.kind) parent workspace.patternFilter
          workspace.now check path.name = .ok next := by
        rw [deleted, checked, Except.ok_bind, evolveParent, edited]
        rfl
      obtain ⟨base, ⟨-, removed⟩, -⟩ := edited_of_delete accepted
      have swaps := swaps_set locked base
      refine ⟨storage.set (.folder next), ?_, ?_, some manifest.id, trivial, ?_⟩
      · exact swaps.sound_remove sound locked.reached removed rfl
      · rw [swaps.tree_remove sound locked.reached removed, whole]
      · have ran : (ofEntry path (EntryTransactions.entryDelete (fun _ => manifest.kind) parent workspace.patternFilter
            workspace.now check path.name)).run storage = some (.ok next, storage) := by
          rw [run_ofEntry, accepted]
          rfl
        exact (run_bind_of_ok _ ran).trans (run_bind_of_ok _ (run_update _ _))

end Edits

section Create

variable {α : Type} {parentId : EntryID} {parent : LocalFolderishManifest} {child : Option LocalEntryManifest}

/-- The id that is drawn is new, so the folder can take it. -/
theorem entryCreate_returns (locked : Locked workspace storage path parentId parent child)
    (sound : workspace.Sound storage) (absent : parent.children.get? path.name = none) :
    ∃ next, EntryTransactions.entryCreate parent workspace.patternFilter workspace.now path.name
      storage.nextId = .ok next := by
  have fresh (name : EntryName) : parent.children.get? name ≠ some storage.nextId := by
    intro stands
    have reached : workspace.entryAt storage (path.parent ++ [name]) = some storage.nextId := by
      rw [entryAt, walk_concat, ← entryAt, locked.reached, Option.bind_some, locked.edge_eq, stands]
    exact absurd (sound.drawn _ _ reached) (Nat.lt_irrefl _)
  obtain ⟨next, edited⟩ : ∃ next, parent.evolveChildrenAndMarkUpdated
      (.ofList [(path.name, some storage.nextId)]) workspace.patternFilter workspace.now = .ok next := by
    rw [evolveChildren_returns_iff]
    intro added kept entryId adds keeps
    rw [get?_single] at adds
    split at adds
    · cases adds
      exact absurd keeps (fresh kept)
    · cases adds
  refine ⟨next, ?_⟩
  rw [EntryTransactions.entryCreate, Except.require, if_pos absent, Except.ok_bind, evolveParent, edited]
  rfl

/-- What is created, and what is done with it when it is there. -/
structure Creation (newPlaceholder : EntryID → EntryID → LocalEntryManifest)
    (finish : EntryID → WorkspaceCall α) (node : TreeNode) : Prop where
  own : ∀ parentId id, (newPlaceholder parentId id).id = id
  bare : ∀ parentId id, (newPlaceholder parentId id).kind = .file ∨
    (newPlaceholder parentId id).kind = .folder false
  node : ∀ parentId id, TreeNode.ofManifest (.ok (newPlaceholder parentId id)) = node
  finishes : ∀ id storage, ∃ value after, (finish id).run storage = some (.ok value, after) ∧
    after.manifests = storage.manifests ∧ after.nextId = storage.nextId

theorem comes_create {newPlaceholder : EntryID → EntryID → LocalEntryManifest}
    {finish : EntryID → WorkspaceCall α} {node : TreeNode} (creation : Creation newPlaceholder finish node)
    (locked : Locked workspace storage path parentId parent child) (sound : workspace.Sound storage) :
    Comes workspace storage
      (if child.isSome then .raise (.fileExists path)
      else do
        let childId ← newEntryId
        let newParent ← ofEntry path <| EntryTransactions.entryCreate parent workspace.patternFilter
          workspace.now path.name childId
        setManifest (newPlaceholder parent.base.id childId)
        setManifest (.folder newParent)
        finish childId)
      (fun _ => True)
      (match child with
        | some _ => .error (.fileExists path)
        | none => .ok ((workspace.tree storage).insert path.parent path.name node)) := by
  have known := locked.child
  cases child with
  | some manifest => exact comes_error sound .refl rfl
  | none =>
    have absent : parent.children.get? path.name = none := by
      cases stands : parent.children.get? path.name with
      | none => rfl
      | some entryId =>
        rw [stands] at known
        obtain ⟨_, impossible, -⟩ := known
        cases impossible
    obtain ⟨next, created⟩ := entryCreate_returns locked sound absent
    obtain ⟨base, ⟨-, added⟩, -⟩ := edited_of_create created
    have older : parentId < storage.nextId := sound.drawn _ _ locked.reached
    -- The child is stored first, and then the folder that shows it.
    let stored : WorkspaceStorage := ({ storage with nextId := storage.nextId + 1 } : WorkspaceStorage).set
      (newPlaceholder parent.base.id storage.nextId)
    obtain ⟨value, after, finished, manifests, nextId⟩ :=
      creation.finishes storage.nextId (stored.set (.folder next))
    have ownFolder : (LocalEntryManifest.folder next).id = parentId := by
      rw [← storage.keyed parentId _ locked.stored, LocalEntryManifest.id, LocalEntryManifest.id, base]
    have look (id : EntryID) : after.manifests id = if id = parentId then some (.folder next)
        else if id = storage.nextId then some (newPlaceholder parent.base.id storage.nextId)
        else storage.manifests id := by
      rw [manifests]
      simp only [stored, WorkspaceStorage.set, ownFolder, creation.own, Function.update_apply]
    have adds : workspace.Adds storage after parentId parent next path.name storage.nextId
        (newPlaceholder parent.base.id storage.nextId) :=
      { stored := locked.stored
        changed := by rw [look, if_pos rfl]
        others := fun path id reached other => by
          rw [look, if_neg other, if_neg (Nat.ne_of_lt (sound.drawn path id reached))]
        absent := absent
        added := added
        fresh := fun path reached => Nat.lt_irrefl _ (sound.drawn path _ reached)
        leaf := by rw [look, if_neg (Nat.ne_of_gt older), if_pos rfl]
        bare := creation.bare _ _ }
    refine ⟨after, adds.sound sound locked.reached nextId rfl, ?_, value, trivial, ?_⟩
    · rw [adds.tree_insert sound locked.reached, creation.node]
    · have ran : ((ofEntry path (EntryTransactions.entryCreate parent workspace.patternFilter
          workspace.now path.name storage.nextId)) : WorkspaceCall _).run
            ({ storage with nextId := storage.nextId + 1 } : WorkspaceStorage) =
          some (.ok next, { storage with nextId := storage.nextId + 1 }) := by
        rw [run_ofEntry, created]
        rfl
      rw [if_neg (by simp)]
      change ((ofEntry path (EntryTransactions.entryCreate parent workspace.patternFilter
          workspace.now path.name storage.nextId) >>= fun newParent =>
            setManifest (newPlaceholder parent.base.id storage.nextId) >>= fun _ =>
              setManifest (.folder newParent) >>= fun _ => finish storage.nextId) : WorkspaceCall α).run
          { storage with nextId := storage.nextId + 1 } = _
      rw [run_bind_of_ok _ ran]
      exact finished

end Create

section Rename

variable {parentId : EntryID} {parent : LocalFolderishManifest} {child : Option LocalEntryManifest}
  {source destination : FsPath} {overwrite : Bool}

variable (workspace) in
theorem run_fetchManifest (storage : WorkspaceStorage) (id : EntryID) :
    (workspace.fetchManifest id).run storage =
      some ((workspace.view storage id).mapError .remote, storage) := by
  rw [fetchManifest, run_bind_of_ok _ (run_attempt_getManifest storage id)]
  cases stored : storage.manifests id with
  | some manifest =>
    rw [view_of_stored stored]
    rfl
  | none =>
    simp only [view, stored, Option.elim_none]
    rw [remoteManifest, run_ofExcept]
    cases workspace.loadManifest id <;> rfl

/-- An entry beside the one whose folder is locked. -/
theorem Locked.entryAt_beside (locked : Locked workspace storage destination parentId parent child)
    (named : source ≠ []) (beside : source.parent = destination.parent) :
    workspace.entryAt storage source = parent.children.get? source.name := by
  rw [← parent_append_name named, entryAt, walk_concat, ← entryAt, beside, locked.reached, Option.bind_some,
    locked.edge_eq, ← beside, parent_append_name named]

/-- The entry stands under no other name, so the folder can take it under the new one. -/
theorem evolve_rename_returns (locked : Locked workspace storage destination parentId parent child)
    (sound : workspace.Sound storage) {entryId : EntryID}
    (stands : parent.children.get? source.name = some entryId) :
    ∃ next, parent.evolveChildrenAndMarkUpdated
      (.ofList [(destination.name, some entryId), (source.name, none)]) workspace.patternFilter
      workspace.now = .ok next := by
  rw [evolveChildren_returns_iff]
  intro added kept id adds keeps
  have same : id = entryId := by
    rw [get?_pair] at adds
    split at adds
    · cases adds
    · split at adds <;> cases adds
      rfl
  subst same
  have reached {name : EntryName} (found : parent.children.get? name = some id) :
      workspace.entryAt storage (destination.parent ++ [name]) = some id := by
    rw [entryAt, walk_concat, ← entryAt, locked.reached, Option.bind_some, locked.edge_eq, found]
  obtain ⟨-, unique⟩ := List.append_inj' (sound.tree _ _ id (reached keeps) (reached stands)) rfl
  obtain ⟨rfl, -⟩ := List.cons.inj unique
  have mentioned : (Dict.ofList [(destination.name, some id), (source.name, none)]).get? source.name =
      some none := by rw [get?_pair, if_pos rfl]
  exact Dict.mem_keys_iff.mpr ⟨none, mentioned⟩

/-- Once all checks have passed. -/
theorem comes_move (locked : Locked workspace storage destination parentId parent child)
    (sound : workspace.Sound storage) (beside : source.parent = destination.parent)
    (different : source.name ≠ destination.name) {entryId : EntryID}
    (stands : parent.children.get? source.name = some entryId) {kindOf : EntryID → ChildKind}
    (checked : EntryTransactions.checkDestination kindOf parent entryId destination.name overwrite = .ok ()) :
    Comes workspace storage
      (do
        let newParent ← ofEntry destination <| EntryTransactions.entryRename kindOf parent
          workspace.patternFilter workspace.now source.name destination.name overwrite
        if source.name = destination.name then return none
        else
          setManifest (.folder newParent)
          return parent.children.get? source.name)
      (fun _ => True)
      (.ok ((workspace.tree storage).rename source.parent source.name destination.name)) := by
  obtain ⟨next, edited⟩ := evolve_rename_returns locked sound stands
  have accepted : EntryTransactions.entryRename kindOf parent workspace.patternFilter workspace.now
      source.name destination.name overwrite = .ok next := by
    rw [EntryTransactions.entryRename, stands]
    simp only
    rw [if_neg different, checked, Except.ok_bind, evolveParent, edited]
    rfl
  obtain ⟨base, ⟨id, stands', renamed⟩, -⟩ := edited_of_rename accepted
  have swaps := swaps_set locked base
  rw [← stands'] at renamed
  refine ⟨storage.set (.folder next), swaps.sound_rename sound locked.reached renamed rfl, ?_,
    parent.children.get? source.name, trivial, ?_⟩
  · rw [swaps.tree_rename sound locked.reached renamed, beside]
  · have ran : ((ofEntry destination (EntryTransactions.entryRename kindOf parent workspace.patternFilter
        workspace.now source.name destination.name overwrite)) : WorkspaceCall _).run storage =
          some (.ok next, storage) := by
      rw [run_ofEntry, accepted]
      rfl
    rw [run_bind_of_ok _ ran, if_neg different]
    exact run_bind_of_ok _ (run_update _ _)

/-- The kinds of two entries decide like what the tree shows of them. -/
theorem checkOverwrite_eq {manifest other : LocalEntryManifest} {entryId : EntryID}
    (reached : workspace.entryAt storage destination = some entryId) (named : destination ≠ [])
    (stored : storage.manifests entryId = some other) :
    (EntryTransactions.checkOverwrite manifest.kind other.kind destination.name).mapError
        (TransactionError.ofEntry destination.parent) =
      (workspace.tree storage).takePlace (.ofManifest (.ok manifest)) destination
        (some (.ofManifest (.ok other))) := by
  have whole := parent_append_name named
  cases manifest <;> cases other with
  | file other =>
    simp only [EntryTransactions.checkOverwrite, LocalEntryManifest.kind, TreeNode.ofManifest,
      FileTree.takePlace, Except.mapError, TransactionError.ofEntry, whole]
  | folder other =>
    have children := hasChildren_iff reached stored
    cases something : !other.children.items.isEmpty <;> rw [something] at children <;>
      simp [EntryTransactions.checkOverwrite, LocalEntryManifest.kind, TreeNode.ofManifest,
        FileTree.takePlace, Except.mapError, TransactionError.ofEntry, whole, something, children,
        Except.require]

end Rename

section RenameChild

variable {parentId sourceId : EntryID} {parent : LocalFolderishManifest} {child : Option LocalEntryManifest}
  {source destination : FsPath} {overwrite : Bool}

/-- The checks that a rename makes once the folder is locked. -/
noncomputable def renameLocked (tree : FileTree) (source destination : FsPath) (overwrite : Bool)
    (child : Option TreeNode) : Except TransactionError FileTree :=
  match tree.node? source with
  | none => .error (.fileNotFound source)
  | some node =>
      if source = destination then return tree
      else do
        .require (overwrite ∨ child = none) (.fileExists destination)
        tree.takePlace node destination child
        return tree.rename source.parent source.name destination.name

theorem same_iff (named : source ≠ []) (named' : destination ≠ [])
    (beside : source.parent = destination.parent) : source = destination ↔ source.name = destination.name := by
  refine ⟨fun same => same ▸ rfl, fun same => ?_⟩
  rw [← parent_append_name named, ← parent_append_name named', beside, same]

theorem Locked.child_eq_none_iff (locked : Locked workspace storage path parentId parent child) :
    child = none ↔ parent.children.get? path.name = none := by
  have known := locked.child
  cases stands : parent.children.get? path.name with
  | none =>
    rw [stands] at known
    exact iff_of_true known rfl
  | some entryId =>
    rw [stands] at known
    obtain ⟨manifest, rfl, -⟩ := known
    exact iff_of_false (Option.some_ne_none manifest) (Option.some_ne_none entryId)

theorem Locked.exists_entry {manifest : LocalEntryManifest}
    (locked : Locked workspace storage path parentId parent (some manifest)) :
    ∃ entryId, parent.children.get? path.name = some entryId ∧ storage.manifests entryId = some manifest := by
  have known := locked.child
  cases stands : parent.children.get? path.name with
  | none =>
    rw [stands] at known
    cases known
  | some entryId =>
    rw [stands] at known
    obtain ⟨_, same, stored⟩ := known
    cases same
    exact ⟨entryId, rfl, stored⟩

/-- The error that both come to. -/
theorem comes_refused {kindOf : EntryID → ChildKind} {error : EntryError} (sound : workspace.Sound storage)
    (kinds : (workspace.renamedKinds parent child source.name destination.name overwrite).run storage =
      some (.ok kindOf, storage))
    (refused : EntryTransactions.entryRename kindOf parent workspace.patternFilter workspace.now source.name
      destination.name overwrite = .error error) :
    Comes workspace storage (workspace.renameChild source destination overwrite parent child)
      (fun _ => True) (.error (TransactionError.ofEntry destination.parent error)) := by
  refine comes_error sound .refl ((run_bind_of_ok _ kinds).trans (run_bind_of_error _ ?_))
  rw [run_ofEntry, refused]
  rfl

theorem comes_rename_missing (sound : workspace.Sound storage) (named : source ≠ [])
    (beside : source.parent = destination.parent) (absent : parent.children.get? source.name = none) :
    Comes workspace storage (workspace.renameChild source destination overwrite parent child)
      (fun _ => True) (.error (.fileNotFound source)) := by
  have kinds : (workspace.renamedKinds parent child source.name destination.name overwrite).run storage =
      some (.ok fun _ => .file, storage) := by
    simp only [renamedKinds, absent, run_pure]
  have missing : EntryTransactions.entryRename (fun _ => .file) parent workspace.patternFilter
      workspace.now source.name destination.name overwrite = .error (.fileNotFound source.name) := by
    rw [EntryTransactions.entryRename, absent]
  have raised := comes_refused sound kinds missing
  rw [TransactionError.ofEntry, ← beside, parent_append_name named] at raised
  exact raised

theorem comes_rename_same (locked : Locked workspace storage source parentId parent child)
    (sound : workspace.Sound storage) (stands : parent.children.get? source.name = some sourceId) :
    Comes workspace storage (workspace.renameChild source source overwrite parent child)
      (fun _ => True) (.ok (workspace.tree storage)) := by
  obtain ⟨kindOf, kinds⟩ : ∃ kindOf, (workspace.renamedKinds parent child source.name source.name
      overwrite).run storage = some (.ok kindOf, storage) := by
    cases child with
    | none => exact ⟨fun _ => .file, by simp only [renamedKinds, stands, run_pure]⟩
    | some manifest =>
      refine ⟨fun _ => manifest.kind, ?_⟩
      simp only [renamedKinds, stands, ne_eq, not_true_eq_false, false_and, if_false, run_pure]
  have accepted : EntryTransactions.entryRename kindOf parent workspace.patternFilter workspace.now
      source.name source.name overwrite = .ok parent := by
    simp only [EntryTransactions.entryRename, stands, if_true]
  have ran : ((ofEntry source (EntryTransactions.entryRename kindOf parent workspace.patternFilter
      workspace.now source.name source.name overwrite)) : WorkspaceCall _).run storage =
        some (.ok parent, storage) := by
    rw [run_ofEntry, accepted]
    rfl
  refine ⟨storage, sound, rfl, none, trivial, ?_⟩
  rw [renameChild, run_bind_of_ok _ kinds, run_bind_of_ok _ ran, if_pos rfl]
  rfl

/-- Something is in the way. -/
theorem comes_rename_taken {manifest : LocalEntryManifest}
    (locked : Locked workspace storage destination parentId parent (some manifest))
    (sound : workspace.Sound storage) (named : source ≠ []) (beside : source.parent = destination.parent)
    (different : source ≠ destination) (stands : parent.children.get? source.name = some sourceId)
    (available : overwrite = true → ∃ manifest, workspace.view storage sourceId = .ok manifest) :
    Comes workspace storage (workspace.renameChild source destination overwrite parent (some manifest))
      (fun _ => True) (do
        .require (overwrite ∨ some (TreeNode.ofManifest (.ok manifest)) = none) (.fileExists destination)
        (workspace.tree storage).takePlace (.ofManifest (workspace.view storage sourceId)) destination
          (some (.ofManifest (.ok manifest)))
        return (workspace.tree storage).rename source.parent source.name destination.name) := by
  have names : source.name ≠ destination.name :=
    fun equal => different ((same_iff named locked.named beside).mpr equal)
  have refused (kindOf : EntryID → ChildKind) {error : EntryError}
      (checked : EntryTransactions.checkDestination kindOf parent sourceId destination.name overwrite =
        .error error) : EntryTransactions.entryRename kindOf parent workspace.patternFilter workspace.now
          source.name destination.name overwrite = .error error := by
    rw [EntryTransactions.entryRename, stands]
    simp only
    rw [if_neg names, checked]
    rfl
  obtain ⟨destinationId, stands', stored⟩ := locked.exists_entry
  cases overwrite with
  | false =>
    have kinds : (workspace.renamedKinds parent (some manifest) source.name destination.name false).run
        storage = some (.ok fun _ => manifest.kind, storage) := by
      simp only [renamedKinds, stands, Bool.false_eq_true, and_false, if_false, run_pure]
    have occupied : EntryTransactions.checkDestination (fun _ => manifest.kind) parent sourceId
        destination.name false = .error (.fileExists destination.name) := by
      rw [EntryTransactions.checkDestination, stands']
      rfl
    have raised := comes_refused sound kinds (refused _ occupied)
    rw [TransactionError.ofEntry, parent_append_name locked.named] at raised
    exact raised
  | true =>
    -- The source has been fetched before.
    obtain ⟨sourceManifest, seen⟩ := available rfl
    have fetched := workspace.run_fetchManifest storage sourceId
    rw [seen] at fetched
    have kinds : (workspace.renamedKinds parent (some manifest) source.name destination.name true).run
        storage = some (.ok fun id => if id = sourceId then sourceManifest.kind else manifest.kind,
          storage) := by
      simp only [renamedKinds, stands, ne_eq, names, not_false_eq_true, and_self, if_true]
      exact run_bind_of_ok _ fetched
    have apart : destinationId ≠ sourceId := by
      rintro rfl
      have atSource : workspace.entryAt storage source = some destinationId := by
        rw [locked.entryAt_beside named beside, stands]
      have atDestination : workspace.entryAt storage destination = some destinationId := by
        rw [locked.entryAt_eq, stands']
      exact different (sound.tree _ _ _ atSource atDestination)
    have reached : workspace.entryAt storage destination = some destinationId := by
      rw [locked.entryAt_eq, stands']
    have checks : EntryTransactions.checkDestination
        (fun id => if id = sourceId then sourceManifest.kind else manifest.kind) parent sourceId
          destination.name true =
        EntryTransactions.checkOverwrite sourceManifest.kind manifest.kind destination.name := by
      simp only [EntryTransactions.checkDestination, stands', if_true, if_neg apart]
    rw [seen, ← checkOverwrite_eq reached locked.named stored, Except.require, if_pos (.inl rfl),
      Except.ok_bind]
    cases checked : EntryTransactions.checkOverwrite sourceManifest.kind manifest.kind destination.name with
    | ok done =>
      exact Comes.bind .refl kinds (comes_move locked sound beside names stands (checks.trans checked))
    | error error => exact comes_refused sound kinds (refused _ (checks.trans checked))

theorem comes_renameChild (locked : Locked workspace storage destination parentId parent child)
    (sound : workspace.Sound storage) (named : source ≠ []) (beside : source.parent = destination.parent)
    (available : overwrite = true → ∀ error,
      (workspace.tree storage).node? source ≠ some (.unavailable error)) :
    Comes workspace storage (workspace.renameChild source destination overwrite parent child)
      (fun _ => True)
      (renameLocked (workspace.tree storage) source destination overwrite
        (child.map fun manifest => .ofManifest (.ok manifest))) := by
  have here := locked.entryAt_beside named beside
  rw [renameLocked]
  rcases Option.eq_none_or_eq_some (parent.children.get? source.name) with absent | ⟨sourceId, stands⟩
  · have nothing : (workspace.tree storage).node? source = none := by
      simp only [tree, here, absent, Option.map_none]
    rw [nothing]
    exact comes_rename_missing sound named beside absent
  have shown : (workspace.tree storage).node? source =
      some (.ofManifest (workspace.view storage sourceId)) := by
    simp only [tree, here, stands, Option.map_some]
  rw [shown]
  simp only
  by_cases same : source = destination
  · subst same
    rw [if_pos rfl]
    exact comes_rename_same locked sound stands
  rw [if_neg same]
  cases child with
  | none =>
    have names : source.name ≠ destination.name :=
      fun equal => same ((same_iff named locked.named beside).mpr equal)
    have kinds : (workspace.renamedKinds parent none source.name destination.name overwrite).run storage =
        some (.ok fun _ => .file, storage) := by
      simp only [renamedKinds, stands, run_pure]
    rw [Option.map_none, Except.require, if_pos (.inr rfl), Except.ok_bind, FileTree.takePlace, Except.ok_bind]
    refine Comes.bind .refl kinds (comes_move locked sound beside names stands ?_)
    rw [EntryTransactions.checkDestination, locked.child_eq_none_iff.mp rfl]
  | some manifest =>
    refine comes_rename_taken locked sound named beside same stands fun overwrites => ?_
    cases seen : workspace.view storage sourceId with
    | ok sourceManifest => exact ⟨sourceManifest, rfl⟩
    | error error =>
      rw [seen] at shown
      exact absurd shown (available overwrites error)

end RenameChild

/-- Looking for the source before the rename. -/
theorem run_prefetchSource (source : FsPath) (overwrite : Bool) (storage : WorkspaceStorage) :
    ∃ after, workspace.Loads storage after ∧ (workspace.prefetchSource source overwrite).run storage =
      some ((workspace.tree storage).lookToRename source overwrite, after) := by
  unfold prefetchSource FileTree.lookToRename
  split
  · obtain ⟨result, after, played, loads, comes⟩ :=
      workspace.run_getManifestFromPath storage source
    refine ⟨after, loads, ?_⟩
    cases result with
    | ok found =>
      obtain ⟨entryId, reached, seen, -⟩ := comes
      have stands : (workspace.tree storage).node? source = some (.ofManifest (.ok found.1)) := by
        simp only [tree, reached, Option.map_some, seen]
      rw [run_bind_of_ok _ played, FileTree.look_of_node? stands]
      obtain ⟨manifest, confined⟩ := found
      cases manifest <;> rfl
    | error error =>
      rw [run_bind_of_error _ played, comes]
      rfl
  · exact ⟨storage, .refl, rfl⟩

end Workspace

end Guardata
