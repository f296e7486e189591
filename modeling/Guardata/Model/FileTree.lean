import Mathlib.Data.List.Infix
import Guardata.Model.WorkspaceTransactions

/-! # The tree of files that a workspace is meant to be

What a user of a workspace has in mind: at every path there is nothing, a file, or a folder. An entry whose
manifest cannot be had has a name and nothing else. The calls on paths are given here by what they do to such
a tree and by the errors that they raise; nothing is said of manifests and ids.
-/

namespace Guardata

inductive TreeNode where
  | file
  | folder
  /-- The manifest is asked for in vain. -/
  | unavailable (error : FSError)
deriving DecidableEq

/-- Only folders have something under them. -/
structure FileTree where
  node? : FsPath → Option TreeNode
  closed : ∀ path name, (node? (path ++ [name])).isSome → node? path = some .folder

namespace FileTree

@[ext] theorem ext {first second : FileTree} (same : ∀ path, first.node? path = second.node? path) :
    first = second := by
  obtain ⟨node?, closed⟩ := first
  obtain ⟨node?', closed'⟩ := second
  obtain rfl : node? = node?' := funext same
  rfl

variable (tree : FileTree)

/-- Everything above an entry is a folder. -/
theorem folder_above {tree : FileTree} {path rest : FsPath} (more : rest ≠ [])
    (stands : (tree.node? (path ++ rest)).isSome) : tree.node? path = some .folder := by
  induction rest using List.reverseRecOn with
  | nil => exact absurd rfl more
  | append_singleton rest name ih =>
    rw [← List.append_assoc] at stands
    have above := tree.closed _ _ stands
    by_cases last : rest = []
    · rw [last, List.append_nil] at above
      exact above
    · exact ih last (by rw [above]; rfl)

section Edits

/-- A new entry, where there is a place for one. -/
def insert (folder : FsPath) (name : EntryName) (node : TreeNode) : FileTree :=
  if place : tree.node? folder = some .folder ∧ tree.node? (folder ++ [name]) = none then {
    node? := fun path => if path = folder ++ [name] then some node else tree.node? path
    closed := by
      intro path last stands
      have old : path ++ [last] ≠ folder ++ [name] → (tree.node? (path ++ [last])).isSome := by
        intro other
        rwa [if_neg other] at stands
      by_cases new : path ++ [last] = folder ++ [name]
      · obtain ⟨rfl, -⟩ := List.append_inj' new rfl
        rw [if_neg (by simp)]
        exact place.1
      · have above := tree.closed path last (old new)
        rw [if_neg ?_, above]
        rintro rfl
        rw [place.2] at above
        cases above }
  else tree

theorem node?_insert {tree : FileTree} {folder path : FsPath} {name : EntryName} {node : TreeNode}
    (place : tree.node? folder = some .folder ∧ tree.node? (folder ++ [name]) = none) :
    (tree.insert folder name node).node? path =
      if path = folder ++ [name] then some node else tree.node? path := by
  rw [insert, dif_pos place]

/-- An entry goes, with all that is under it. -/
def remove (entry : FsPath) : FileTree where
  node? path := if entry <+: path then none else tree.node? path
  closed := by
    intro path name stands
    by_cases gone : entry <+: path ++ [name]
    · rw [if_pos gone] at stands
      cases stands
    · rw [if_neg gone] at stands
      rw [if_neg fun under => gone (under.trans (List.prefix_append _ _))]
      exact tree.closed path name stands

theorem node?_remove {tree : FileTree} {entry path : FsPath} :
    (tree.remove entry).node? path = if entry <+: path then none else tree.node? path := rfl

/-- An entry of a folder gets a new name, with all that is under it. What had the name goes. -/
def rename (folder : FsPath) (source destination : EntryName) : FileTree where
  node? path :=
    if folder ++ [destination] <+: path then
      tree.node? (folder ++ source :: path.drop (folder.length + 1))
    else if folder ++ [source] <+: path then none
    else tree.node? path
  closed := by
    intro path name stands
    by_cases moved : folder ++ [destination] <+: path
    · have longer : folder.length + 1 ≤ path.length := by
        have := moved.length_le
        rwa [List.length_append] at this
      rw [if_pos (moved.trans (List.prefix_append _ _)), List.drop_append_of_le_length longer] at stands
      rw [if_pos moved]
      refine tree.closed _ name ?_
      rw [List.append_assoc, List.cons_append]
      exact stands
    · by_cases here : folder ++ [destination] <+: path ++ [name]
      · -- The entry itself, in its folder.
        obtain same : folder ++ [destination] = path ++ [name] := by
          rcases List.prefix_concat_iff.mp here with same | under
          · exact same
          · exact absurd under moved
        obtain ⟨rfl, -⟩ := List.append_inj' same rfl
        rw [if_pos here, List.drop_eq_nil_of_le (by simp)] at stands
        have above : ¬ folder ++ [source] <+: folder := fun under => by
          have longer := under.length_le
          rw [List.length_append] at longer
          exact Nat.not_succ_le_self _ longer
        rw [if_neg moved, if_neg above]
        exact tree.closed _ _ stands
      · rw [if_neg here] at stands
        by_cases gone : folder ++ [source] <+: path ++ [name]
        · rw [if_pos gone] at stands
          cases stands
        · rw [if_neg gone] at stands
          rw [if_neg moved, if_neg fun under => gone (under.trans (List.prefix_append _ _))]
          exact tree.closed path name stands

theorem node?_rename {tree : FileTree} {folder path : FsPath} {source destination : EntryName} :
    (tree.rename folder source destination).node? path =
      if folder ++ [destination] <+: path then
        tree.node? (folder ++ source :: path.drop (folder.length + 1))
      else if folder ++ [source] <+: path then none
      else tree.node? path := rfl

end Edits

section Lookup

/-- What is at the end of a path. -/
def reach (whole : FsPath) : Option TreeNode → Except TransactionError TreeNode
  | none => .error (.fileNotFound whole)
  | some (.unavailable error) => .error (.remote error)
  | some node => .ok node

/-- Go on along a path, of which a part is done. -/
def resolve (whole : FsPath) (done : FsPath) : FsPath → Except TransactionError TreeNode
  | [] => reach whole (tree.node? done)
  | name :: rest => do
      match ← reach whole (tree.node? done) with
      | .folder => resolve whole (done ++ [name]) rest
      | _ => .error (.notADirectory whole)

/-- What a path leads to. -/
def look (path : FsPath) : Except TransactionError TreeNode := tree.resolve path [] path

/-- An entry that is there is looked at. -/
def lookAt : Option TreeNode → Except TransactionError (Option TreeNode)
  | some (.unavailable error) => .error (.remote error)
  | child => .ok child

/-- What stands at a path whose folder is about to be edited. -/
def lookToEdit (path : FsPath) : Except TransactionError (Option TreeNode) := do
  -- The root is in no folder.
  .require (path ≠ []) (.permission path)
  match ← tree.look path.parent with
  | .folder => lookAt (tree.node? path)
  | _ => .error (.notADirectory path.parent)

/-- Something stands under a path. -/
def HasChildren (path : FsPath) : Prop := ∃ name, (tree.node? (path ++ [name])).isSome

end Lookup

section Calls

def create (path : FsPath) (node : TreeNode) : Except TransactionError FileTree := do
  match ← tree.lookToEdit path with
  | some _ => .error (.fileExists path)
  | none => return tree.insert path.parent path.name node

def deleteFile (path : FsPath) : Except TransactionError FileTree := do
  match ← tree.lookToEdit path with
  | none => .error (.fileNotFound path)
  | some .file => return tree.remove path
  | some _ => .error (.isADirectory path)

open scoped Classical in
noncomputable def deleteFolder (path : FsPath) : Except TransactionError FileTree := do
  match ← tree.lookToEdit path with
  | none => .error (.fileNotFound path)
  | some .file => .error (.notADirectory path)
  | some _ =>
      .require (¬ tree.HasChildren path) (.directoryNotEmpty path)
      return tree.remove path

open scoped Classical in
/-- An entry may take the place of a file if it is one, and of an empty folder if it is a folder. -/
noncomputable def takePlace (source : TreeNode) (destination : FsPath) :
    Option TreeNode → Except TransactionError Unit
  | none => .ok ()
  | some child =>
      match source, child with
      | .file, .folder => .error (.isADirectory destination)
      | .folder, .file => .error (.notADirectory destination)
      | .folder, .folder => .require (¬ tree.HasChildren destination) (.directoryNotEmpty destination)
      | _, _ => .ok ()

/-- The entry that a rename is about; it has to be available only if it is to take a place. -/
def lookToRename (source : FsPath) (overwrite : Bool) : Except TransactionError Unit :=
  if overwrite then do
    let _ ← tree.look source
    return ()
  else return ()

noncomputable def renameEntry (source destination : FsPath) (overwrite : Bool) : Except TransactionError FileTree := do
  .require (source ≠ []) (.permission source)
  .require (destination ≠ []) (.permission destination)
  .require (source.parent = destination.parent) (.crossDevice source destination)
  tree.lookToRename source overwrite
  let child ← tree.lookToEdit destination
  match tree.node? source with
  | none => .error (.fileNotFound source)
  | some node =>
      if source = destination then return tree
      else do
        .require (overwrite ∨ child = none) (.fileExists destination)
        tree.takePlace node destination child
        return tree.rename source.parent source.name destination.name

/-- Who may write. -/
def checkWrite (role : Option RealmRole) (path : FsPath) : Except TransactionError Unit := do
  .require role.isSome (.noAccess path)
  .require (role ∈ canWriteRoles) (.readOnly path)

end Calls

end FileTree

end Guardata
