import Guardata.Model.ParentChain
import Guardata.ToMathlib.FiniteWalk

/-! # When the loops over the parents end

Neither loop remembers where it has been, and nobody checks that the parents of the entries form a tree.
A loop ends, with a result or an error, unless the parents lead from the entry to one that comes back to
itself: each of them stored, or loaded, and none of them a reason to stop.
-/

namespace Guardata

open Relation

section Synchronization

variable (manifests : Dict EntryID LocalEntryManifest)

/-- The loop of a synchronization step goes on from an entry to its parent. -/
def ContinuesAbove (parent entryId : EntryID) : Prop :=
  ∃ manifest parentManifest, manifests.get? entryId = some manifest ∧ manifest.parent? = some parent ∧
    manifests.get? parent = some (.folder parentManifest) ∧ manifest.id ∉ parentManifest.confinedEntries

variable {manifests}

/-- One round of the loop. -/
theorem isSome_checkParentChain_succ (rounds : ℕ) (entryId : EntryID) :
    (checkParentChain manifests (rounds + 1) entryId).isSome ↔
      ∀ parent, ContinuesAbove manifests parent entryId → (checkParentChain manifests rounds parent).isSome := by
  constructor
  · rintro ends parent ⟨manifest, parentManifest, stored, named, held, free⟩
    rw [checkParentChain, held]
    simpa only [checkParentChain, stored, goThroughParentChain, named, held, if_pos free] using ends
  · intro goesOn
    cases stored : manifests.get? entryId with
    | none => rw [checkParentChain, stored]; rfl
    | some manifest =>
      simp only [checkParentChain, stored, goThroughParentChain]
      split
      · rfl
      · next parent named =>
        split
        · rfl
        · rfl
        · next parentManifest held =>
          split
          · next free =>
            have later := goesOn parent ⟨manifest, parentManifest, stored, named, held, free⟩
            rwa [checkParentChain, held] at later
          · rfl

/-- The loop ends unless it comes to an entry for the second time. -/
theorem checkParentChain_ends_iff {entryId : EntryID} :
    (∃ rounds, (checkParentChain manifests rounds entryId).isSome) ↔
      ¬ ComesBack (ContinuesAbove manifests) entryId := by
  have finite : {entryId | ∃ parent, ContinuesAbove manifests parent entryId}.Finite := by
    refine (List.finite_toSet manifests.keys).subset ?_
    rintro entryId ⟨parent, manifest, -, stored, -⟩
    exact Dict.mem_keys_iff.mpr ⟨manifest, stored⟩
  rw [← acc_iff_not_comesBack finite]
  refine @exists_rounds_iff_acc _ _ _ (fun rounds id => (checkParentChain manifests rounds id).isSome) ?_ ?_
    isSome_checkParentChain_succ
  · rintro entryId parent other ⟨manifest, -, stored, named, -⟩ ⟨same, -, stored', named', -⟩
    cases stored.symm.trans stored'
    exact Option.some.inj (named.symm.trans named')
  · rintro entryId parent ⟨manifest, -, stored, -⟩
    rw [checkParentChain, stored]
    exact Bool.false_ne_true

end Synchronization

section Path

variable (load : EntryID → Except FSError RemoteEntryManifest)

/-- The loop over the parts of a path goes on from an entry to its parent. -/
def ContinuesPath (parent entryId : EntryID) : Prop :=
  ∃ manifest parentManifest, load entryId = .ok manifest ∧ manifest.parent? = some parent ∧
    load parent = .ok (.folder parentManifest) ∧ entryId ∈ parentManifest.children.values

variable {load}

/-- Neither the names nor the entry that the path is for decide whether the loop ends. -/
theorem isSome_loopOverParts_congr {rounds : ℕ} {first second currentId : EntryID}
    {manifest : RemoteEntryManifest} {parts more : List EntryName} :
    (loopOverParts load first rounds currentId manifest parts).isSome =
      (loopOverParts load second rounds currentId manifest more).isSome := by
  induction rounds generalizing currentId manifest parts more with
  | zero => rfl
  | succ rounds ih =>
    simp only [loopOverParts]
    split
    · rfl
    · split
      · rfl
      · rfl
      · split
        · rfl
        · exact ih

/-- One round of the loop. -/
theorem isSome_getPathAtTimestamp_succ (rounds : ℕ) (entryId : EntryID) :
    (getPathAtTimestamp load entryId (rounds + 1)).isSome ↔
      ∀ parent, ContinuesPath load parent entryId → (getPathAtTimestamp load parent rounds).isSome := by
  constructor
  · rintro ends parent ⟨manifest, parentManifest, loaded, named, held, child⟩
    obtain ⟨name, found⟩ : ∃ name, parentManifest.children.items.find? (fun child => child.2 = entryId) =
        some (name, entryId) := by
      obtain ⟨entry, member, same⟩ := List.mem_map.mp child
      cases found : parentManifest.children.items.find? fun child => child.2 = entryId with
      | none => exact absurd (decide_eq_true same) (List.find?_eq_none.mp found entry member)
      | some other =>
        have same : other.2 = entryId := by simpa using List.find?_some found
        exact ⟨other.1, congrArg some (Prod.ext rfl same)⟩
    rw [getPathAtTimestamp, held]
    simp only [getPathAtTimestamp, loaded, loopOverParts, named, held, found] at ends
    rwa [isSome_loopOverParts_congr] at ends
  · intro goesOn
    cases loaded : load entryId with
    | error error => rw [getPathAtTimestamp, loaded]; rfl
    | ok manifest =>
      simp only [getPathAtTimestamp, loaded, loopOverParts]
      split
      · rfl
      · next parent named =>
        split
        · rfl
        · rfl
        · next parentManifest held =>
          split
          · rfl
          · next name child found =>
            have member := List.mem_of_find?_eq_some found
            have same : child = entryId := by simpa using List.find?_some found
            have later := goesOn parent ⟨manifest, parentManifest, loaded, named, held,
              List.mem_map.mpr ⟨_, member, same⟩⟩
            rw [getPathAtTimestamp, held] at later
            rwa [isSome_loopOverParts_congr] at later

/-- The loop ends unless it comes to an entry for the second time. -/
theorem getPathAtTimestamp_ends_iff {known : Finset EntryID}
    (bounded : ∀ id manifest, load id = .ok manifest → id ∈ known) {entryId : EntryID} :
    (∃ rounds, (getPathAtTimestamp load entryId rounds).isSome) ↔ ¬ ComesBack (ContinuesPath load) entryId := by
  have finite : {entryId | ∃ parent, ContinuesPath load parent entryId}.Finite := by
    refine known.finite_toSet.subset ?_
    rintro entryId ⟨parent, manifest, -, loaded, -⟩
    exact bounded entryId manifest loaded
  rw [← acc_iff_not_comesBack finite]
  refine @exists_rounds_iff_acc _ _ _ (fun rounds id => (getPathAtTimestamp load id rounds).isSome) ?_ ?_
    isSome_getPathAtTimestamp_succ
  · rintro entryId parent other ⟨manifest, -, loaded, named, -⟩ ⟨same, -, loaded', named', -⟩
    cases loaded.symm.trans loaded'
    exact Option.some.inj (named.symm.trans named')
  · rintro entryId parent ⟨manifest, -, loaded, -⟩
    rw [getPathAtTimestamp, loaded]
    exact Bool.false_ne_true

end Path

/-- For all manifests that are stored, and all that can be loaded, the loop of a synchronization step and
the loop of a path end if and only if no entry that the parents lead to comes back to itself. -/
theorem parent_walks_end_iff (manifests : Dict EntryID LocalEntryManifest)
    (load : EntryID → Except FSError RemoteEntryManifest) (known : Finset EntryID)
    (bounded : ∀ id manifest, load id = .ok manifest → id ∈ known) (entryId : EntryID) :
    ((∃ rounds outcome, checkParentChain manifests rounds entryId = some outcome) ↔
        ¬ ComesBack (ContinuesAbove manifests) entryId) ∧
      ((∃ rounds outcome, getPathAtTimestamp load entryId rounds = some outcome) ↔
        ¬ ComesBack (ContinuesPath load) entryId) := by
  simp only [← Option.isSome_iff_exists]
  exact ⟨checkParentChain_ends_iff, getPathAtTimestamp_ends_iff bounded⟩

section Example

private def folderOf (id : EntryID) (parent : Option EntryID) (children : List (EntryName × EntryID)) :
    RemoteEntryManifest :=
  .folder ⟨⟨"bob", "dev"⟩, 0, id, parent, 1, 0, 0, .ofList children⟩

/-- What is loaded if there are a workspace and one more entry. -/
private def loadTwo (entry : RemoteEntryManifest) (id : EntryID) : Except FSError RemoteEntryManifest :=
  if id = 0 then .ok (folderOf 0 none [("a", 1)]) else if id = 1 then .ok entry
  else .error (.remoteManifestNotFound id)

/-- A folder in the workspace. -/
theorem parent_walks_end_iff_folder : ¬ ComesBack (ContinuesPath (loadTwo (folderOf 1 (some 0) []))) 1 := by
  refine (parent_walks_end_iff ∅ _ {0, 1} ?_ 1).2.mp ⟨2, .ok ["a"], by decide⟩
  intro id manifest loaded
  unfold loadTwo at loaded
  split at loaded
  · next root => simp [root]
  · split at loaded
    · next entry => simp [entry]
    · cases loaded

/-- A folder that is its own parent and its own child. -/
private def ownParent : RemoteEntryManifest := folderOf 1 (some 1) [("a", 1)]

private def storedOwnParent : Dict EntryID LocalEntryManifest :=
  .ofList [(1, .fromRemote (fun _ => false) ownParent)]

/-- Neither loop ends on it. -/
theorem own_parent_never_ends :
    (¬ ∃ rounds outcome, checkParentChain storedOwnParent rounds 1 = some outcome) ∧
      ¬ ∃ rounds outcome, getPathAtTimestamp (loadTwo ownParent) 1 rounds = some outcome := by
  have chain (rounds : ℕ) :
      goThroughParentChain storedOwnParent rounds (.fromRemote (fun _ => false) ownParent) = none := by
    induction rounds with
    | zero => rfl
    | succ rounds ih => exact ih
  have path (rounds : ℕ) (parts : List EntryName) :
      loopOverParts (loadTwo ownParent) 1 rounds 1 ownParent parts = none := by
    induction rounds generalizing parts with
    | zero => rfl
    | succ rounds ih => exact ih (parts ++ ["a"])
  constructor
  · rintro ⟨rounds, outcome, ended⟩
    cases (chain rounds).symm.trans ended
  · rintro ⟨rounds, outcome, ended⟩
    cases (path rounds []).symm.trans ended

end Example

end Guardata
