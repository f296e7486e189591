import Guardata.Proofs.FolderMerge

/-! # Identities of the folder merge

If one side changed nothing since the base, a merge is the other side, and if both sides are equal it is
that side. In all three cases every id that survives gets the name it has in the result, so no two names
clash and no suffix is needed.
-/

namespace Guardata.ConflictingChildren

/-- The children of a mapping, each under its name, are exactly those that a merge has to place. -/
structure Settles (conflict : ConflictingChildren) (target : Dict EntryName EntryID) : Prop where
  localSide : ∀ id name, conflict.rightfulNameOf id = .localSide name → target.get? name = some id
  remoteSide : ∀ id name suffixes, conflict.rightfulNameOf id = .remoteSide name suffixes →
    suffixes = [] ∧ target.get? name = some id
  reached : ∀ id name, target.get? name = some id →
    conflict.rightfulNameOf id = .localSide name ∨ conflict.rightfulNameOf id = .remoteSide name []

variable {normalize : String → String} {conflict : ConflictingChildren} {target : Dict EntryName EntryID}

/-- The name of an id in a mapping. -/
private def nameIn (target : Dict EntryName EntryID) (id : EntryID) : EntryName :=
  ((reversedChildren target).get? id).getD ""

private theorem nameIn_eq (unique : target.values.Nodup) {id : EntryID} {name : EntryName}
    (stands : target.get? name = some id) : nameIn target id = name := by
  rw [nameIn, (get?_reversedChildren unique).mpr stands]
  rfl

/-- The entries that a walk places are those of the mapping. -/
private theorem Settles.mem_entries_iff (settles : conflict.Settles target) {ids : List EntryID}
    (walk : conflict.IsWalk ids) (unique : target.values.Nodup) {entry : EntryName × EntryID} :
    entry ∈ placed (nameIn target) (ids.filterMap conflict.remoteChild?) ++
        placed (nameIn target) (ids.filterMap conflict.localChild?) ↔ target.get? entry.1 = some entry.2 := by
  simp only [placed, List.mem_append, List.mem_map, List.mem_filterMap, localChild?_eq_some_iff,
    remoteChild?_eq_some_iff]
  constructor
  · rintro (⟨child, ⟨id, -, rightful, same⟩, rfl⟩ | ⟨child, ⟨id, -, rightful, same⟩, rfl⟩)
    · have stands := (settles.remoteSide id child.1 child.2.2 rightful).2
      rw [same, nameIn_eq unique stands]
      exact stands
    · have stands := settles.localSide id child.1 rightful
      rw [same, nameIn_eq unique stands]
      exact stands
  · intro stands
    rcases settles.reached entry.2 entry.1 stands with rightful | rightful
    · have listed := (walk.2 entry.2).mpr (.inl (Dict.mem_values_iff.mpr ⟨_, get?_of_localSide rightful⟩))
      refine .inr ⟨(entry.1, entry.2, []), ⟨entry.2, listed, rightful, rfl⟩, ?_⟩
      simp only [nameIn_eq unique stands]
    · have listed := (walk.2 entry.2).mpr (.inr (Dict.mem_values_iff.mpr ⟨_, get?_of_remoteSide rightful⟩))
      refine .inl ⟨(entry.1, entry.2, []), ⟨entry.2, listed, rightful, rfl⟩, ?_⟩
      simp only [nameIn_eq unique stands]

/-- Whatever its walk, the merge returns that mapping. -/
theorem Settles.merged (settles : conflict.Settles target) (unique : target.values.Nodup)
    {ids : List EntryID} (walk : conflict.IsWalk ids) :
    ∃ children, mergeFolderChildren normalize conflict ids = .ok children ∧ children.Same target := by
  have remotes : ∀ entry ∈ ids.filterMap conflict.remoteChild?,
      fullName normalize entry.1 entry.2.2 = .ok (nameIn target entry.2.1) := by
    intro entry member
    obtain ⟨id, -, found⟩ := List.mem_filterMap.mp member
    obtain ⟨rightful, same⟩ := remoteChild?_eq_some_iff.mp found
    obtain ⟨bare, stands⟩ := settles.remoteSide id entry.1 entry.2.2 rightful
    rw [bare, same, nameIn_eq unique stands]
    exact if_pos rfl
  -- A taken name belongs to a remote child, so no local child has it.
  have free : ∀ entry ∈ ids.filterMap conflict.localChild?,
      entry.2.2 = [] ∧ nameIn target entry.2.1 = entry.1 ∧ entry.1 ∉ conflict.takenNames normalize := by
    intro entry member
    obtain ⟨id, -, found⟩ := List.mem_filterMap.mp member
    obtain ⟨rightful, same⟩ := localChild?_eq_some_iff.mp found
    have stands := settles.localSide id entry.1 rightful
    refine ⟨by rw [same], by rw [same, nameIn_eq unique stands], fun taken => ?_⟩
    obtain ⟨other, original, suffixes, remotely, full⟩ := mem_takenNames_iff.mp taken
    obtain ⟨rfl, there⟩ := settles.remoteSide other original suffixes remotely
    obtain rfl : original = entry.1 := Except.ok.inj full
    rw [there] at stands
    cases stands
    cases remotely.symm.trans rightful
  have locals : (ids.filterMap conflict.localChild?).Pairwise fun earlier later => earlier.1 ≠ later.1 :=
    List.pairwise_map.mp <| nodup_names walk.1 conflict.localChild? fun _ _ found =>
      get?_of_localSide (localChild?_eq_some_iff.mp found).1
  have keys := contains_of_foldlM_placeRemote walk (foldlM_placeRemote remotes ∅)
  have allowed : ∀ entry ∈ ids.filterMap conflict.localChild?, entry.2.2 = [] ∧
      (if entry.1 ∈ conflict.takenNames normalize then
        fullName normalize entry.1 ["conflicting with " ++ conflict.remoteDeviceName]
      else .ok entry.1) = .ok (nameIn target entry.2.1) := by
    intro entry member
    obtain ⟨bare, named, free⟩ := free entry member
    rw [if_neg free, named]
    exact ⟨bare, rfl⟩
  have apart : (ids.filterMap conflict.localChild?).Pairwise fun earlier later =>
      later.1 ∉ conflict.takenNames normalize → nameIn target earlier.2.1 ≠ later.1 := by
    refine locals.imp_of_mem fun before _ differ _ same => differ ?_
    rw [← (free _ before).2.1, same]
  have laid := foldlM_placeLocal allowed apart (fun name taken => (keys name).mpr taken)
    (fun entry _ present => (keys entry.1).mp present)
  have together : ((∅ : Dict EntryName EntryID).insertMany
      (placed (nameIn target) (ids.filterMap conflict.remoteChild?))).insertMany
        (placed (nameIn target) (ids.filterMap conflict.localChild?)) =
      Dict.ofList (placed (nameIn target) (ids.filterMap conflict.remoteChild?) ++
        placed (nameIn target) (ids.filterMap conflict.localChild?)) :=
    (List.foldl_append ..).symm
  rw [mergeFolderChildren_eq walk.1, foldlM_placeRemote remotes, Except.ok_bind, laid]
  refine ⟨_, rfl, fun name => Option.ext fun id => ?_⟩
  rw [together, Dict.get?_ofList_eq_some_iff, settles.mem_entries_iff walk unique]
  intro key first second atFirst atSecond
  rw [settles.mem_entries_iff walk unique] at atFirst atSecond
  exact Option.some.inj (atFirst.symm.trans atSecond)

section Cases

variable {baseName localName remoteName : Option EntryName} {remoteDeviceName : String}

theorem rightfulName_of_remote_kept :
    rightfulName baseName localName baseName remoteDeviceName = localName.elim .removed .localSide := by
  cases baseName <;> cases localName <;> simp [rightfulName]

theorem rightfulName_of_local_kept :
    rightfulName baseName baseName remoteName remoteDeviceName =
      remoteName.elim .removed fun name =>
        if baseName = some name then .localSide name else .remoteSide name [] := by
  cases remoteName with
  | none => cases baseName <;> rfl
  | some name =>
    cases baseName with
    | none => rfl
    | some before =>
      by_cases same : before = name
      · simp [rightfulName, same]
      · simp [rightfulName, same]

theorem rightfulName_of_same :
    rightfulName baseName localName localName remoteDeviceName = localName.elim .removed .localSide := by
  cases baseName <;> cases localName <;> simp [rightfulName]

end Cases

/-- If every id keeps its local name, the local children are what the merge comes to. -/
private theorem settles_local (unique : conflict.localChildren.values.Nodup)
    (stays : ∀ id, conflict.rightfulNameOf id =
      ((reversedChildren conflict.localChildren).get? id).elim .removed .localSide) :
    conflict.Settles conflict.localChildren where
  localSide _ _ rightful := get?_of_localSide rightful
  remoteSide id name suffixes rightful := by
    rw [stays] at rightful
    cases stands : (reversedChildren conflict.localChildren).get? id with
    | none =>
      rw [stands] at rightful
      cases rightful
    | some other =>
      rw [stands] at rightful
      cases rightful
  reached id name stands := by
    left
    rw [stays, (get?_reversedChildren unique).mpr stands]
    rfl

/-- If no id has another local name than in the base, the remote children are what the merge comes to. -/
private theorem settles_remote (unique : conflict.Unique)
    (stays : conflict.localChildren = conflict.baseChildren) : conflict.Settles conflict.remoteChildren := by
  have rightfulNames (id : EntryID) : conflict.rightfulNameOf id =
      ((reversedChildren conflict.remoteChildren).get? id).elim .removed fun name =>
        if (reversedChildren conflict.baseChildren).get? id = some name then .localSide name
        else .remoteSide name [] := by
    rw [rightfulNameOf, stays]
    exact rightfulName_of_local_kept
  constructor
  · intro id name rightful
    rw [rightfulNames] at rightful
    cases stands : (reversedChildren conflict.remoteChildren).get? id with
    | none =>
      rw [stands] at rightful
      cases rightful
    | some other =>
      rw [stands] at rightful
      simp only [Option.elim] at rightful
      split at rightful
      · cases rightful
        exact get?_of_reversedChildren stands
      · cases rightful
  · intro id name suffixes rightful
    have stands := get?_of_remoteSide rightful
    refine ⟨?_, stands⟩
    rw [rightfulNames, (get?_reversedChildren unique.remoteSide).mpr stands] at rightful
    simp only [Option.elim] at rightful
    split at rightful
    · cases rightful
    · cases rightful
      rfl
  · intro id name stands
    rw [rightfulNames, (get?_reversedChildren unique.remoteSide).mpr stands]
    simp only [Option.elim]
    split
    · exact .inl rfl
    · exact .inr rfl

/-- Whatever the walks and the device: a merge with the base on the remote side is the local side, one
with the base on the local side is the remote side, and one of two equal sides is either of them. -/
theorem merge_identities (normalize : String → String) (base left right : Dict EntryName EntryID)
    (uniqueBase : base.values.Nodup) (uniqueLeft : left.values.Nodup) (uniqueRight : right.values.Nodup)
    (remoteDeviceName : String) :
    (∀ ids, IsWalk ⟨base, left, base, remoteDeviceName⟩ ids →
      ∃ children, mergeFolderChildren normalize ⟨base, left, base, remoteDeviceName⟩ ids = .ok children ∧
        children.Same left) ∧
    (∀ ids, IsWalk ⟨base, base, right, remoteDeviceName⟩ ids →
      ∃ children, mergeFolderChildren normalize ⟨base, base, right, remoteDeviceName⟩ ids = .ok children ∧
        children.Same right) ∧
    ∀ ids, IsWalk ⟨base, left, left, remoteDeviceName⟩ ids →
      ∃ children, mergeFolderChildren normalize ⟨base, left, left, remoteDeviceName⟩ ids = .ok children ∧
        children.Same left := by
  refine ⟨fun ids walk => ?_, fun ids walk => ?_, fun ids walk => ?_⟩
  · have settles : Settles ⟨base, left, base, remoteDeviceName⟩ left :=
      settles_local uniqueLeft fun id => rightfulName_of_remote_kept
    exact settles.merged uniqueLeft walk
  · have settles : Settles ⟨base, base, right, remoteDeviceName⟩ right :=
      settles_remote ⟨uniqueBase, uniqueBase, uniqueRight⟩ rfl
    exact settles.merged uniqueRight walk
  · have settles : Settles ⟨base, left, left, remoteDeviceName⟩ left :=
      settles_local uniqueLeft fun id => rightfulName_of_same
    exact settles.merged uniqueLeft walk

private def original : Dict EntryName EntryID := Dict.ofList [("a", 1), ("b", 2)]

private def swapped : Dict EntryName EntryID := Dict.ofList [("a", 2), ("b", 1)]

/-- Two names are swapped on one side. -/
theorem merge_identities_swap :
    ∃ children, mergeFolderChildren id ⟨original, swapped, original, "bob@laptop"⟩ [1, 2] = .ok children ∧
      children.Same swapped := by
  have values : swapped.values = [2, 1] ∧ original.values = [1, 2] := by decide
  have walk : IsWalk ⟨original, swapped, original, "bob@laptop"⟩ [1, 2] := by
    refine ⟨by decide, fun child => ?_⟩
    simp only [values, List.mem_cons, List.not_mem_nil, or_false]
    tauto
  exact (merge_identities id original swapped original (by decide) (by decide) (by decide) "bob@laptop").1
    [1, 2] walk

end Guardata.ConflictingChildren
