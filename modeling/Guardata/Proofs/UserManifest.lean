import Guardata.Model.UserManifest

/-! # What a merge of user manifests does to each workspace

A workspace that one side has alone keeps its entry; where both sides have one, the entries are
merged field by field. `mergedWorkspace?` says so for one id. The rest of the module turns the loop over
a mapping, and the sort after it, into that statement.
-/

namespace Guardata

/-- No workspace is listed twice. -/
def UniqueWorkspaces (workspaces : List UserWorkspaceEntry) : Prop := (workspaces.map (·.id)).Nodup

/-- The entry of one workspace after a merge. -/
def mergedWorkspace? (base : List UserWorkspaceEntry) :
    Option UserWorkspaceEntry → Option UserWorkspaceEntry → Option UserWorkspaceEntry
  | none, target => target
  | some diverged, none => some diverged
  | some diverged, some target =>
      if target = diverged then some target
      else some (mergedWorkspaceEntry (getWorkspaceEntry base diverged.id) diverged target)

theorem WorkspaceEntry.eq_iff {left right : WorkspaceEntry} : left = right ↔
    left.key = right.key ∧ left.encryptionRevision = right.encryptionRevision := by
  cases left
  cases right
  simp

section Lookup

variable {workspaces : List UserWorkspaceEntry} {id : EntryID} {entry : UserWorkspaceEntry}

theorem getWorkspaceEntry_eq_some_iff (unique : UniqueWorkspaces workspaces) :
    getWorkspaceEntry workspaces id = some entry ↔ entry ∈ workspaces ∧ entry.id = id := by
  unfold getWorkspaceEntry
  constructor
  · intro found
    exact ⟨List.mem_of_find?_eq_some found, by simpa using List.find?_some found⟩
  · rintro ⟨member, rfl⟩
    induction workspaces with
    | nil => cases member
    | cons head rest ih =>
      obtain ⟨absent, unique⟩ := List.nodup_cons.mp unique
      rcases List.mem_cons.mp member with rfl | member
      · simp
      · have different : head.id ≠ entry.id := fun same =>
          absent (List.mem_map.mpr ⟨entry, member, same.symm⟩)
        simpa [different] using ih unique member

theorem getWorkspaceEntry_eq_none_iff :
    getWorkspaceEntry workspaces id = none ↔ id ∉ workspaces.map (·.id) := by
  simp [getWorkspaceEntry]

theorem getWorkspaceEntry_perm {other : List UserWorkspaceEntry} (unique : UniqueWorkspaces workspaces)
    (same : other.Perm workspaces) : getWorkspaceEntry other id = getWorkspaceEntry workspaces id := by
  have otherUnique : UniqueWorkspaces other := (same.map _).nodup_iff.mpr unique
  apply Option.ext
  intro entry
  rw [getWorkspaceEntry_eq_some_iff otherUnique, getWorkspaceEntry_eq_some_iff unique, same.mem_iff]

end Lookup

section ById

/-- A mapping has every entry under its own id. -/
def ById (entries : Dict EntryID UserWorkspaceEntry) : Prop :=
  ∀ id entry, entries.get? id = some entry → entry.id = id

variable {entries : Dict EntryID UserWorkspaceEntry} {workspaces : List UserWorkspaceEntry} {id : EntryID}

theorem ById.ids_values (byId : ById entries) : entries.values.map (·.id) = entries.keys := by
  rw [Dict.values, Dict.keys, List.map_map]
  refine List.map_congr_left fun item member => ?_
  exact byId item.1 item.2 (Dict.get?_eq_some_iff.mpr member)

theorem ById.unique_values (byId : ById entries) : UniqueWorkspaces entries.values := by
  rw [UniqueWorkspaces, byId.ids_values]
  exact entries.nodup_keys

theorem ById.getWorkspaceEntry_values (byId : ById entries) :
    getWorkspaceEntry entries.values id = entries.get? id := by
  apply Option.ext
  intro entry
  rw [getWorkspaceEntry_eq_some_iff byId.unique_values, Dict.mem_values_iff]
  constructor
  · rintro ⟨⟨key, found⟩, rfl⟩
    rwa [byId key entry found]
  · intro found
    exact ⟨⟨id, found⟩, byId id entry found⟩

theorem ById.insert (byId : ById entries) {entry : UserWorkspaceEntry} (same : entry.id = id) :
    ById (entries.insert id entry) := by
  intro key other found
  rw [Dict.get?_insert] at found
  split at found
  · next here =>
    cases found
    exact same.trans here.symm
  · exact byId key other found

theorem byId_workspacesById (workspaces : List UserWorkspaceEntry) : ById (workspacesById workspaces) := by
  intro id entry found
  rcases Dict.mem_of_get?_insertMany found with member | nothing
  · obtain ⟨other, -, same⟩ := List.mem_map.mp member
    cases same
    rfl
  · cases nothing

theorem get?_workspacesById (unique : UniqueWorkspaces workspaces) :
    (workspacesById workspaces).get? id = getWorkspaceEntry workspaces id := by
  have distinct : ((workspaces.map fun entry => (entry.id, entry)).map Prod.fst).Nodup := by
    rw [List.map_map]
    exact unique
  apply Option.ext
  intro entry
  rw [Dict.get?_eq_some_iff, workspacesById, Dict.items_ofList_of_nodup distinct,
    getWorkspaceEntry_eq_some_iff unique]
  simp only [List.mem_map, Prod.mk.injEq]
  constructor
  · rintro ⟨other, member, same, rfl⟩
    exact ⟨member, same⟩
  · rintro ⟨member, same⟩
    exact ⟨entry, member, same, rfl⟩

theorem unique_evolveWorkspaces (manifest : LocalUserManifest) (entry : UserWorkspaceEntry)
    (now : DateTime) :
    UniqueWorkspaces (manifest.evolveWorkspacesAndMarkUpdated entry now).workspaces :=
  (byId_workspacesById _).unique_values

/-- A change of one entry replaces it, or adds it. -/
theorem getWorkspaceEntry_evolveWorkspaces {manifest : LocalUserManifest}
    (unique : UniqueWorkspaces manifest.workspaces) (entry : UserWorkspaceEntry) (now : DateTime)
    (id : EntryID) :
    getWorkspaceEntry (manifest.evolveWorkspacesAndMarkUpdated entry now).workspaces id =
      if id = entry.id then some entry else getWorkspaceEntry manifest.workspaces id := by
  have inserted : workspacesById (manifest.workspaces ++ [entry]) =
      (workspacesById manifest.workspaces).insert entry.id entry := by
    rw [workspacesById, List.map_append, Dict.ofList, Dict.insertMany, List.foldl_append]
    rfl
  rw [LocalUserManifest.evolveWorkspacesAndMarkUpdated, inserted,
    ((byId_workspacesById _).insert rfl).getWorkspaceEntry_values, Dict.get?_insert,
    get?_workspacesById unique]

end ById

section Merge

variable {base diverged target : List UserWorkspaceEntry}
  {resolved next : Dict EntryID UserWorkspaceEntry}

/-- One round of the loop. -/
theorem of_resolveWorkspaceEntry {mine : UserWorkspaceEntry} (byId : ById resolved)
    (step : resolveWorkspaceEntry base resolved mine = .ok next) :
    ById next ∧ next.get? mine.id = mergedWorkspace? base (some mine) (resolved.get? mine.id) ∧
      ∀ id, id ≠ mine.id → next.get? id = resolved.get? id := by
  unfold resolveWorkspaceEntry at step
  split at step
  · next absent =>
    cases step
    refine ⟨byId.insert rfl, by simp [absent, mergedWorkspace?], fun id other => by simp [other]⟩
  · next theirs found =>
    split at step
    · next same =>
      cases step
      exact ⟨byId, by simp [found, mergedWorkspace?, same], fun _ _ => rfl⟩
    · next different =>
      simp only [mergeWorkspaceEntry, Except.bind_eq_ok_iff, Except.require_eq_ok_iff,
        Except.pure_eq_ok_iff, exists_const] at step
      obtain ⟨_, ⟨-, -, rfl⟩, rfl⟩ := step
      have same : theirs.id = mine.id := byId _ _ found
      exact ⟨byId.insert same, by simp [found, mergedWorkspace?, different],
        fun id other => by simp [other]⟩

/-- The loop over the local entries. -/
theorem of_foldlM_resolve (unique : UniqueWorkspaces diverged) (byId : ById resolved)
    (folded : diverged.foldlM (resolveWorkspaceEntry base) resolved = .ok next) :
    ById next ∧ ∀ id, next.get? id =
      mergedWorkspace? base (getWorkspaceEntry diverged id) (resolved.get? id) := by
  induction diverged generalizing resolved with
  | nil =>
    cases folded
    exact ⟨byId, fun _ => rfl⟩
  | cons mine rest ih =>
    obtain ⟨absent, unique⟩ := List.nodup_cons.mp unique
    rw [List.foldlM_cons, Except.bind_eq_ok_iff] at folded
    obtain ⟨middle, step, tail⟩ := folded
    obtain ⟨middleById, here, elsewhere⟩ := of_resolveWorkspaceEntry byId step
    obtain ⟨nextById, after⟩ := ih unique middleById tail
    refine ⟨nextById, fun id => ?_⟩
    rw [after]
    by_cases same : id = mine.id
    · subst same
      rw [getWorkspaceEntry_eq_none_iff.mpr absent, here]
      simp [getWorkspaceEntry, mergedWorkspace?]
    · rw [elsewhere id same]
      simp [getWorkspaceEntry, Ne.symm same]

theorem mergedWorkspace?_eq_none_iff {mine theirs : Option UserWorkspaceEntry} :
    mergedWorkspace? base mine theirs = none ↔ mine = none ∧ theirs = none := by
  cases mine <;> cases theirs <;> simp [mergedWorkspace?]
  split <;> simp

/-- What `merge_workspace_entries` returns holds the entries of a mapping. -/
theorem exists_resolved (divergedUnique : UniqueWorkspaces diverged)
    {workspaces : List UserWorkspaceEntry} {needSync : Bool}
    (merged : mergeWorkspaceEntries base diverged target = .ok (workspaces, needSync)) :
    ∃ resolved, ById resolved ∧ workspaces.Perm resolved.values ∧
      (∀ id, resolved.get? id =
        mergedWorkspace? base (getWorkspaceEntry diverged id) ((workspacesById target).get? id)) ∧
      needSync = decide (resolved.keys.toFinset ≠ (target.map (·.id)).toFinset) := by
  simp only [mergeWorkspaceEntries, Except.bind_eq_ok_iff, Except.require_eq_ok_iff,
    Except.pure_eq_ok_iff, exists_const, Prod.mk.injEq] at merged
  obtain ⟨-, -, resolved, folded, rfl, rfl⟩ := merged
  obtain ⟨byId, after⟩ := of_foldlM_resolve divergedUnique (byId_workspacesById target) folded
  exact ⟨resolved, byId, List.perm_insertionSort _ _, after, rfl⟩

/-- The target may list a workspace twice; its last entry counts. -/
theorem getWorkspaceEntry_mergeWorkspaceEntries (divergedUnique : UniqueWorkspaces diverged)
    {workspaces : List UserWorkspaceEntry} {needSync : Bool}
    (merged : mergeWorkspaceEntries base diverged target = .ok (workspaces, needSync)) :
    UniqueWorkspaces workspaces ∧ ∀ id, getWorkspaceEntry workspaces id =
      mergedWorkspace? base (getWorkspaceEntry diverged id) ((workspacesById target).get? id) := by
  obtain ⟨resolved, byId, sorted, after, -⟩ := exists_resolved divergedUnique merged
  refine ⟨(sorted.map _).nodup_iff.mpr byId.unique_values, fun id => ?_⟩
  rw [getWorkspaceEntry_perm byId.unique_values sorted, byId.getWorkspaceEntry_values, after]

/-- What `merge_workspace_entries` returns. -/
theorem of_mergeWorkspaceEntries (divergedUnique : UniqueWorkspaces diverged)
    (targetUnique : UniqueWorkspaces target) {workspaces : List UserWorkspaceEntry} {needSync : Bool}
    (merged : mergeWorkspaceEntries base diverged target = .ok (workspaces, needSync)) :
    UniqueWorkspaces workspaces ∧
      (∀ id, getWorkspaceEntry workspaces id =
        mergedWorkspace? base (getWorkspaceEntry diverged id) (getWorkspaceEntry target id)) ∧
      (needSync = false ↔ ∀ mine ∈ diverged, mine.id ∈ target.map (·.id)) := by
  obtain ⟨unique, entries⟩ := getWorkspaceEntry_mergeWorkspaceEntries divergedUnique merged
  obtain ⟨resolved, -, -, after, rfl⟩ := exists_resolved divergedUnique merged
  simp only [get?_workspacesById targetUnique] at after entries
  refine ⟨unique, entries, ?_⟩
  have known (id : EntryID) : id ∈ resolved.keys ↔
      id ∈ diverged.map (·.id) ∨ id ∈ target.map (·.id) := by
    rw [← not_iff_not, not_or, ← Dict.get?_eq_none_iff, after, mergedWorkspace?_eq_none_iff,
      getWorkspaceEntry_eq_none_iff, getWorkspaceEntry_eq_none_iff]
  rw [decide_eq_false_iff_not, not_not, Finset.ext_iff]
  simp only [List.mem_toFinset, known]
  constructor
  · intro same mine member
    exact (same mine.id).mp (.inl (List.mem_map_of_mem member))
  · intro covered id
    refine or_iff_right_of_imp fun local' => ?_
    obtain ⟨mine, member, rfl⟩ := List.mem_map.mp local'
    exact covered mine member

end Merge

end Guardata
