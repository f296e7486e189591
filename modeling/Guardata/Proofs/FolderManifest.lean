import Mathlib.Data.List.ReduceOption
import Guardata.Model.FolderManifest

/-! # What a folder manifest looks like remotely

`toRemote` shows the children that are not confined, with the filtered entries of the base laid
over them. The lemmas follow both through an edit of the children, through a change of the filter
and through the arrival of a remote version. The one operation that can change what a manifest
with nothing to upload looks like remotely is an edit that takes an entry id out of the confined
entries while the id still stands under another name.
-/

namespace Guardata.LocalFolderishManifest

/-- The entry ids that an edit removes, name by name. -/
def poppedEntries (manifest : LocalFolderishManifest) (data : Dict EntryName (Option EntryID)) :
    List EntryID :=
  data.keys.filterMap manifest.children.get?

/-- The edit is meant to leave no trace remotely: what it removes was confined, each id under one
of its names, and what it adds has a name that matches the filter. -/
def StaysConfined (manifest : LocalFolderishManifest) (data : Dict EntryName (Option EntryID))
    (patternFilter : Pattern) : Prop :=
  (manifest.poppedEntries data).Nodup ∧
    (∀ entryId ∈ manifest.poppedEntries data, entryId ∈ manifest.confinedEntries) ∧
    ∀ entry ∈ data.items, entry.2.isSome → patternFilter entry.1

/-- The edit stays confined, yet a name that it does not mention keeps an id that it removes. -/
def Uncovers (manifest : LocalFolderishManifest) (data : Dict EntryName (Option EntryID))
    (name : EntryName) : Prop :=
  name ∉ data.keys ∧ ∃ entryId ∈ manifest.poppedEntries data, manifest.children.get? name = some entryId

section Removal

variable {edit : ChildrenEdit} {names : List EntryName}

private theorem filterMap_erase {children : Dict EntryName EntryID} {name : EntryName}
    (absent : name ∉ names) :
    names.filterMap (children.erase name).get? = names.filterMap children.get? := by
  apply List.filterMap_congr
  intro other member
  rw [Dict.get?_erase, if_neg (by rintro rfl; exact absent member)]

theorem ChildrenEdit.get?_foldl_remove (query : EntryName) :
    (names.foldl remove edit).children.get? query =
      if query ∈ names then none else edit.children.get? query := by
  induction names generalizing edit with
  | nil => simp
  | cons name rest ih =>
    rw [List.foldl_cons, ih]
    by_cases later : query ∈ rest
    · simp [later]
    · cases found : edit.children.get? name with
      | none =>
        by_cases same : query = name
        · simp [remove, same, found]
        · simp [remove, same, found]
      | some oldEntryId => simp [remove, found, later]

/-- The confined entries that survive are those that no removed name stood for. -/
theorem ChildrenEdit.mem_confinedEntries_foldl_remove (distinct : names.Nodup) {entryId : EntryID} :
    entryId ∈ (names.foldl remove edit).confinedEntries ↔
      entryId ∈ edit.confinedEntries ∧ entryId ∉ names.filterMap edit.children.get? := by
  induction names generalizing edit with
  | nil => simp
  | cons name rest ih =>
    obtain ⟨absent, distinct⟩ := List.nodup_cons.mp distinct
    rw [List.foldl_cons, ih distinct]
    cases found : edit.children.get? name with
    | none => simp [remove, found]
    | some oldEntryId =>
      simp only [remove, found, filterMap_erase absent, Finset.mem_erase,
        List.filterMap_cons_some found, List.mem_cons, not_or]
      tauto

/-- A removal goes unnoticed when every id it finds is still confined at that point. -/
theorem ChildrenEdit.updated_foldl_remove_eq_false_iff (distinct : names.Nodup) :
    (names.foldl remove edit).updated = false ↔
      edit.updated = false ∧ (names.filterMap edit.children.get?).Nodup ∧
        ∀ entryId ∈ names.filterMap edit.children.get?, entryId ∈ edit.confinedEntries := by
  induction names generalizing edit with
  | nil => simp
  | cons name rest ih =>
    obtain ⟨absent, distinct⟩ := List.nodup_cons.mp distinct
    rw [List.foldl_cons, ih distinct]
    cases found : edit.children.get? name with
    | none => simp [remove, found]
    | some oldEntryId =>
      simp only [remove, found, filterMap_erase absent, Finset.mem_erase,
        List.filterMap_cons_some found, List.nodup_cons, List.forall_mem_cons, Bool.or_eq_false_iff,
        decide_eq_false_iff_not, not_not]
      constructor
      · rintro ⟨⟨before, confined⟩, nodup, later⟩
        exact ⟨before, ⟨fun again => (later _ again).1 rfl, nodup⟩, confined,
          fun entryId member => (later entryId member).2⟩
      · rintro ⟨before, ⟨once, nodup⟩, confined, later⟩
        refine ⟨⟨before, confined⟩, nodup, fun entryId member => ⟨?_, later entryId member⟩⟩
        rintro rfl
        exact once member

end Removal

section Addition

variable {patternFilter : Pattern} {edit : ChildrenEdit}
  {entries : List (EntryName × Option EntryID)}

theorem ChildrenEdit.get?_foldl_add_of_absent {query : EntryName}
    (absent : ∀ entryId, (query, some entryId) ∉ entries) :
    (entries.foldl (add patternFilter) edit).children.get? query = edit.children.get? query := by
  induction entries generalizing edit with
  | nil => rfl
  | cons entry rest ih =>
    obtain ⟨name, added⟩ := entry
    rw [List.foldl_cons, ih fun entryId later => absent entryId (List.mem_cons_of_mem _ later)]
    cases added with
    | none => rfl
    | some entryId =>
      have other : query ≠ name := by
        rintro rfl
        exact absent entryId List.mem_cons_self
      simp [add, other]

theorem ChildrenEdit.get?_foldl_add_of_mem (distinct : (entries.map Prod.fst).Nodup)
    {query : EntryName} {entryId : EntryID} (member : (query, some entryId) ∈ entries) :
    (entries.foldl (add patternFilter) edit).children.get? query = some entryId := by
  induction entries generalizing edit with
  | nil => cases member
  | cons entry rest ih =>
    obtain ⟨absent, distinct⟩ := List.nodup_cons.mp distinct
    rw [List.foldl_cons]
    rcases List.mem_cons.mp member with rfl | later
    · rw [get?_foldl_add_of_absent]
      · simp [add]
      · exact fun _ again => absent (List.mem_map.mpr ⟨_, again, rfl⟩)
    · exact ih distinct later

theorem ChildrenEdit.updated_foldl_add_eq_false_iff :
    (entries.foldl (add patternFilter) edit).updated = false ↔
      edit.updated = false ∧ ∀ entry ∈ entries, entry.2.isSome → patternFilter entry.1 := by
  induction entries generalizing edit with
  | nil => simp
  | cons entry rest ih =>
    obtain ⟨name, added⟩ := entry
    rw [List.foldl_cons, ih]
    cases added <;> simp [add, and_assoc]

theorem ChildrenEdit.mem_confinedEntries_foldl_add {entryId : EntryID} :
    entryId ∈ (entries.foldl (add patternFilter) edit).confinedEntries ↔
      entryId ∈ edit.confinedEntries ∨ ∃ name, (name, some entryId) ∈ entries ∧ patternFilter name := by
  induction entries generalizing edit with
  | nil => simp
  | cons entry rest ih =>
    obtain ⟨name, added⟩ := entry
    rw [List.foldl_cons, ih]
    cases added with
    | none => simp [add]
    | some added =>
      by_cases confined : patternFilter name = true
      · simp only [add, confined, if_true, Finset.mem_insert, List.mem_cons, Prod.mk.injEq,
          Option.some.injEq]
        constructor
        · rintro ((rfl | old) | ⟨other, later, matched⟩)
          · exact .inr ⟨name, .inl ⟨rfl, rfl⟩, confined⟩
          · exact .inl old
          · exact .inr ⟨other, .inr later, matched⟩
        · rintro (old | ⟨other, ⟨rfl, rfl⟩ | later, matched⟩)
          · exact .inl (.inr old)
          · exact .inl (.inl rfl)
          · exact .inr ⟨other, later, matched⟩
      · simp only [add, confined, List.mem_cons, Prod.mk.injEq, Option.some.injEq]
        constructor
        · rintro (old | ⟨other, later, matched⟩)
          · exact .inl old
          · exact .inr ⟨other, .inr later, matched⟩
        · rintro (old | ⟨other, ⟨rfl, rfl⟩ | later, matched⟩)
          · exact .inl old
          · exact absurd matched confined
          · exact .inr ⟨other, later, matched⟩

end Addition

section Edit

variable {manifest next : LocalFolderishManifest} {data : Dict EntryName (Option EntryID)}
  {patternFilter : Pattern} {now : DateTime}

/-- What is shown under a name when the confined entries are dropped. -/
def visible? (manifest : LocalFolderishManifest) (name : EntryName) : Option EntryID :=
  (manifest.children.get? name).filter fun entryId => entryId ∉ manifest.confinedEntries

/-- An edit that returned evolved the manifest to the edited children, and marked it unless the edit
stays confined. -/
theorem evolveChildrenAndMarkUpdated_eq_ok
    (edited : manifest.evolveChildrenAndMarkUpdated data patternFilter now = .ok next) :
    (∀ entryId ∈ data.values.reduceOption, entryId ∉ (manifest.removeChildren data).children.values) ∧
    next.base = manifest.base ∧ next.filteredEntries = manifest.filteredEntries ∧
    next.children = (data.items.foldl (ChildrenEdit.add patternFilter)
      (manifest.removeChildren data)).children ∧
    next.confinedEntries = (data.items.foldl (ChildrenEdit.add patternFilter)
      (manifest.removeChildren data)).confinedEntries ∧
    (next.needSync = false ↔ manifest.needSync = false ∧ manifest.StaysConfined data patternFilter) := by
  simp only [evolveChildrenAndMarkUpdated, Except.bind_eq_ok_iff, Except.require_eq_ok_iff,
    exists_const] at edited
  obtain ⟨unique, edited⟩ := edited
  have unmarked : (data.items.foldl (ChildrenEdit.add patternFilter)
      (manifest.removeChildren data)).updated = false ↔ manifest.StaysConfined data patternFilter := by
    rw [ChildrenEdit.updated_foldl_add_eq_false_iff, removeChildren,
      ChildrenEdit.updated_foldl_remove_eq_false_iff data.nodup_keys]
    simp [StaysConfined, poppedEntries, and_assoc]
  refine ⟨unique, ?_⟩
  split at edited
  · next marked =>
    cases edited
    simp [← unmarked, marked]
  · next silent =>
    cases edited
    simp [← unmarked, silent]

/-- An edit that stays confined shows what was shown, and the names that it uncovers. -/
theorem visible?_evolveChildren
    (edited : manifest.evolveChildrenAndMarkUpdated data patternFilter now = .ok next)
    (confined : manifest.StaysConfined data patternFilter) (name : EntryName) :
    (manifest.Uncovers data name → next.visible? name = manifest.children.get? name) ∧
    (¬ manifest.Uncovers data name → next.visible? name = manifest.visible? name) := by
  obtain ⟨unique, -, -, children, confinedEntries, -⟩ := evolveChildrenAndMarkUpdated_eq_ok edited
  obtain ⟨-, popped, added⟩ := confined
  have mem_confined : ∀ entryId, entryId ∈ next.confinedEntries ↔
      (entryId ∈ manifest.confinedEntries ∧ entryId ∉ manifest.poppedEntries data) ∨
        ∃ name, (name, some entryId) ∈ data.items := by
    intro entryId
    rw [confinedEntries, ChildrenEdit.mem_confinedEntries_foldl_add, removeChildren,
      ChildrenEdit.mem_confinedEntries_foldl_remove data.nodup_keys]
    refine or_congr Iff.rfl (exists_congr fun name => and_iff_left_of_imp fun member => ?_)
    exact added _ member rfl
  by_cases mentioned : name ∈ data.keys
  · -- What the edit puts under its own names is confined, and so was what stood there.
    refine ⟨fun uncovered => absurd mentioned uncovered.1, fun _ => ?_⟩
    have before : manifest.visible? name = none := by
      rw [visible?, Option.filter_eq_none_iff]
      intro entryId found
      simp [popped entryId (List.mem_filterMap.mpr ⟨name, mentioned, found⟩)]
    obtain ⟨value, item⟩ := Dict.mem_keys_iff.mp mentioned
    rw [Dict.get?_eq_some_iff] at item
    rw [before, visible?, Option.filter_eq_none_iff, children]
    intro entryId found
    have new : ∃ name, (name, some entryId) ∈ data.items := by
      cases value with
      | some other =>
        rw [ChildrenEdit.get?_foldl_add_of_mem data.nodup item] at found
        cases found
        exact ⟨name, item⟩
      | none =>
        rw [ChildrenEdit.get?_foldl_add_of_absent, removeChildren, ChildrenEdit.get?_foldl_remove,
          if_pos mentioned] at found
        · cases found
        · intro other again
          rw [← Dict.get?_eq_some_iff] at item again
          rw [item] at again
          cases again
    simp [(mem_confined entryId).mpr (.inr new)]
  · have kept : (manifest.removeChildren data).children.get? name = manifest.children.get? name := by
      rw [removeChildren, ChildrenEdit.get?_foldl_remove, if_neg mentioned]
    have same : next.children.get? name = manifest.children.get? name := by
      rw [children, ChildrenEdit.get?_foldl_add_of_absent, kept]
      exact fun entryId member => mentioned (List.mem_map.mpr ⟨_, member, rfl⟩)
    cases found : manifest.children.get? name with
    | none =>
      have shown : next.visible? name = none := by rw [visible?, same, found]; rfl
      exact ⟨fun _ => shown, fun _ => by rw [shown, visible?, found]; rfl⟩
    | some entryId =>
      -- The id stays in the folder, so the assertion keeps the edit from adding it again.
      have old : ¬ ∃ name, (name, some entryId) ∈ data.items := by
        rintro ⟨other, member⟩
        refine unique entryId ?_ (Dict.mem_values_iff.mpr ⟨name, kept.trans found⟩)
        exact List.reduceOption_mem_iff.mpr (List.mem_map.mpr ⟨_, member, rfl⟩)
      have covered : entryId ∈ next.confinedEntries ↔
          entryId ∈ manifest.confinedEntries ∧ entryId ∉ manifest.poppedEntries data := by
        rw [mem_confined, or_iff_left old]
      rw [visible?, visible?, same, found]
      constructor
      · rintro ⟨-, other, removed, stands⟩
        cases found.symm.trans stands
        simp [covered, removed]
      · intro uncovered
        have remains : entryId ∉ manifest.poppedEntries data := fun removed =>
          uncovered ⟨mentioned, entryId, removed, found⟩
        simp [Option.filter, covered, remains]

end Edit

section Remote

variable {manifest next : LocalFolderishManifest} {patternFilter : Pattern} {now : DateTime}

/-- What the manifest looks like remotely is what its base is. -/
def ShowsBase (manifest : LocalFolderishManifest) : Prop :=
  ∀ author timestamp, (manifest.toRemote author timestamp).children.Same manifest.base.children

theorem get?_filterConfinedEntries (name : EntryName) :
    manifest.filterConfinedEntries.children.get? name = manifest.visible? name := by
  unfold filterConfinedEntries visible?
  split
  · next nothing => cases manifest.children.get? name <;> simp [nothing, Option.filter]
  · rw [Dict.get?_filter]

/-- The filtered entries of the base lie over what is visible. -/
theorem get?_toRemote (author : DeviceID) (timestamp : DateTime) (name : EntryName) :
    (manifest.toRemote author timestamp).children.get? name =
      ((manifest.base.children.get? name).filter fun entryId => entryId ∈ manifest.filteredEntries).or
        (manifest.visible? name) := by
  have base : manifest.filterConfinedEntries.base = manifest.base := by
    unfold filterConfinedEntries; split <;> rfl
  have filtered : manifest.filterConfinedEntries.filteredEntries = manifest.filteredEntries := by
    unfold filterConfinedEntries; split <;> rfl
  simp only [toRemote, restoreFilteredEntries, filtered, base]
  split
  · next nothing =>
    rw [get?_filterConfinedEntries, nothing]
    cases manifest.base.children.get? name <;> simp
  · simp only [Dict.get?_update, Dict.get?_filter, get?_filterConfinedEntries]

theorem showsBase_iff : manifest.ShowsBase ↔ ∀ name,
    ((manifest.base.children.get? name).filter fun entryId => entryId ∈ manifest.filteredEntries).or
      (manifest.visible? name) = manifest.base.children.get? name := by
  constructor
  · intro shows name
    rw [← get?_toRemote default 0, shows default 0 name]
  · intro shows author timestamp name
    rw [get?_toRemote, shows]

/-- An edit that stays confined keeps the remote children, unless it uncovers a name that the base
does not have. -/
theorem showsBase_evolveChildren_iff {data : Dict EntryName (Option EntryID)}
    (edited : manifest.evolveChildrenAndMarkUpdated data patternFilter now = .ok next)
    (confined : manifest.StaysConfined data patternFilter) (shows : manifest.ShowsBase) :
    next.ShowsBase ↔ ∀ name, manifest.Uncovers data name → name ∈ manifest.base.children.keys := by
  obtain ⟨-, base, filtered, -⟩ := evolveChildrenAndMarkUpdated_eq_ok edited
  rw [showsBase_iff] at shows ⊢
  rw [base, filtered]
  constructor
  · intro after name uncovered
    obtain ⟨entryId, -, stands⟩ := uncovered.2
    by_contra absent
    have missing := Dict.get?_eq_none_iff.mpr absent
    have shown := after name
    rw [(visible?_evolveChildren edited confined name).1 uncovered, missing, stands] at shown
    cases shown
  · intro present name
    by_cases uncovered : manifest.Uncovers data name
    · -- The name was hidden by the confined id, so the base has it among the filtered entries.
      have hidden : manifest.visible? name = none := by
        obtain ⟨-, entryId, removed, stands⟩ := uncovered
        rw [visible?, stands]
        simp [Option.filter, confined.2.1 entryId removed]
      obtain ⟨entryId, found⟩ := Dict.mem_keys_iff.mp (present name uncovered)
      have before := shows name
      rw [hidden, Option.or_none, found] at before
      rw [found, before, Option.some_or]
    · rw [(visible?_evolveChildren edited confined name).2 uncovered, shows]

/-- Hiding the remote entries that match the filter does not change the remote children. -/
theorem filterRemoteEntries_spec (manifest : LocalFolderishManifest) (patternFilter : Pattern)
    (unconfined : manifest.confinedEntries = ∅)
    (unfiltered : manifest.filteredEntries = ∅) :
    (manifest.filterRemoteEntries patternFilter).base = manifest.base ∧
    (manifest.filterRemoteEntries patternFilter).needSync = manifest.needSync ∧
    (manifest.filterRemoteEntries patternFilter).confinedEntries = ∅ ∧
    (manifest.children.Same manifest.base.children →
      (manifest.filterRemoteEntries patternFilter).ShowsBase) := by
  simp only [filterRemoteEntries]
  generalize (manifest.children.filter fun name _ => patternFilter name).values.toFinset = hidden
  by_cases nothing : hidden = ∅
  · rw [if_pos nothing]
    refine ⟨rfl, rfl, unconfined, fun same => showsBase_iff.mpr fun name => ?_⟩
    rw [visible?, unconfined, unfiltered, ← same name]
    cases manifest.children.get? name <;> simp [Option.filter]
  · rw [if_neg nothing]
    refine ⟨rfl, rfl, unconfined, fun same => showsBase_iff.mpr fun name => ?_⟩
    simp only [visible?, unconfined, Dict.get?_filter, ← same name]
    cases manifest.children.get? name with
    | none => rfl
    | some entryId => by_cases member : entryId ∈ hidden <;> simp [Option.filter, member]

/-- Confined entries come back without a trace, or mark the manifest. -/
theorem restoreConfinedEntries_spec {other : LocalFolderishManifest}
    (unconfined : manifest.confinedEntries = ∅)
    (restored : manifest.restoreConfinedEntries other patternFilter now = .ok next) :
    next.base = manifest.base ∧ (next.needSync = false → manifest.needSync = false) ∧
    (next.needSync = false → manifest.ShowsBase → next.ShowsBase) := by
  unfold restoreConfinedEntries at restored
  split at restored
  · cases restored
    exact ⟨rfl, id, fun _ => id⟩
  · obtain ⟨-, base, -, -, -, marked⟩ := evolveChildrenAndMarkUpdated_eq_ok restored
    refine ⟨base, fun silent => (marked.mp silent).1, fun silent shows => ?_⟩
    obtain ⟨-, confined⟩ := marked.mp silent
    rw [showsBase_evolveChildren_iff restored confined shows]
    rintro name ⟨-, entryId, removed, -⟩
    have impossible := confined.2.1 entryId removed
    rw [unconfined] at impossible
    cases impossible

theorem applyFilter_spec (applied : manifest.applyFilter patternFilter now = .ok next) :
    next.base = manifest.base ∧ (next.needSync = false → manifest.needSync = false) ∧
    (next.needSync = false → manifest.ShowsBase → next.ShowsBase) := by
  let restored := manifest.filterConfinedEntries.restoreFilteredEntries
  have kept : restored.base = manifest.base ∧ restored.needSync = manifest.needSync ∧
      restored.confinedEntries = ∅ ∧ restored.filteredEntries = ∅ := by
    simp only [restored, filterConfinedEntries, restoreFilteredEntries]
    split <;> split <;> simp_all
  obtain ⟨base, needSync, unconfined, unfiltered⟩ := kept
  obtain ⟨base', needSync', unconfined', shows'⟩ :=
    filterRemoteEntries_spec restored patternFilter unconfined unfiltered
  obtain ⟨base'', needSync'', shows''⟩ := restoreConfinedEntries_spec unconfined' applied
  refine ⟨by rw [base'', base', base], fun silent => ?_, fun silent shows => ?_⟩
  · rw [← needSync, ← needSync', needSync'' silent]
  · apply shows'' silent (shows' _)
    rw [base]
    exact shows default 0

/-- A manifest from a remote version is based on it, and shows it unless marked. -/
theorem fromRemote_spec {remote : RemoteFolderishManifest}
    {localManifest : Option LocalFolderishManifest}
    (loaded : fromRemote remote patternFilter localManifest now = .ok next) :
    next.base = remote ∧ (next.needSync = false → next.ShowsBase) := by
  let plain : LocalFolderishManifest :=
    { base := remote, needSync := false, updated := remote.updated, children := remote.children }
  obtain ⟨base, needSync, unconfined, shows⟩ :=
    filterRemoteEntries_spec plain patternFilter rfl rfl
  have shown := shows (.refl _)
  cases localManifest with
  | none => cases loaded; exact ⟨base, fun _ => shown⟩
  | some localManifest =>
    obtain ⟨base', -, shows'⟩ := restoreConfinedEntries_spec unconfined loaded
    exact ⟨base'.trans base, fun silent => shows' silent shown⟩

end Remote

end Guardata.LocalFolderishManifest
