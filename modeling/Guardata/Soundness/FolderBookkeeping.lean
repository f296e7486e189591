import Guardata.Proofs.ParentLock

/-! # Editing a folder

All calls on the entries of a folder go through one routine that removes names and then adds some. What the
routine adds it confines if the filter matches, so that the confined entries stay those that stand under
matching names. A call that raises does so before it changes the folder. No call waits for anything, and two attempts
at the lock are enough.
-/

namespace Guardata

open Machine Coroutine LocalFolderishManifest EntryTransactions

namespace LocalFolderishManifest

/-- No id stands under two names, and the confined entries are those under names that the filter matches. -/
structure Bookkept (manifest : LocalFolderishManifest) (patternFilter : Pattern) : Prop where
  injective : manifest.children.Injective
  confined : ∀ entryId, entryId ∈ manifest.confinedEntries ↔ Hides manifest.children patternFilter entryId

section Edit

variable {parent next : LocalFolderishManifest} {data : Dict EntryName (Option EntryID)}
  {patternFilter : Pattern} {now : DateTime}

/-- An edit that adds an id under one name only keeps the books. -/
theorem Bookkept.evolve (kept : parent.Bookkept patternFilter)
    (edited : parent.evolveChildrenAndMarkUpdated data patternFilter now = .ok next)
    (once : ∀ first second entryId, data.get? first = some (some entryId) →
      data.get? second = some (some entryId) → first = second) : next.Bookkept patternFilter := by
  have covered := evolveChildren_returns_iff.mp ⟨next, edited⟩
  have stands {name : EntryName} {entryId : EntryID} : next.children.get? name = some entryId ↔
      data.get? name = some (some entryId) ∨
        data.get? name = none ∧ parent.children.get? name = some entryId := by
    rw [get?_evolveChildren edited]
    cases data.get? name <;> simp
  have absent {name : EntryName} (mentioned : data.get? name = none) : name ∉ data.keys :=
    Dict.get?_eq_none_iff.mp mentioned
  constructor
  · intro first second entryId atFirst atSecond
    rcases stands.mp atFirst with addsFirst | ⟨oldFirst, keepsFirst⟩ <;>
      rcases stands.mp atSecond with addsSecond | ⟨oldSecond, keepsSecond⟩
    · exact once first second entryId addsFirst addsSecond
    · exact absurd (covered first second entryId addsFirst keepsSecond) (absent oldSecond)
    · exact absurd (covered second first entryId addsSecond keepsFirst) (absent oldFirst)
    · exact kept.injective first second entryId keepsFirst keepsSecond
  · intro entryId
    rw [mem_confinedEntries_evolveChildren edited, kept.confined]
    constructor
    · rintro (⟨⟨name, shown, matched⟩, untouched⟩ | ⟨name, added, matched⟩)
      · refine ⟨name, stands.mpr (.inr ⟨?_, shown⟩), matched⟩
        exact Dict.get?_eq_none_iff.mpr fun mentioned => untouched name mentioned shown
      · exact ⟨name, stands.mpr (.inl added), matched⟩
    · rintro ⟨name, shown, matched⟩
      rcases stands.mp shown with added | ⟨old, keeps⟩
      · exact .inr ⟨name, added, matched⟩
      · refine .inl ⟨⟨name, keeps, matched⟩, fun other mentioned removed => ?_⟩
        -- The id stands under one name, which the edit does not mention.
        obtain rfl := kept.injective other name entryId removed keeps
        exact absent old mentioned

end Edit

end LocalFolderishManifest

namespace EntryTransactions

variable {kindOf : EntryID → ChildKind} {parent next : LocalFolderishManifest} {patternFilter : Pattern}
  {now : DateTime}

theorem entryCreate_eq_ok {name : EntryName} {childId : EntryID}
    (created : entryCreate parent patternFilter now name childId = .ok next) :
    parent.children.get? name = none ∧
      parent.evolveChildrenAndMarkUpdated (.ofList [(name, some childId)]) patternFilter now = .ok next := by
  simp only [entryCreate, Except.bind_eq_ok_iff, Except.require_eq_ok_iff, exists_const] at created
  exact ⟨created.1, Except.mapError_eq_ok_iff.mp created.2⟩

theorem entryRename_eq_ok {source destination : EntryName} {overwrite : Bool}
    (renamed : entryRename kindOf parent patternFilter now source destination overwrite = .ok next) :
    ∃ entryId, parent.children.get? source = some entryId ∧
      (source = destination ∧ next = parent ∨ source ≠ destination ∧
        parent.evolveChildrenAndMarkUpdated (.ofList [(destination, some entryId), (source, none)])
          patternFilter now = .ok next) := by
  unfold entryRename at renamed
  split at renamed
  · cases renamed
  · next entryId stands =>
    refine ⟨entryId, stands, ?_⟩
    split at renamed
    · next same =>
      cases renamed
      exact .inl ⟨same, rfl⟩
    · next different =>
      obtain ⟨-, -, edited⟩ := Except.bind_eq_ok_iff.mp renamed
      exact .inr ⟨different, Except.mapError_eq_ok_iff.mp edited⟩

theorem entryDelete_eq_ok {name : EntryName} {check : ChildKind → Except EntryError Unit}
    (deleted : entryDelete kindOf parent patternFilter now check name = .ok next) :
    ∃ childId, parent.children.get? name = some childId ∧
      parent.evolveChildrenAndMarkUpdated (.ofList [(name, none)]) patternFilter now = .ok next := by
  unfold entryDelete at deleted
  split at deleted
  · cases deleted
  · next childId stands =>
    obtain ⟨-, -, edited⟩ := Except.bind_eq_ok_iff.mp deleted
    exact ⟨childId, stands, Except.mapError_eq_ok_iff.mp edited⟩

end EntryTransactions

/-- The calls that edit a folder. -/
inductive EntryCall where
  | folderCreate (path : FsPath)
  | fileCreate (path : FsPath) (openFile : Bool)
  | entryRename (source destination : FsPath) (overwrite : Bool)
  | folderDelete (path : FsPath)
  | fileDelete (path : FsPath)

namespace EntryCall

/-- The path of the entry whose folder is edited. -/
def path : EntryCall → FsPath
  | folderCreate path | fileCreate path _ | folderDelete path | fileDelete path => path
  | entryRename _ destination _ => destination

/-- The call without what it returns; `none` if its attempts are used up. -/
def transaction (workspace : Workspace) (attempts : ℕ) : EntryCall → WorkspaceCall (Option Unit)
  | folderCreate path => do return (← workspace.folderCreate attempts path).map fun _ => ()
  | fileCreate path openFile => do return (← workspace.fileCreate attempts path openFile).map fun _ => ()
  | entryRename source destination overwrite => do
      return (← workspace.entryRename attempts source destination overwrite).map fun _ => ()
  | folderDelete path => do return (← workspace.folderDelete attempts path).map fun _ => ()
  | fileDelete path => do return (← workspace.fileDelete attempts path).map fun _ => ()

/-- The change of the children that is asked for. -/
def Requests (call : EntryCall) (newId : EntryID) (parent next : LocalFolderishManifest) : Prop :=
  match call with
  | folderCreate path | fileCreate path _ => parent.children.get? path.name = none ∧ ∀ name,
      next.children.get? name = if name = path.name then some newId else parent.children.get? name
  | entryRename source destination _ => ∃ entryId, parent.children.get? source.name = some entryId ∧
      ∀ name, next.children.get? name =
        if name = destination.name then some entryId
        else if name = source.name then none else parent.children.get? name
  | folderDelete path | fileDelete path => (parent.children.get? path.name).isSome ∧ ∀ name,
      next.children.get? name = if name = path.name then none else parent.children.get? name

end EntryCall

/-- Missing manifests were stored on the way to a folder, then the folder was changed, and nothing
else but a new child. -/
def Workspace.Edits (workspace : Workspace) (path : FsPath)
    (changes : LocalFolderishManifest → LocalFolderishManifest → Prop) (before after : WorkspaceStorage) :
    Prop :=
  ∃ storage parentId parent next, workspace.Loads before storage ∧
    storage.follow? workspace.workspaceId path.parent = some parentId ∧
    storage.manifests parentId = some (.folder parent) ∧
    after.manifests parentId = some (.folder next) ∧ changes parent next ∧
    ∀ id manifest, id ≠ parentId → id ≠ before.nextId → storage.manifests id = some manifest →
      after.manifests id = some manifest

/-- The change is what is asked for, and keeps the books. -/
def EntryCall.Changes (call : EntryCall) (patternFilter : Pattern) (newId : EntryID)
    (parent next : LocalFolderishManifest) : Prop :=
  call.Requests newId parent next ∧ (parent.Bookkept patternFilter → next.Bookkept patternFilter)

section Changes

variable {parent next : LocalFolderishManifest} {patternFilter : Pattern} {now : DateTime}
  {kindOf : EntryID → ChildKind}

theorem get?_single {name other : EntryName} {value : Option EntryID} :
    (Dict.ofList [(name, value)]).get? other = if other = name then some value else none := by
  change ((∅ : Dict EntryName (Option EntryID)).insert name value).get? other = _
  rw [Dict.get?_insert]
  rfl

theorem get?_pair {source destination other : EntryName} {value : Option EntryID} :
    (Dict.ofList [(destination, value), (source, none)]).get? other =
      if other = source then some none else if other = destination then some value else none := by
  change (((∅ : Dict EntryName (Option EntryID)).insert destination value).insert source none).get? other = _
  rw [Dict.get?_insert, Dict.get?_insert]
  rfl

theorem edited_of_create {path : FsPath} {childId : EntryID}
    (created : entryCreate parent patternFilter now path.name childId = .ok next) :
    next.base = parent.base ∧ (parent.children.get? path.name = none ∧ ∀ name, next.children.get? name =
      if name = path.name then some childId else parent.children.get? name) ∧
        (parent.Bookkept patternFilter → next.Bookkept patternFilter) := by
  obtain ⟨absent, edited⟩ := entryCreate_eq_ok created
  refine ⟨(evolveChildrenAndMarkUpdated_eq_ok edited).2.1, ⟨absent, fun name => ?_⟩, fun kept =>
    kept.evolve edited ?_⟩
  · rw [get?_evolveChildren edited, get?_single]
    split <;> rfl
  · intro first second entryId adds addsToo
    rw [get?_single] at adds addsToo
    split at adds
    · next here =>
      split at addsToo
      · next there => exact here.trans there.symm
      · cases addsToo
    · cases adds

theorem edited_of_delete {path : FsPath} {check : ChildKind → Except EntryError Unit}
    (deleted : entryDelete kindOf parent patternFilter now check path.name = .ok next) :
    next.base = parent.base ∧ ((parent.children.get? path.name).isSome ∧ ∀ name, next.children.get? name =
      if name = path.name then none else parent.children.get? name) ∧
        (parent.Bookkept patternFilter → next.Bookkept patternFilter) := by
  obtain ⟨childId, stands, edited⟩ := entryDelete_eq_ok deleted
  refine ⟨(evolveChildrenAndMarkUpdated_eq_ok edited).2.1, ⟨by rw [stands]; rfl, fun name => ?_⟩, fun kept =>
    kept.evolve edited ?_⟩
  · rw [get?_evolveChildren edited, get?_single]
    split <;> rfl
  · intro first second entryId adds
    rw [get?_single] at adds
    split at adds <;> cases adds

theorem edited_of_rename {source destination : EntryName} {overwrite : Bool}
    (renamed : entryRename kindOf parent patternFilter now source destination overwrite = .ok next) :
    next.base = parent.base ∧ (∃ entryId, parent.children.get? source = some entryId ∧
      ∀ name, next.children.get? name = if name = destination then some entryId
        else if name = source then none else parent.children.get? name) ∧
        (parent.Bookkept patternFilter → next.Bookkept patternFilter) ∧
        (source = destination → next = parent) := by
  obtain ⟨entryId, stands, ⟨rfl, rfl⟩ | ⟨different, edited⟩⟩ := entryRename_eq_ok renamed
  · refine ⟨rfl, ⟨entryId, stands, fun name => ?_⟩, id, fun _ => rfl⟩
    split
    · next here => rw [here, stands]
    · rfl
  · refine ⟨(evolveChildrenAndMarkUpdated_eq_ok edited).2.1, ⟨entryId, stands, fun name => ?_⟩,
      fun kept => kept.evolve edited ?_, fun same => absurd same different⟩
    · rw [get?_evolveChildren edited, get?_pair]
      by_cases old : name = source
      · rw [if_pos old, if_neg (old ▸ different), if_pos old]
        rfl
      · rw [if_neg old, if_neg old]
        split <;> rfl
    · have adds {name : EntryName} {other : EntryID}
          (added : (Dict.ofList [(destination, some entryId), (source, none)]).get? name =
            some (some other)) : name = destination := by
        rw [get?_pair] at added
        split at added
        · cases added
        · split at added
          · next here => exact here
          · cases added
      intro first second other atFirst atSecond
      exact (adds atFirst).trans (adds atSecond).symm

end Changes

namespace Workspace

variable {workspace : Workspace} {before : WorkspaceStorage} {path : FsPath}
  {changes : LocalFolderishManifest → LocalFolderishManifest → Prop}

/-- What was stored is still there. -/
def Keeps (before after : WorkspaceStorage) : Prop :=
  ∀ id manifest, before.manifests id = some manifest → after.manifests id = some manifest

/-- The folder that a call is about has been found. -/
def Finds (workspace : Workspace) (before : WorkspaceStorage) (path : FsPath) (parentId : EntryID)
    (parent : LocalFolderishManifest) (storage : WorkspaceStorage) : Prop :=
  workspace.Loads before storage ∧ storage.follow? workspace.workspaceId path.parent = some parentId ∧
    storage.manifests parentId = some (.folder parent)

theorem edits_of_set {parentId : EntryID} {parent next : LocalFolderishManifest}
    {storage state : WorkspaceStorage} (finds : workspace.Finds before path parentId parent storage)
    (base : next.base = parent.base) (changed : changes parent next)
    (kept : ∀ id manifest, id ≠ before.nextId → storage.manifests id = some manifest →
      state.manifests id = some manifest) :
    workspace.Edits path changes before (state.set (.folder next)) := by
  obtain ⟨loads, leads, stored⟩ := finds
  have own : (LocalEntryManifest.folder next).id = parentId := by
    rw [← storage.keyed parentId _ stored, LocalEntryManifest.id, LocalEntryManifest.id, base]
  refine ⟨storage, parentId, parent, next, loads, leads, stored, ?_, changed, ?_⟩
  · simp only [WorkspaceStorage.set, own, Function.update_self]
  · intro id manifest other old found
    simp only [WorkspaceStorage.set, own]
    rw [Function.update_of_ne other]
    exact kept id manifest old found

theorem alone_ofEntry {α : Type} {pre : WorkspaceStorage → Prop} {result : Except EntryError α} :
    Alone pre (ofEntry path result) (fun value storage => pre storage ∧ result = .ok value) pre :=
  alone_ofExcept (fun _ _ given accepted => ⟨given, Except.mapError_eq_ok_iff.mp accepted⟩)
    fun _ given => given

theorem alone_checkWriteRights {pre : WorkspaceStorage → Prop} :
    Alone pre (workspace.checkWriteRights path) (fun _ => pre) pre :=
  (alone_ofExcept (fun _ _ given _ => given) fun _ given => given).bind fun _ =>
    alone_ofExcept (fun _ _ given _ => given) fun _ given => given

/-- A call is done, or has used up its attempts. -/
def Ends (workspace : Workspace) (path : FsPath)
    (changes : LocalFolderishManifest → LocalFolderishManifest → Prop) (before : WorkspaceStorage)
    {α : Type} : Option α → WorkspaceStorage → Prop
  | none, storage => Keeps before storage
  | some _, storage => workspace.Edits path changes before storage

theorem alone_editParent {α : Type} {attempts : ℕ}
    {body : LocalFolderishManifest → Option LocalEntryManifest → WorkspaceCall α}
    (edits : ∀ parentId parent child, Alone (workspace.Finds before path parentId parent) (body parent child)
      (fun _ => workspace.Edits path changes before) (Keeps before)) :
    Alone (workspace.Loads before) (workspace.lockParentManifestFromPath path body attempts)
      (workspace.Ends path changes before) (Keeps before) := by
  refine (alone_lockParent edits (fun _ loads => loads.kept) attempts).mono (fun _ => id) ?_ fun _ => id
  rintro (_ | value) storage ends
  · exact Loads.kept ends
  · exact ends

theorem alone_delete {attempts : ℕ}
    {delete : (EntryID → ChildKind) → LocalFolderishManifest → Pattern → DateTime → EntryName →
      Except EntryError LocalFolderishManifest}
    (changed : ∀ kindOf parent next, delete kindOf parent workspace.patternFilter workspace.now path.name =
      .ok next → next.base = parent.base ∧ changes parent next) :
    Alone (workspace.Loads before) (workspace.entryDelete attempts path delete)
      (workspace.Ends path changes before) (Keeps before) := by
  have fails (storage : WorkspaceStorage) (loads : workspace.Loads before storage) : Keeps before storage :=
    loads.kept
  refine (alone_checkWriteRights.mono (fun _ => id) (fun _ _ => id) fails).bind fun _ => ?_
  refine alone_editParent fun parentId parent child => ?_
  refine (alone_ofEntry.mono (fun _ => id) (fun _ _ => id) fun _ finds => finds.1.kept).bind fun next => ?_
  refine Alone.bind (alone_update ?_) fun _ => alone_pure fun _ => id
  rintro storage ⟨finds, deleted⟩
  obtain ⟨base, changed⟩ := changed _ parent next deleted
  exact edits_of_set finds base changed fun _ _ _ => id

/-- Looking at the kinds of the entries changes nothing. -/
theorem alone_renamedKinds {pre : WorkspaceStorage → Prop} {parent : LocalFolderishManifest}
    {child : Option LocalEntryManifest} {source destination : EntryName} {overwrite : Bool} :
    Alone pre (workspace.renamedKinds parent child source destination overwrite) (fun _ => pre) pre := by
  unfold renamedKinds
  split
  · split
    · exact (alone_fetchManifest _).bind fun manifest => alone_pure fun _ => id
    · exact alone_pure fun _ => id
  · exact alone_pure fun _ => id

theorem alone_renameChild {source : FsPath} {overwrite : Bool}
    (changed : ∀ kindOf parent next, EntryTransactions.entryRename kindOf parent workspace.patternFilter
      workspace.now source.name path.name overwrite = .ok next → next.base = parent.base ∧
        changes parent next ∧ (source.name = path.name → next = parent))
    (parentId : EntryID) (parent : LocalFolderishManifest) (child : Option LocalEntryManifest) :
    Alone (workspace.Finds before path parentId parent)
      (workspace.renameChild source path overwrite parent child)
      (fun _ => workspace.Edits path changes before) (Keeps before) := by
  refine (alone_renamedKinds.mono (fun _ => id) (fun _ _ => id) fun _ finds => finds.1.kept).bind
    fun kindOf => ?_
  refine (alone_ofEntry.mono (fun _ => id) (fun _ _ => id) fun _ finds => finds.1.kept).bind fun next => ?_
  split
  · next same =>
    refine alone_pure ?_
    rintro storage ⟨⟨loads, leads, stored⟩, renamed⟩
    obtain ⟨-, changed, unchanged⟩ := changed kindOf parent next renamed
    rw [unchanged same] at changed
    exact ⟨storage, parentId, parent, parent, loads, leads, stored, stored, changed, fun _ _ _ _ => id⟩
  · refine Alone.bind (alone_update ?_) fun _ => alone_pure fun _ => id
    rintro storage ⟨finds, renamed⟩
    obtain ⟨base, changed, -⟩ := changed kindOf parent next renamed
    exact edits_of_set finds base changed fun _ _ _ => id

theorem alone_rename {attempts : ℕ} {source : FsPath} {overwrite : Bool}
    (changed : ∀ kindOf parent next, EntryTransactions.entryRename kindOf parent workspace.patternFilter
      workspace.now source.name path.name overwrite = .ok next → next.base = parent.base ∧
        changes parent next ∧ (source.name = path.name → next = parent)) :
    Alone (workspace.Loads before) (workspace.entryRename attempts source path overwrite)
      (workspace.Ends path changes before) (Keeps before) := by
  have fails (storage : WorkspaceStorage) (loads : workspace.Loads before storage) : Keeps before storage :=
    loads.kept
  have prefetches : Alone (workspace.Loads before) (workspace.prefetchSource source overwrite)
      (fun _ => workspace.Loads before) (Keeps before) := by
    unfold prefetchSource
    split
    · exact ((alone_getManifestFromPath source).mono (fun _ => id) (fun _ _ => id) fails).bind fun _ =>
        alone_pure fun _ given => given.1
    · exact alone_pure fun _ => id
  refine (alone_checkWriteRights.mono (fun _ => id) (fun _ _ => id) fails).bind fun _ => ?_
  split
  · exact alone_raise fails
  split
  · exact alone_raise fails
  split
  · exact alone_raise fails
  exact prefetches.bind fun _ => alone_editParent (alone_renameChild changed)

/-- A new child is stored, and then the folder. -/
theorem alone_create {α : Type} {attempts : ℕ} {newPlaceholder : EntryID → EntryID → LocalEntryManifest}
    {finish : EntryID → WorkspaceCall α} (own : ∀ parentId id, (newPlaceholder parentId id).id = id)
    (finishes : ∀ id, Alone (workspace.Edits path changes before) (finish id)
      (fun _ => workspace.Edits path changes before) (Keeps before))
    (changed : ∀ parent next, EntryTransactions.entryCreate parent workspace.patternFilter workspace.now
      path.name before.nextId = .ok next → next.base = parent.base ∧ changes parent next) :
    Alone (workspace.Loads before) (workspace.entryCreate attempts path newPlaceholder finish)
      (workspace.Ends path changes before) (Keeps before) := by
  have fails (storage : WorkspaceStorage) (loads : workspace.Loads before storage) : Keeps before storage :=
    loads.kept
  refine (alone_checkWriteRights.mono (fun _ => id) (fun _ _ => id) fails).bind fun _ => ?_
  refine alone_editParent fun parentId parent child => ?_
  split
  · exact alone_raise fun storage finds => finds.1.kept
  have draws : Alone (workspace.Finds before path parentId parent) newEntryId
      (fun id storage => id = before.nextId ∧ ∃ found, workspace.Finds before path parentId parent found ∧
        storage.manifests = found.manifests) (Keeps before) := by
    refine alone_atomic fun storage later finds drawn => alone_pure ?_
    rintro _ rfl
    cases drawn
    exact ⟨finds.1.nextId, storage, finds, rfl⟩
  refine draws.bind fun childId => ?_
  refine (alone_ofEntry.mono (fun _ => id) (fun _ _ => id) ?_).bind fun next => ?_
  · rintro storage ⟨-, found, finds, same⟩ id manifest stored
    rw [same]
    exact finds.1.kept id manifest stored
  -- The child comes first; until the parent is set nobody sees it.
  have stores : Alone (fun storage => (childId = before.nextId ∧
        ∃ found, workspace.Finds before path parentId parent found ∧ storage.manifests = found.manifests) ∧
          EntryTransactions.entryCreate parent workspace.patternFilter workspace.now path.name childId =
            .ok next)
      (setManifest (newPlaceholder parent.base.id childId))
      (fun _ storage => (next.base = parent.base ∧ changes parent next) ∧
        ∃ found, workspace.Finds before path parentId parent found ∧ ∀ id manifest, id ≠ before.nextId →
          found.manifests id = some manifest → storage.manifests id = some manifest) (Keeps before) := by
    refine alone_update ?_
    rintro storage ⟨⟨rfl, found, finds, same⟩, created⟩
    refine ⟨changed parent next created, found, finds, fun id manifest other stored => ?_⟩
    simp only [WorkspaceStorage.set, own]
    rw [Function.update_of_ne other, same]
    exact stored
  refine stores.bind fun _ => Alone.bind (alone_update ?_) fun _ => finishes childId
  rintro storage ⟨⟨base, changed⟩, found, finds, kept⟩
  exact edits_of_set finds base changed kept

theorem alone_createFileDescriptor {id : EntryID} {raises : WorkspaceStorage → Prop} :
    Alone (workspace.Edits path changes before) (createFileDescriptor id)
      (fun _ => workspace.Edits path changes before) raises := by
  refine alone_atomic fun storage later edits described => alone_pure ?_
  rintro _ rfl
  cases described
  exact edits

section Answers

variable {α β : Type}

/-- A call that is played alone ends before its attempts are used up. -/
def Answers (call : WorkspaceCall (Option α)) (before : WorkspaceStorage) : Prop :=
  ∃ result after, call.run before = some (result, after) ∧ result ≠ .ok none

theorem answers_raise (error : TransactionError) (before : WorkspaceStorage) :
    Answers (.raise error : WorkspaceCall (Option α)) before := ⟨_, _, rfl, nofun⟩

theorem answers_bind {first : WorkspaceCall β} {rest : β → WorkspaceCall (Option α)}
    (unblocked : first.Unblocked) (later : ∀ value storage, Answers (rest value) storage)
    (before : WorkspaceStorage) : Answers (first >>= rest) before := by
  obtain ⟨result, storage, played⟩ := unblocked.exists_run before
  cases result with
  | error error => exact ⟨_, _, run_bind_of_error _ played, nofun⟩
  | ok value =>
    obtain ⟨result, after, goesOn, ends⟩ := later value storage
    exact ⟨result, after, (run_bind_of_ok _ played).trans goesOn, ends⟩

theorem Answers.map {call : WorkspaceCall (Option α)} {before : WorkspaceStorage} (answers : Answers call before)
    (view : α → β) : Answers (do return (← call).map view) before := by
  obtain ⟨result, after, played, ends⟩ := answers
  cases result with
  | error error => exact ⟨_, _, run_bind_of_error _ played, nofun⟩
  | ok value =>
    cases value with
    | none => exact absurd rfl ends
    | some value => exact ⟨_, _, run_bind_of_ok _ played, nofun⟩

theorem answers_lockParent {body : LocalFolderishManifest → Option LocalEntryManifest → WorkspaceCall α}
    (unblocked : ∀ parent child, (body parent child).Unblocked) (attempts : ℕ) (before : WorkspaceStorage) :
    Answers (workspace.lockParentManifestFromPath path body (attempts + 2)) before := by
  obtain ⟨storage, -, ⟨error, played, -⟩ | ⟨-, parent, child, -, played⟩⟩ :=
    workspace.run_lockParent body path attempts before
  · exact ⟨_, _, played, nofun⟩
  · rw [Answers, played]
    obtain ⟨result, after, edited⟩ := (unblocked parent child).exists_run storage
    cases result with
    | error error => exact ⟨_, _, run_bind_of_error _ edited, nofun⟩
    | ok value => exact ⟨_, _, run_bind_of_ok _ edited, nofun⟩

theorem unblocked_checkWriteRights : (workspace.checkWriteRights path).Unblocked :=
  (unblocked_ofExcept _).bind fun _ => unblocked_ofExcept _

theorem unblocked_loadLocalManifest (id : EntryID) : (workspace.loadLocalManifest id).Unblocked := by
  refine (unblocked_observeOr _).attempt.bind fun found => ?_
  cases found with
  | ok manifest => trivial
  | error _ => exact (unblocked_ofExcept _).bind fun manifest => (unblocked_update _).bind fun _ => trivial

theorem unblocked_getManifestFromPath : (workspace.getManifestFromPath path).Unblocked := by
  refine (unblocked_foldlM (fun found name => ?_) path _).bind fun _ =>
    (unblocked_loadLocalManifest _).bind fun _ => trivial
  refine (unblocked_loadLocalManifest _).bind fun manifest => ?_
  cases manifest with
  | file manifest => trivial
  | folder manifest =>
    dsimp only
    split <;> trivial

theorem unblocked_renameChild {source : FsPath} {overwrite : Bool} (parent : LocalFolderishManifest)
    (child : Option LocalEntryManifest) :
    (workspace.renameChild source path overwrite parent child).Unblocked := by
  have looks : (workspace.renamedKinds parent child source.name path.name overwrite).Unblocked := by
    unfold renamedKinds
    split
    · split
      · refine Unblocked.bind ?_ fun _ => trivial
        refine (unblocked_observeOr _).attempt.bind fun found => ?_
        cases found with
        | ok manifest => trivial
        | error _ => exact unblocked_ofExcept _
      · trivial
    · trivial
  refine looks.bind fun kindOf => (unblocked_ofExcept _).bind fun next => ?_
  split
  · trivial
  · exact (unblocked_update _).bind fun _ => trivial

theorem answers_entryCreate {newPlaceholder : EntryID → EntryID → LocalEntryManifest}
    {finish : EntryID → WorkspaceCall α} (finishes : ∀ id, (finish id).Unblocked) (attempts : ℕ)
    (before : WorkspaceStorage) :
    Answers (workspace.entryCreate (attempts + 2) path newPlaceholder finish) before := by
  refine answers_bind unblocked_checkWriteRights (fun _ => answers_lockParent (fun parent child => ?_) _) before
  split
  · trivial
  · refine Unblocked.bind (fun _ => ⟨rfl, trivial⟩) fun id => (unblocked_ofExcept _).bind fun next => ?_
    exact (unblocked_update _).bind fun _ => (unblocked_update _).bind fun _ => finishes id

theorem answers_entryDelete {delete : (EntryID → ChildKind) → LocalFolderishManifest → Pattern → DateTime →
      EntryName → Except EntryError LocalFolderishManifest} (attempts : ℕ) (before : WorkspaceStorage) :
    Answers (workspace.entryDelete (attempts + 2) path delete) before := by
  refine answers_bind unblocked_checkWriteRights (fun _ => answers_lockParent (fun parent child => ?_) _) before
  exact (unblocked_ofExcept _).bind fun next => (unblocked_update _).bind fun _ => trivial

theorem answers_entryRename {source : FsPath} {overwrite : Bool} (attempts : ℕ) (before : WorkspaceStorage) :
    Answers (workspace.entryRename (attempts + 2) source path overwrite) before := by
  refine answers_bind unblocked_checkWriteRights (fun _ storage => ?_) before
  split
  · exact answers_raise _ storage
  split
  · exact answers_raise _ storage
  split
  · exact answers_raise _ storage
  refine answers_bind ?_ (fun _ => answers_lockParent unblocked_renameChild attempts) storage
  unfold prefetchSource
  split
  · exact unblocked_getManifestFromPath.bind fun _ => trivial
  · trivial

end Answers

end Workspace

/-- Whatever a call comes to, in any number of attempts. -/
theorem EntryCall.alone_transaction (workspace : Workspace) (before : WorkspaceStorage) (call : EntryCall)
    (attempts : ℕ) :
    Alone (workspace.Loads before) (call.transaction workspace attempts)
      (workspace.Ends call.path (call.Changes workspace.patternFilter before.nextId) before)
      (Workspace.Keeps before) := by
  have done {α : Type} (ended : Option α) (storage : WorkspaceStorage)
      (ends : workspace.Ends call.path
        (call.Changes workspace.patternFilter before.nextId) before ended storage) :
      workspace.Ends call.path (call.Changes workspace.patternFilter before.nextId) before
        (ended.map fun _ => ()) storage := by
    cases ended with
    | none => exact ends
    | some value => exact ends
  cases call with
  | folderCreate path =>
    refine (Workspace.alone_create (fun _ _ => rfl) (fun _ => alone_pure fun _ => id)
      fun parent next created => ?_).bind fun ended => alone_pure (done ended)
    exact edited_of_create created
  | fileCreate path openFile =>
    refine (Workspace.alone_create (fun _ _ => rfl) (fun childId => ?_)
      fun parent next created => ?_).bind fun ended => alone_pure (done ended)
    · split
      · exact Workspace.alone_createFileDescriptor.bind fun fd => alone_pure fun _ => id
      · exact alone_pure fun _ => id
    · exact edited_of_create created
  | entryRename source destination overwrite =>
    refine (Workspace.alone_rename fun kindOf parent next renamed => ?_).bind fun ended =>
      alone_pure (done ended)
    obtain ⟨base, requested, kept, same⟩ := edited_of_rename renamed
    exact ⟨base, ⟨requested, kept⟩, same⟩
  | folderDelete path =>
    refine (Workspace.alone_delete fun kindOf parent next deleted => ?_).bind fun ended =>
      alone_pure (done ended)
    exact edited_of_delete deleted
  | fileDelete path =>
    refine (Workspace.alone_delete fun kindOf parent next deleted => ?_).bind fun ended =>
      alone_pure (done ended)
    exact edited_of_delete deleted

/-- Two attempts at the lock are enough for a call to end. -/
theorem EntryCall.answers_transaction (workspace : Workspace) (call : EntryCall) (attempts : ℕ)
    (before : WorkspaceStorage) : Workspace.Answers (call.transaction workspace (attempts + 2)) before := by
  cases call with
  | folderCreate path =>
    have finishes (id : EntryID) : (pure id : WorkspaceCall EntryID).Unblocked := trivial
    exact (Workspace.answers_entryCreate finishes attempts before).map _
  | fileCreate path openFile =>
    refine (Workspace.answers_entryCreate (fun id => ?_) attempts before).map _
    split
    · exact Unblocked.bind (fun _ => ⟨rfl, trivial⟩) fun _ => trivial
    · trivial
  | entryRename source destination overwrite => exact (Workspace.answers_entryRename attempts before).map _
  | folderDelete path => exact (Workspace.answers_entryDelete attempts before).map _
  | fileDelete path => exact (Workspace.answers_entryDelete attempts before).map _

/-- The calls that create, rename and delete entries change one folder, exactly as they are asked to, and keep
its books. A call that raises changes nothing that is stored. From two attempts on, every call does one or the
other. -/
theorem folder_bookkeeping (workspace : Workspace) (call : EntryCall) (attempts : ℕ)
    (before after : WorkspaceStorage) :
    ((call.transaction workspace attempts).run before = some (.ok (some ()), after) →
      workspace.Edits call.path (call.Changes workspace.patternFilter before.nextId) before after) ∧
    (∀ error, (call.transaction workspace attempts).run before = some (.error error, after) →
      ∀ id manifest, before.manifests id = some manifest → after.manifests id = some manifest) ∧
    (2 ≤ attempts → ∃ result after, (call.transaction workspace attempts).run before = some (result, after) ∧
      result ≠ .ok none) := by
  obtain ⟨returns, raises⟩ := call.alone_transaction workspace before attempts before after .refl
  refine ⟨returns (some ()), raises, fun enough => ?_⟩
  obtain ⟨more, rfl⟩ := Nat.exists_eq_add_of_le' enough
  exact call.answers_transaction workspace more before

section Example

private def noName : Pattern := fun _ => false

private def rootFolder : LocalFolderishManifest where
  base := ⟨⟨"bob", "desktop"⟩, 1, 5, none, 1, 1, 1, .ofList [("a.txt", 6)]⟩
  needSync := false
  updated := 1
  children := .ofList [("a.txt", 6)]

private def rootStorage : WorkspaceStorage where
  manifests := fun id => if id = 5 then some (.folder rootFolder) else none
  keyed := by
    intro id manifest found
    split at found
    · next here =>
      cases found
      exact here.symm
    · cases found
  nextId := 9

/-- The file `a.txt`, which the device has not loaded. -/
private def remoteFile : RemoteFileManifest := ⟨⟨"bob", "desktop"⟩, 1, 6, 5, 1, 1, 1, 0, 512, []⟩

private theorem remoteFile_id {id : EntryID} (same : id = 6) : (RemoteEntryManifest.file remoteFile).id = id :=
  same.symm

private def smallWorkspace : Workspace where
  workspaceId := 5
  localAuthor := ⟨"alice", "laptop"⟩
  role := some .contributor
  patternFilter := noName
  now := 2
  loadManifest := fun id => if same : id = 6 then .ok ⟨.file remoteFile, remoteFile_id same⟩
    else .error (.remoteManifestNotFound id)

/-- A file is created beside another one, and then takes its place. -/
theorem folder_bookkeeping_overwritten : ∃ between after,
    ((EntryCall.fileCreate ["b.txt"] true).transaction smallWorkspace 2).run rootStorage =
      some (.ok (some ()), between) ∧
    smallWorkspace.Edits ["b.txt"] ((EntryCall.fileCreate ["b.txt"] true).Changes noName 9) rootStorage between ∧
    ((EntryCall.entryRename ["b.txt"] ["a.txt"] true).transaction smallWorkspace 2).run between =
      some (.ok (some ()), after) ∧
    smallWorkspace.Edits ["a.txt"] ((EntryCall.entryRename ["b.txt"] ["a.txt"] true).Changes noName 10) between
      after :=
  ⟨_, _, rfl, (folder_bookkeeping smallWorkspace (.fileCreate ["b.txt"] true) 2 rootStorage _).1 rfl, rfl,
    (folder_bookkeeping smallWorkspace (.entryRename ["b.txt"] ["a.txt"] true) 2 _ _).1 rfl⟩

end Example

end Guardata
