import Guardata.Model.WorkspaceTransactions
import Guardata.Proofs.EntryTransactions

/-! # What the calls on paths do to the local storage

On its way to a folder a call stores manifests that were missing, and changes none that was there. It gets
the folder that the path leads to and, if there is one, the child. The calls change nothing before their
last check has passed.
-/

namespace Guardata

open Machine Coroutine

/-- The child under a name of a stored folder. -/
def WorkspaceStorage.child? (storage : WorkspaceStorage) (id : EntryID) (name : EntryName) :
    Option EntryID :=
  match storage.manifests id with
  | some (.folder manifest) => manifest.children.get? name
  | _ => none

/-- The entry that a path leads to through stored folders. -/
def WorkspaceStorage.follow? (storage : WorkspaceStorage) (start : EntryID) (path : FsPath) :
    Option EntryID := path.foldlM storage.child? start

namespace Workspace

variable (workspace : Workspace)

/-- Missing manifests have been stored. -/
structure Loads (before after : WorkspaceStorage) : Prop where
  kept : ∀ id manifest, before.manifests id = some manifest → after.manifests id = some manifest
  loaded : ∀ id manifest, after.manifests id = some manifest → before.manifests id = some manifest ∨
    ∃ remote, workspace.loadManifest id = .ok remote ∧
      manifest = .fromRemote workspace.patternFilter remote.1
  nextId : after.nextId = before.nextId

variable {workspace} {before : WorkspaceStorage}

theorem Loads.refl : workspace.Loads before before where
  kept := fun _ _ found => found
  loaded := fun _ _ found => .inl found
  nextId := rfl

theorem Loads.trans {between after : WorkspaceStorage} (first : workspace.Loads before between)
    (second : workspace.Loads between after) : workspace.Loads before after where
  kept := fun id manifest found => second.kept id manifest (first.kept id manifest found)
  loaded := fun id manifest found => (second.loaded id manifest found).elim (first.loaded id manifest) .inr
  nextId := second.nextId.trans first.nextId

/-- A manifest that was missing is stored. -/
theorem Loads.set {storage : WorkspaceStorage} (loads : workspace.Loads before storage) {id : EntryID}
    {remote : { remote : RemoteEntryManifest // remote.id = id }}
    (missing : storage.manifests id = none) (answered : workspace.loadManifest id = .ok remote) :
    workspace.Loads before (storage.set (.fromRemote workspace.patternFilter remote.1)) := by
  have own : (LocalEntryManifest.fromRemote workspace.patternFilter remote.1).id = id := by
    rw [LocalEntryManifest.fromRemote_id, remote.2]
  constructor
  · intro other manifest found
    have different : other ≠ id := by
      rintro rfl
      have again := loads.kept other manifest found
      rw [missing] at again
      cases again
    simp only [WorkspaceStorage.set, own]
    rw [Function.update_of_ne different]
    exact loads.kept other manifest found
  · intro other manifest found
    simp only [WorkspaceStorage.set, own] at found
    by_cases same : other = id
    · subst same
      rw [Function.update_self] at found
      cases found
      exact .inr ⟨remote, answered, rfl⟩
    · rw [Function.update_of_ne same] at found
      exact loads.loaded other manifest found
  · exact loads.nextId

theorem Loads.child? {storage : WorkspaceStorage} (loads : workspace.Loads before storage)
    {id child : EntryID} {name : EntryName} (found : before.child? id name = some child) :
    storage.child? id name = some child := by
  unfold WorkspaceStorage.child? at found ⊢
  cases stored : before.manifests id with
  | none =>
    rw [stored] at found
    cases found
  | some manifest =>
    rw [stored] at found
    rw [loads.kept id manifest stored]
    exact found

theorem Loads.follow? {storage : WorkspaceStorage} (loads : workspace.Loads before storage) {path : FsPath}
    {start id : EntryID} (found : before.follow? start path = some id) :
    storage.follow? start path = some id := by
  induction path generalizing start with
  | nil => exact found
  | cons name rest ih =>
    rw [WorkspaceStorage.follow?, List.foldlM_cons] at found ⊢
    obtain ⟨child, here, later⟩ := Option.bind_eq_some_iff.mp found
    rw [loads.child? here]
    exact ih later

section Lookup

theorem alone_getManifest {pre : WorkspaceStorage → Prop} (id : EntryID) :
    Alone pre (getManifest id) (fun manifest storage => pre storage ∧ storage.manifests id = some manifest)
      (fun storage => pre storage ∧ storage.manifests id = none) := by
  refine alone_observeOr (fun storage manifest given seen => ?_) fun storage error given seen => ?_
  · cases stored : storage.manifests id with
    | none =>
      rw [stored] at seen
      cases seen
    | some found =>
      rw [stored] at seen
      cases seen
      exact ⟨given, rfl⟩
  · cases stored : storage.manifests id with
    | none => exact ⟨given, rfl⟩
    | some found =>
      rw [stored] at seen
      cases seen

theorem alone_remoteManifest {pre : WorkspaceStorage → Prop} (id : EntryID) :
    Alone pre (workspace.remoteManifest id) (fun manifest storage => pre storage ∧ ∃ remote,
      workspace.loadManifest id = .ok remote ∧ manifest = .fromRemote workspace.patternFilter remote.1)
      pre := by
  refine alone_ofExcept (fun storage manifest given answered => ?_) fun storage given => given
  cases asked : workspace.loadManifest id with
  | error error =>
    rw [asked] at answered
    cases answered
  | ok remote =>
    rw [asked] at answered
    cases answered
    exact ⟨given, remote, rfl, rfl⟩

theorem alone_fetchManifest {pre : WorkspaceStorage → Prop} (id : EntryID) :
    Alone pre (workspace.fetchManifest id) (fun _ => pre) pre := by
  refine (alone_getManifest id).attempt.bind fun result => ?_
  cases result with
  | ok manifest => exact alone_pure fun storage given => given.1
  | error error =>
    exact (alone_remoteManifest id).mono (fun storage given => given.1) (fun _ storage given => given.1)
      fun storage given => given

/-- A manifest is stored once it has been loaded. -/
theorem alone_loadLocalManifest (id : EntryID) :
    Alone (workspace.Loads before) (workspace.loadLocalManifest id)
      (fun manifest storage => workspace.Loads before storage ∧ storage.manifests id = some manifest)
      (workspace.Loads before) := by
  refine (alone_getManifest id).attempt.bind fun result => ?_
  cases result with
  | ok manifest => exact alone_pure fun storage given => given
  | error error =>
    refine Alone.bind ((alone_remoteManifest id).mono (fun storage given => given)
      (fun _ storage given => given) fun storage given => given.1) fun manifest => ?_
    have stores : Alone (fun storage => (workspace.Loads before storage ∧ storage.manifests id = none) ∧
        ∃ remote, workspace.loadManifest id = .ok remote ∧
          manifest = .fromRemote workspace.patternFilter remote.1) (setManifest manifest)
        (fun _ storage => workspace.Loads before storage ∧ storage.manifests id = some manifest)
        (workspace.Loads before) := by
      refine alone_update ?_
      rintro storage ⟨⟨loads, missing⟩, remote, answered, rfl⟩
      refine ⟨loads.set missing answered, ?_⟩
      simp only [WorkspaceStorage.set]
      rw [LocalEntryManifest.fromRemote_id, remote.2, Function.update_self]
    exact stores.bind fun _ => alone_pure fun storage given => given

theorem alone_followName (whole : FsPath) (found : EntryID × Bool) (name : EntryName) :
    Alone (workspace.Loads before) (workspace.followName whole found name)
      (fun next storage => workspace.Loads before storage ∧ storage.child? found.1 name = some next.1)
      (workspace.Loads before) := by
  refine (alone_loadLocalManifest found.1).bind fun manifest => ?_
  cases manifest with
  | file manifest => exact alone_raise fun storage given => given.1
  | folder manifest =>
    cases child : manifest.children.get? name with
    | none =>
      simp only [child]
      exact alone_raise fun storage given => given.1
    | some entryId =>
      simp only [child]
      refine alone_pure fun storage given => ⟨given.1, ?_⟩
      rw [WorkspaceStorage.child?, given.2]
      exact child

/-- The walk along a path. -/
theorem alone_followNames (whole path : FsPath) (start : EntryID × Bool) :
    Alone (workspace.Loads before) (path.foldlM (workspace.followName whole) start)
      (fun found storage => workspace.Loads before storage ∧ storage.follow? start.1 path = some found.1)
      (workspace.Loads before) := by
  induction path generalizing start before with
  | nil => exact alone_pure fun storage loads => ⟨loads, rfl⟩
  | cons name rest ih =>
    rw [List.foldlM_cons]
    refine (alone_followName whole start name).bind fun next => ?_
    intro storage after given
    have begins : workspace.Loads storage storage := .refl
    refine ⟨fun found played => ?_, fun error played => given.1.trans
      ((ih next storage after begins).2 error played)⟩
    obtain ⟨loads, leads⟩ := (ih next storage after begins).1 found played
    refine ⟨given.1.trans loads, ?_⟩
    rw [WorkspaceStorage.follow?, List.foldlM_cons, loads.child? given.2]
    exact leads

theorem alone_getManifestFromPath (path : FsPath) :
    Alone (workspace.Loads before) (workspace.getManifestFromPath path)
      (fun found storage => workspace.Loads before storage ∧ ∃ entryId,
        storage.follow? workspace.workspaceId path = some entryId ∧
          storage.manifests entryId = some found.1)
      (workspace.Loads before) := by
  refine (alone_followNames path path (workspace.workspaceId, false)).bind fun found => ?_
  refine alone_of_eq fun storage given => ?_
  have loading : Alone (· = storage) (workspace.loadLocalManifest found.1) (fun manifest after =>
      workspace.Loads storage after ∧ after.manifests found.1 = some manifest) (workspace.Loads before) := by
    refine (alone_loadLocalManifest found.1).mono ?_ (fun _ _ => id) ?_
    · rintro _ rfl
      exact .refl
    · exact fun after loads => given.1.trans loads
  refine loading.bind fun manifest => alone_pure ?_
  rintro after ⟨loads, stored⟩
  exact ⟨given.1.trans loads, found.1, loads.follow? given.2, stored⟩

/-- A call on a child gets the folder that it is in. -/
theorem alone_lockParent {α : Type} {path : FsPath}
    {body : LocalFolderishManifest → Option LocalEntryManifest → WorkspaceCall α}
    {returns : α → WorkspaceStorage → Prop} {raises : WorkspaceStorage → Prop}
    (calls : ∀ parentId parent child, Alone (fun storage => workspace.Loads before storage ∧
      storage.follow? workspace.workspaceId path.parent = some parentId ∧
        storage.manifests parentId = some (.folder parent)) (body parent child) returns raises)
    (fails : ∀ storage, workspace.Loads before storage → raises storage) (attempts : ℕ) :
    Alone (workspace.Loads before) (workspace.lockParentManifestFromPath path body attempts)
      (fun result storage => match result with
        | none => workspace.Loads before storage
        | some value => returns value storage)
      raises := by
  induction attempts with
  | zero => exact alone_pure fun storage loads => loads
  | succ attempts ih =>
    rw [lockParentManifestFromPath]
    split
    · exact alone_raise fails
    · refine ((alone_getManifestFromPath path.parent).mono (fun _ => id) (fun _ _ => id) fails).bind
        fun found => ?_
      obtain ⟨manifest, confined⟩ := found
      cases manifest with
      | file manifest => exact alone_raise fun storage given => fails storage given.1
      | folder parent =>
        refine alone_of_eq fun storage given => ?_
        obtain ⟨loads, parentId, leads, stored⟩ := given
        have here (child : Option LocalEntryManifest) : Alone (· = storage)
          (body parent child) returns raises :=
          (calls parentId parent child).mono (by rintro _ rfl; exact ⟨loads, leads, stored⟩) (fun _ _ => id)
            fun _ => id
        simp only
        cases parent.children.get? path.name with
        | none => exact (here none).bind fun value => alone_pure fun _ => id
        | some entryId =>
          refine (alone_getManifest entryId).attempt.bind fun result => ?_
          cases result with
          | ok child =>
            refine Alone.bind ((here (some child)).mono ?_ (fun _ _ => id) fun _ => id) fun value =>
              alone_pure fun _ => id
            exact fun _ given => given.1
          | error error =>
            have loading : Alone (workspace.Loads before) (workspace.loadLocalManifest entryId)
                (fun _ => workspace.Loads before) raises :=
              (alone_loadLocalManifest entryId).mono (fun _ => id) (fun _ _ loaded => loaded.1) fails
            refine (loading.bind fun _ => ih).mono ?_ (fun _ _ => id) fun _ => id
            rintro _ ⟨rfl, -⟩
            exact loads

end Lookup

end Workspace

end Guardata
