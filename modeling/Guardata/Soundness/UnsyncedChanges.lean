import Guardata.Machine.Run
import Guardata.Proofs.FolderSync

/-! # A folder with nothing to upload is what the backend has

`needSync` is a promise: without it, what the device would upload is the version it is based on,
so two devices based on one version agree. The promise rests on the confined entries, from which
an id must not go while it stands under some name. An edit breaks it exactly when it removes one
of two names of a confined id, keeps the other, and the base does not have that other name.
-/

namespace Guardata

open Machine LocalFolderishManifest

/-- An edit of a manifest with nothing to upload that stays confined, and uncovers a name that is
not in the base. -/
def LocalFolderishManifest.Exposes (manifest : LocalFolderishManifest)
    (data : Dict EntryName (Option EntryID)) (patternFilter : Pattern) : Prop :=
  manifest.needSync = false ∧ manifest.StaysConfined data patternFilter ∧
    ∃ name, manifest.Uncovers data name ∧ name ∉ manifest.base.children.keys

namespace FolderSystem

variable {normalize : String → String} {system next : FolderSystem}
  {event : DeviceID × DateTime × FolderCall}

/-- The event is an edit that exposes an entry of its device. -/
def Exposes (system : FolderSystem) (event : DeviceID × DateTime × FolderCall) : Prop :=
  ∃ data manifest, event.2.2 = .evolveChildren data ∧
    (system.devices event.1).manifest = some manifest ∧
    manifest.Exposes data (system.devices event.1).patternFilter

/-- A manifest with nothing to upload would be uploaded as the version of the backend it is based
on, and any two such manifests of one version have the same remote children. -/
def NothingUnsynced (system : FolderSystem) : Prop :=
  (∀ author manifest, (system.devices author).manifest = some manifest → manifest.needSync = false →
    ∃ remote, system.version? manifest.baseVersion = some remote ∧
      manifest.base.children = remote.children ∧
      ∀ timestamp, (manifest.toRemote author timestamp).children.Same remote.children) ∧
  ∀ first second left right, (system.devices first).manifest = some left →
    (system.devices second).manifest = some right → left.needSync = false → right.needSync = false →
    left.baseVersion = right.baseVersion → ∀ timestamp timestamp',
      (left.toRemote first timestamp).children.Same (right.toRemote second timestamp').children

/-- Every manifest is based on a version of the backend, or on none and is to be uploaded. -/
structure Grounded (system : FolderSystem) : Prop where
  numbered : ∀ number remote, system.version? number = some remote → remote.version = number
  based : ∀ author manifest, (system.devices author).manifest = some manifest →
    (manifest.needSync = true ∧ manifest.base.version = 0) ∨
      system.version? manifest.base.version = some manifest.base

/-- Every manifest with nothing to upload shows its base. -/
def Settled (system : FolderSystem) : Prop :=
  ∀ author manifest, (system.devices author).manifest = some manifest → manifest.needSync = false →
    manifest.ShowsBase

theorem Grounded.nothingUnsynced_iff (grounded : system.Grounded) :
    system.NothingUnsynced ↔ system.Settled := by
  have base : ∀ author manifest, (system.devices author).manifest = some manifest →
      manifest.needSync = false → system.version? manifest.baseVersion = some manifest.base := by
    intro author manifest present silent
    rcases grounded.based author manifest present with ⟨marked, -⟩ | known
    · rw [silent] at marked; cases marked
    · exact known
  constructor
  · rintro ⟨synced, -⟩ author manifest present silent other timestamp
    obtain ⟨remote, -, same, shows⟩ := synced author manifest present silent
    rw [same]
    exact shows timestamp
  · intro settled
    refine ⟨fun author manifest present silent => ⟨manifest.base, base _ _ present silent, rfl,
      fun timestamp => settled _ _ present silent author timestamp⟩, ?_⟩
    intro first second left right presentL presentR silentL silentR version timestamp timestamp'
    have same : right.base = left.base := by
      apply Option.some.inj
      rw [← base _ _ presentL silentL, ← base _ _ presentR silentR, version]
    have showsL := settled _ _ presentL silentL first timestamp
    have showsR := settled _ _ presentR silentR second timestamp'
    rw [same] at showsR
    exact showsL.trans showsR.symm

theorem version?_eq_some_of_append {number : ℕ} {remote : RemoteFolderishManifest}
    (known : system.version? number = some remote) (versions : List RemoteFolderishManifest) :
    version? { system with versions := system.versions ++ versions } number = some remote := by
  cases number with
  | zero => cases known
  | succ index =>
    have bound := (List.getElem?_eq_some_iff.mp known).1
    rw [version?, List.getElem?_append_left bound]
    exact known

@[simp] theorem version?_setDevice (author : DeviceID) (device : FolderDevice) (number : ℕ) :
    (system.setDevice author device).version? number = system.version? number := rfl

theorem manifest_setDevice {author other : DeviceID} {device : FolderDevice} {result : Option
    LocalFolderishManifest} (present : ((system.setDevice author device).devices other).manifest = result) :
    (other = author ∧ device.manifest = result) ∨
      (other ≠ author ∧ (system.devices other).manifest = result) := by
  by_cases same : other = author
  · subst same
    exact .inl ⟨rfl, by simpa [setDevice] using present⟩
  · exact .inr ⟨same, by simpa [setDevice, same] using present⟩

/-- A manifest without a version keeps its mark. -/
theorem Grounded.carry (grounded : system.Grounded) {author : DeviceID}
    {manifest after : LocalFolderishManifest} (before : (system.devices author).manifest = some manifest)
    (base : after.base = manifest.base) (silent : after.needSync = false → manifest.needSync = false) :
    (after.needSync = true ∧ after.base.version = 0) ∨
      system.version? after.base.version = some after.base := by
  rw [base]
  rcases grounded.based author manifest before with ⟨marked, fresh⟩ | known
  · refine .inl ⟨?_, fresh⟩
    by_contra unmarked
    rw [silent (Bool.eq_false_of_not_eq_true unmarked)] at marked
    cases marked
  · exact .inr known

/-- The bookkeeping of the bases survives every step. -/
theorem Grounded.step (step : system.step? normalize event = some next) (grounded : system.Grounded) :
    next.Grounded := by
  rcases step?_cases step with ⟨data, manifest, edited, -, before, evolved, rfl⟩ |
    ⟨device, -, rfl, change⟩ | ⟨remote, -, follows, rfl⟩
  · refine ⟨grounded.numbered, fun author other present => ?_⟩
    rw [version?_setDevice]
    rcases manifest_setDevice present with ⟨rfl, changed⟩ | ⟨-, old⟩
    · cases changed
      obtain ⟨-, base, -, -, -, silent⟩ := evolveChildrenAndMarkUpdated_eq_ok evolved
      exact grounded.carry before base fun unmarked => (silent.mp unmarked).1
    · exact grounded.based author other old
  · refine ⟨grounded.numbered, fun author manifest present => ?_⟩
    rw [version?_setDevice]
    rcases manifest_setDevice present with ⟨rfl, changed⟩ | ⟨-, old⟩
    · rw [changed] at change
      generalize before : (system.devices event.1).manifest = source at change
      cases change with
      | unchanged => exact grounded.based _ _ before
      | placed marked fresh => exact .inl ⟨marked, fresh⟩
      | adopted known adopts =>
        rw [adopts.1, grounded.numbered _ _ known]
        exact .inr known
      | kept keeps => exact grounded.carry before keeps.1 keeps.2.1
    · exact grounded.based author manifest old
  · refine ⟨fun number other known => ?_, fun author manifest present => ?_⟩
    · cases number with
      | zero => cases known
      | succ index =>
        rcases lt_or_ge index system.versions.length with bound | bound
        · apply grounded.numbered
          rwa [version?, List.getElem?_append_left bound] at known
        · rw [version?, List.getElem?_append_right bound, List.getElem?_singleton] at known
          split at known
          · cases known; omega
          · cases known
    · rcases grounded.based author manifest present with fresh | known
      · exact .inl fresh
      · exact .inr (version?_eq_some_of_append known _)

/-- Only the manifest of the calling device can become unsettled. -/
theorem Settled.setDevice_iff (settled : system.Settled) {author : DeviceID} {device : FolderDevice} :
    (system.setDevice author device).Settled ↔
      ∀ manifest, device.manifest = some manifest → manifest.needSync = false → manifest.ShowsBase := by
  constructor
  · intro after manifest present
    exact after author manifest (by simpa [setDevice] using present)
  · intro after other manifest present
    rcases manifest_setDevice present with ⟨-, changed⟩ | ⟨-, old⟩
    · exact after manifest changed
    · exact settled other manifest old

/-- The step lemma: what is settled stays settled unless the step is an exposing edit. -/
theorem Settled.step_iff (step : system.step? normalize event = some next) (settled : system.Settled) :
    next.Settled ↔ ¬ system.Exposes event := by
  rcases step?_cases step with ⟨data, manifest, edited, called, before, evolved, rfl⟩ |
    ⟨device, other, rfl, change⟩ | ⟨remote, other, -, rfl⟩
  · obtain ⟨-, -, -, -, -, silent_iff⟩ := evolveChildrenAndMarkUpdated_eq_ok evolved
    have exposes : system.Exposes event ↔
        manifest.Exposes data (system.devices event.1).patternFilter := by
      constructor
      · rintro ⟨otherData, otherManifest, again, present, exposes⟩
        rw [called] at again
        rw [before] at present
        cases again
        cases present
        exact exposes
      · exact fun exposes => ⟨data, manifest, called, before, exposes⟩
    rw [exposes, settled.setDevice_iff]
    constructor
    · rintro after ⟨silent, confined, name, uncovered, absent⟩
      have shows := settled _ _ before silent
      have shown := after edited rfl (silent_iff.mpr ⟨silent, confined⟩)
      exact absent ((showsBase_evolveChildren_iff evolved confined shows).mp shown name uncovered)
    · rintro covered _ ⟨⟩ unmarked
      obtain ⟨silent, confined⟩ := silent_iff.mp unmarked
      rw [showsBase_evolveChildren_iff evolved confined (settled _ _ before silent)]
      intro name uncovered
      by_contra absent
      exact covered ⟨silent, confined, name, uncovered, absent⟩
  · refine iff_of_true ?_ (fun ⟨data, _, called, _⟩ => other data called)
    rw [settled.setDevice_iff]
    generalize before : (system.devices event.1).manifest = source at change
    generalize device.manifest = target at change ⊢
    rintro manifest rfl silent
    cases change with
    | unchanged => exact settled _ _ before silent
    | placed marked fresh => rw [marked] at silent; cases silent
    | adopted known adopts => exact adopts.2 silent
    | kept keeps => exact keeps.2.2 silent (settled _ _ before (keeps.2.1 silent))
  · exact iff_of_true settled (fun ⟨data, _, called, _⟩ => other data called)

end FolderSystem

open FolderSystem

/-- Along every run, of any number of devices and in any order of their calls, no state has a
manifest with nothing to upload that differs from its version of the backend, if and only if no
edit of the run exposes an entry that was confined. -/
theorem nothing_unsynced_iff (normalize : String → String) (entryId : EntryID)
    (events : List (DeviceID × DateTime × FolderCall)) :
    Along (FolderSystem.step? normalize) (fun _ _ next => next.NothingUnsynced) { entryId := entryId }
        events ↔
      Along (FolderSystem.step? normalize) (fun system event _ => ¬ system.Exposes event)
        { entryId := entryId } events := by
  apply along_congr (fun system => system.Grounded ∧ system.Settled)
  · rintro system event next ⟨grounded, settled⟩ step
    rw [(grounded.step step).nothingUnsynced_iff, settled.step_iff step]
  · rintro system event next ⟨grounded, settled⟩ step covered
    exact ⟨grounded.step step, (settled.step_iff step).mpr covered⟩
  · refine ⟨⟨fun number remote known => ?_, nofun⟩, nofun⟩
    cases number <;> cases known

section Example

private def aliceLaptop : DeviceID := ⟨"alice", "laptop"⟩
private def bobDesktop : DeviceID := ⟨"bob", "desktop"⟩

private def temporaryFiles : Pattern := fun name => name = "a.tmp"
private def temporaryAndBackups : Pattern := fun name => name = "a.tmp" ∨ name = "b.bak"

/-- Bob renames a file to a name that Alice's filter hides, so that Alice brings the old name back
beside the new one. Bob confines both; Alice deletes both; then Bob deletes one of them. -/
private def twoNames : List (DeviceID × DateTime × FolderCall) :=
  [(aliceLaptop, 1, .newPlaceholder none),
    (aliceLaptop, 2, .evolveChildren (Dict.ofList [("b.bak", some 7)])),
    (aliceLaptop, 3, .synchronizationStep false none false []),
    (aliceLaptop, 4, .uploadManifest 0 true),
    (aliceLaptop, 5, .synchronizationStep false (some 1) true []),
    (aliceLaptop, 6, .setPatternFilter temporaryFiles false),
    (aliceLaptop, 7, .applyFilter temporaryFiles),
    (aliceLaptop, 8, .setPatternFilter temporaryFiles true),
    (bobDesktop, 9, .loadManifest 1),
    (bobDesktop, 10, .evolveChildren (Dict.ofList [("a.tmp", some 7), ("b.bak", none)])),
    (bobDesktop, 11, .synchronizationStep false none false []),
    (bobDesktop, 12, .uploadManifest 0 true),
    (bobDesktop, 13, .synchronizationStep false (some 2) true []),
    (aliceLaptop, 14, .synchronizationStep false (some 2) false []),
    (aliceLaptop, 15, .uploadManifest 1 true),
    (aliceLaptop, 16, .synchronizationStep false (some 3) true []),
    (bobDesktop, 17, .synchronizationStep false (some 3) false []),
    (bobDesktop, 18, .setPatternFilter temporaryAndBackups false),
    (bobDesktop, 19, .applyFilter temporaryAndBackups),
    (bobDesktop, 20, .setPatternFilter temporaryAndBackups true),
    (aliceLaptop, 21, .setPatternFilter (fun _ => false) false),
    (aliceLaptop, 22, .applyFilter fun _ => false),
    (aliceLaptop, 23, .setPatternFilter (fun _ => false) true),
    (aliceLaptop, 24, .evolveChildren (Dict.ofList [("a.tmp", none)])),
    (aliceLaptop, 25, .evolveChildren (Dict.ofList [("b.bak", none)])),
    (aliceLaptop, 26, .synchronizationStep false none false []),
    (aliceLaptop, 27, .uploadManifest 2 true),
    (bobDesktop, 28, .synchronizationStep false (some 4) false []),
    (bobDesktop, 29, .evolveChildren (Dict.ofList [("a.tmp", none)]))]

/-- Bob ends up with nothing to upload and a child that the backend does not have. -/
theorem second_name_of_confined_entry_unsynced :
    ∃ system, run? (FolderSystem.step? id) { entryId := 5 } twoNames = some system ∧
    ¬ system.NothingUnsynced := by
  refine ⟨_, rfl, ?_⟩
  rintro ⟨synced, -⟩
  obtain ⟨remote, known, -, shows⟩ := synced bobDesktop _ rfl rfl
  cases known
  exact absurd (shows 30) (by decide)

end Example

end Guardata
