import Guardata.Model.FolderSync
import Guardata.Proofs.FolderManifest

/-! # What a step does to the manifest of a device

Every call of a device on its manifest is one of four changes: a placeholder appears, a version of
the backend becomes the base, the base stays and nothing is unmarked, or the children are edited.
`step?_cases` is the inversion of the step function in these terms; the branches of
`mergeManifests` are gone after it.
-/

namespace Guardata

open LocalFolderishManifest

/-- The base is kept, and what had nothing to upload and still has nothing shows the same. -/
def LocalFolderishManifest.Keeps (manifest next : LocalFolderishManifest) : Prop :=
  next.base = manifest.base ∧ (next.needSync = false → manifest.needSync = false) ∧
    (next.needSync = false → manifest.ShowsBase → next.ShowsBase)

/-- The remote version became the base, and is shown unless there is something to upload. -/
def LocalFolderishManifest.Adopts (remote : RemoteFolderishManifest) (next : LocalFolderishManifest) :
    Prop :=
  next.base = remote ∧ (next.needSync = false → next.ShowsBase)

theorem LocalFolderishManifest.Keeps.refl (manifest : LocalFolderishManifest) :
    manifest.Keeps manifest := ⟨rfl, id, fun _ => id⟩

section Merge

variable {normalize : String → String} {localAuthor : DeviceID} {patternFilter : Pattern}
  {manifest next : LocalFolderishManifest} {remoteManifest : Option RemoteFolderishManifest}
  {forceFilter : Bool} {ids : List EntryID} {now : DateTime}

theorem mergeManifests_spec (merged : mergeManifests normalize localAuthor patternFilter manifest
      remoteManifest forceFilter ids now = .ok next) :
    manifest.Keeps next ∨ ∃ remote, remoteManifest = some remote ∧ next.Adopts remote := by
  rw [mergeManifests, Except.bind_eq_ok_iff] at merged
  obtain ⟨filtered, applied, merged⟩ := merged
  have kept : manifest.Keeps filtered := by
    unfold reapplyFilter at applied
    split at applied
    · exact applyFilter_spec applied
    · cases applied; exact .refl manifest
  cases remoteManifest with
  | none => cases merged; exact .inl kept
  | some remote =>
    simp only at merged
    split at merged
    · cases merged; exact .inl kept
    · obtain ⟨fetched, loaded, merged⟩ := Except.bind_eq_ok_iff.mp merged
      have adopted : fetched.Adopts remote := fromRemote_spec loaded
      refine .inr ⟨remote, rfl, ?_⟩
      split at merged
      · cases merged; exact adopted
      · next marked =>
        split at merged
        · cases merged; exact adopted
        · split at merged
          · cases merged
            exact ⟨rfl, fun silent => absurd silent marked⟩
          · obtain ⟨children, -, merged⟩ := Except.bind_eq_ok_iff.mp merged
            cases merged
            exact ⟨adopted.1, fun silent => by cases silent⟩

theorem synchronizationStep_spec {device : FolderDevice} {confined final : Bool}
    {toUpload : Option RemoteFolderishManifest}
    (synced : synchronizationStep normalize localAuthor device manifest confined remoteManifest final
      ids now = .ok (next, toUpload)) :
    manifest.Keeps next ∨ ∃ remote, remoteManifest = some remote ∧ next.Adopts remote := by
  unfold synchronizationStep at synced
  split at synced
  · cases synced; exact .inl (.refl manifest)
  · obtain ⟨merged, done, synced⟩ := Except.bind_eq_ok_iff.mp synced
    have stored : next = if merged.Equal manifest then manifest else merged := by
      generalize (if merged.Equal manifest then manifest else merged) = stored at synced ⊢
      simp only at synced
      split at synced <;> cases synced <;> rfl
    rw [stored]
    split
    · exact .inl (.refl manifest)
    · exact mergeManifests_spec done

end Merge

namespace FolderSystem

variable {normalize : String → String} {system next : FolderSystem}
  {event : DeviceID × DateTime × FolderCall}

/-- What a call other than an edit does to the manifest of its device. -/
inductive ManifestChange (system : FolderSystem) :
    Option LocalFolderishManifest → Option LocalFolderishManifest → Prop
  | unchanged (before : Option LocalFolderishManifest) : ManifestChange system before before
  | placed {next : LocalFolderishManifest} (marked : next.needSync = true)
      (fresh : next.base.version = 0) : ManifestChange system none (some next)
  | adopted {before : Option LocalFolderishManifest} {next : LocalFolderishManifest} {number : ℕ}
      {remote : RemoteFolderishManifest} (known : system.version? number = some remote)
      (adopts : next.Adopts remote) : ManifestChange system before (some next)
  | kept {manifest next : LocalFolderishManifest} (keeps : manifest.Keeps next) :
      ManifestChange system (some manifest) (some next)

/-- A step edits the children on one device, changes its manifest in another way, or has one more
version accepted. -/
theorem step?_cases (step : system.step? normalize event = some next) :
    (∃ data manifest edited, event.2.2 = .evolveChildren data ∧
      (system.devices event.1).manifest = some manifest ∧
      manifest.evolveChildrenAndMarkUpdated data (system.devices event.1).patternFilter event.2.1 =
        .ok edited ∧
      next = system.setDevice event.1 { system.devices event.1 with manifest := some edited }) ∨
    (∃ device, (∀ data, event.2.2 ≠ .evolveChildren data) ∧
      next = system.setDevice event.1 device ∧
      ManifestChange system (system.devices event.1).manifest device.manifest) ∨
    (∃ remote, (∀ data, event.2.2 ≠ .evolveChildren data) ∧
      remote.version = system.versions.length + 1 ∧
      next = { system with versions := system.versions ++ [remote] }) := by
  obtain ⟨author, now, call⟩ := event
  simp only [step?] at step
  split at step
  · next parent absent =>
    cases step
    refine .inr (.inl ⟨_, nofun, rfl, ?_⟩)
    rw [absent]
    exact .placed rfl rfl
  · cases step
  · next version absent =>
    obtain ⟨remote, known, step⟩ := Option.bind_eq_some_iff.mp step
    obtain ⟨loaded, done, step⟩ := Option.bind_eq_some_iff.mp step
    cases step
    refine .inr (.inl ⟨_, nofun, rfl, .adopted known ?_⟩)
    exact fromRemote_spec (Except.toOption_eq_some_iff.mp done)
  · cases step
  · next data manifest present =>
    obtain ⟨edited, done, step⟩ := Option.bind_eq_some_iff.mp step
    cases step
    exact .inl ⟨data, manifest, edited, rfl, present, Except.toOption_eq_some_iff.mp done, rfl⟩
  · cases step
    exact .inr (.inl ⟨_, nofun, rfl, .unchanged _⟩)
  · next patternFilter manifest present =>
    obtain ⟨filtered, done, step⟩ := Option.bind_eq_some_iff.mp step
    cases step
    refine .inr (.inl ⟨_, nofun, rfl, ?_⟩)
    rw [present]
    simp only
    split
    · exact .unchanged _
    · exact .kept (applyFilter_spec (Except.toOption_eq_some_iff.mp done))
  · next confined remoteVersion final ids manifest present =>
    obtain ⟨remote, fetched, step⟩ := Option.bind_eq_some_iff.mp step
    obtain ⟨⟨synced, toUpload⟩, done, step⟩ := Option.bind_eq_some_iff.mp step
    cases step
    refine .inr (.inl ⟨_, nofun, rfl, ?_⟩)
    rw [present]
    rcases synchronizationStep_spec (Except.toOption_eq_some_iff.mp done) with keeps |
      ⟨remote, rfl, adopts⟩
    · exact .kept keeps
    · cases remoteVersion with
      | none => cases fetched
      | some version =>
        obtain ⟨_, known, same⟩ := Option.map_eq_some_iff.mp fetched
        cases same
        exact .adopted known adopts
  · cases step
    exact .inr (.inl ⟨_, nofun, rfl, .unchanged _⟩)
  · cases step
  · cases step
  · cases step
  · cases step
  · obtain ⟨manifest, -, step⟩ := Option.bind_eq_some_iff.mp step
    split at step
    · next follows =>
      cases step
      refine .inr (.inr ⟨_, nofun, ?_, rfl⟩)
      exact follows
    · cases step

end FolderSystem

end Guardata
