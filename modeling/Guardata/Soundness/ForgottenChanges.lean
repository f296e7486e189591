import Guardata.Machine.Run
import Guardata.Proofs.UserManifest

/-! # Changes of a user manifest that are never uploaded

A merge keeps local names and keys entry by entry, but it asks for an upload only if there is a
workspace or a message offset that the received version lacks. Along every run of the devices of a
user, a manifest with nothing to upload is its base exactly if no merge of the run is of the kind that
keeps such a change and asks for nothing.
-/

namespace Guardata

open Machine

/-- What an entry says about its workspace, apart from dates and the role. -/
def UserWorkspaceEntry.settings (entry : UserWorkspaceEntry) : EntryName × SecretKey × ℕ :=
  (entry.name, entry.key, entry.encryptionRevision)

namespace LocalUserManifest

/-- A manifest with nothing to upload says what its base says. -/
def NothingForgotten (manifest : LocalUserManifest) : Prop :=
  manifest.needSync = false →
    manifest.lastProcessedMessage = manifest.base.lastProcessedMessage ∧
    ∀ workspaceId, (getWorkspaceEntry manifest.workspaces workspaceId).map (·.settings) =
      (getWorkspaceEntry manifest.base.workspaces workspaceId).map (·.settings)

/-- A workspace was renamed here, and not on the other side. -/
def RenamedHere (manifest : LocalUserManifest) (mine theirs : UserWorkspaceEntry) : Prop :=
  ∃ known ∈ manifest.base.workspaces, known.id = mine.id ∧ known.name = theirs.name ∧
    mine.name ≠ known.name

/-- The encryption that is known here is at least as recent as the other one, and differs from it. -/
def EncryptedHere (mine theirs : UserWorkspaceEntry) : Prop :=
  theirs.encryptionRevision ≤ mine.encryptionRevision ∧
    (mine.key, mine.encryptionRevision) ≠ (theirs.key, theirs.encryptionRevision)

/-- Taking over this version keeps a change of a workspace and asks for no upload: the version has
every workspace and every message. -/
def Forgets (manifest : LocalUserManifest) (target : UserManifest) : Prop :=
  manifest.base.version < target.version ∧
    manifest.lastProcessedMessage ≤ target.lastProcessedMessage ∧
    (∀ mine ∈ manifest.workspaces, mine.id ∈ target.workspaces.map (·.id)) ∧
    ∃ mine ∈ manifest.workspaces, ∃ theirs ∈ target.workspaces, theirs.id = mine.id ∧
      (manifest.RenamedHere mine theirs ∨ EncryptedHere mine theirs)

end LocalUserManifest

open LocalUserManifest

section Merge

variable {manifest next : LocalUserManifest} {target : UserManifest} {mine theirs : UserWorkspaceEntry}

theorem mergeWorkspaceName_eq_target_iff (unique : UniqueWorkspaces manifest.base.workspaces) :
    mergeWorkspaceName (getWorkspaceEntry manifest.base.workspaces mine.id) mine theirs = theirs.name ↔
      ¬ manifest.RenamedHere mine theirs := by
  cases found : getWorkspaceEntry manifest.base.workspaces mine.id with
  | none =>
    refine iff_of_true rfl ?_
    rintro ⟨known, member, same, -⟩
    rw [getWorkspaceEntry_eq_none_iff] at found
    exact found (List.mem_map.mpr ⟨known, member, same⟩)
  | some known =>
    have only : manifest.RenamedHere mine theirs ↔ known.name = theirs.name ∧ mine.name ≠ known.name := by
      constructor
      · rintro ⟨other, member, same, named⟩
        cases ((getWorkspaceEntry_eq_some_iff unique).mpr ⟨member, same⟩).symm.trans found
        exact named
      · intro named
        obtain ⟨member, same⟩ := (getWorkspaceEntry_eq_some_iff unique).mp found
        exact ⟨known, member, same, named⟩
    rw [only, mergeWorkspaceName]
    by_cases remote : known.name = theirs.name
    · by_cases here : known.name = mine.name
      · simp [remote, here.symm]
      · simp [remote.symm, here]
    · simp [remote]

theorem mergeWorkspaceEncryption_eq_target_iff :
    (mergeWorkspaceEncryption mine theirs).1 = theirs.toWorkspaceEntry ↔ ¬ EncryptedHere mine theirs := by
  unfold mergeWorkspaceEncryption EncryptedHere
  split
  · next older => simp [Nat.not_le.mpr older]
  · next newer =>
    simp [Nat.not_lt.mp newer, WorkspaceEntry.eq_iff]

/-- The merged entry says what the received one says, unless a change was made here. -/
theorem settings_merged_eq_iff (unique : UniqueWorkspaces manifest.base.workspaces) :
    (mergedWorkspaceEntry (getWorkspaceEntry manifest.base.workspaces mine.id) mine theirs).settings =
        theirs.settings ↔
      ¬ (manifest.RenamedHere mine theirs ∨ EncryptedHere mine theirs) := by
  rw [not_or, ← mergeWorkspaceName_eq_target_iff unique, ← mergeWorkspaceEncryption_eq_target_iff]
  simp [UserWorkspaceEntry.settings, mergedWorkspaceEntry, WorkspaceEntry.eq_iff]

/-- What is left of a local entry after a merge that has nothing else to upload. -/
theorem mergedWorkspace?_settings_iff (unique : UniqueWorkspaces manifest.base.workspaces) :
    (mergedWorkspace? manifest.base.workspaces (some mine) (some theirs)).map (·.settings) =
        some theirs.settings ↔
      ¬ (manifest.RenamedHere mine theirs ∨ EncryptedHere mine theirs) := by
  simp only [mergedWorkspace?]
  split
  · next same =>
    subst same
    refine iff_of_true rfl ?_
    rintro (⟨known, -, -, named, renamed⟩ | ⟨-, different⟩)
    · exact renamed named.symm
    · exact different rfl
  · simp [settings_merged_eq_iff unique]

/-- Receiving a version keeps a manifest honest unless it forgets a change. -/
theorem nothingForgotten_receive_iff (workspaces : UniqueWorkspaces manifest.workspaces)
    (base : UniqueWorkspaces manifest.base.workspaces) (remote : UniqueWorkspaces target.workspaces)
    (received : manifest.receive target = .ok next) (honest : manifest.NothingForgotten) :
    next.NothingForgotten ↔ ¬ manifest.Forgets target := by
  unfold receive at received
  split at received
  · next older =>
    cases received
    exact iff_of_true honest fun forgets => absurd forgets.1 (Nat.not_lt.mpr older)
  · next newer =>
    simp only [mergeLocalUserManifests, Except.bind_eq_ok_iff, Except.require_eq_ok_iff,
      Except.pure_eq_ok_iff, exists_const, Prod.exists] at received
    obtain ⟨-, -, -, entries, missing, merged, rfl⟩ := received
    obtain ⟨-, after, missing_iff⟩ := of_mergeWorkspaceEntries workspaces remote merged
    have unmarked : (missing ||
        decide (max manifest.lastProcessedMessage target.lastProcessedMessage ≠
          target.lastProcessedMessage)) = false ↔
        manifest.lastProcessedMessage ≤ target.lastProcessedMessage ∧
          ∀ mine ∈ manifest.workspaces, mine.id ∈ target.workspaces.map (·.id) := by
      rw [Bool.or_eq_false_iff, missing_iff]
      simp [and_comm]
    simp only [NothingForgotten, unmarked, after]
    constructor
    · rintro settled ⟨-, messages, covered, mine, member, theirs, listed, same, changed⟩
      have here := (settled ⟨messages, covered⟩).2 mine.id
      rw [(getWorkspaceEntry_eq_some_iff workspaces).mpr ⟨member, rfl⟩,
        (getWorkspaceEntry_eq_some_iff remote).mpr ⟨listed, same⟩] at here
      exact (mergedWorkspace?_settings_iff base).mp here changed
    · rintro remembers ⟨messages, covered⟩
      refine ⟨max_eq_right messages, fun workspaceId => ?_⟩
      cases mineFound : getWorkspaceEntry manifest.workspaces workspaceId with
      | none => rfl
      | some mine =>
        obtain ⟨member, rfl⟩ := (getWorkspaceEntry_eq_some_iff workspaces).mp mineFound
        cases theirsFound : getWorkspaceEntry target.workspaces mine.id with
        | none => exact absurd (covered mine member) (getWorkspaceEntry_eq_none_iff.mp theirsFound)
        | some theirs =>
          obtain ⟨listed, same⟩ := (getWorkspaceEntry_eq_some_iff remote).mp theirsFound
          refine (mergedWorkspace?_settings_iff base).mpr fun changed => remembers ?_
          exact ⟨Nat.not_le.mp newer, messages, covered, mine, member, theirs, listed, same, changed⟩

/-- What a received manifest is made of. -/
theorem unique_of_receive (workspaces : UniqueWorkspaces manifest.workspaces)
    (base : UniqueWorkspaces manifest.base.workspaces) (remote : UniqueWorkspaces target.workspaces)
    (received : manifest.receive target = .ok next) :
    UniqueWorkspaces next.workspaces ∧ UniqueWorkspaces next.base.workspaces := by
  unfold receive at received
  split at received
  · cases received
    exact ⟨workspaces, base⟩
  · simp only [mergeLocalUserManifests, Except.bind_eq_ok_iff, Except.require_eq_ok_iff,
      Except.pure_eq_ok_iff, exists_const, Prod.exists] at received
    obtain ⟨-, -, -, entries, missing, merged, rfl⟩ := received
    exact ⟨(of_mergeWorkspaceEntries workspaces remote merged).1, remote⟩

end Merge

namespace UserSystem

/-- Every list of workspaces in the system is free of repetitions. -/
structure Unique (system : UserSystem) : Prop where
  versions : ∀ version ∈ system.versions, UniqueWorkspaces version.workspaces
  workspaces : ∀ author, UniqueWorkspaces (system.devices author).manifest.workspaces
  base : ∀ author, UniqueWorkspaces (system.devices author).manifest.base.workspaces
  fetched : ∀ author, ∀ version ∈ (system.devices author).fetched, UniqueWorkspaces version.workspaces
  outbound : ∀ author, ∀ manifest ∈ (system.devices author).outbound,
    UniqueWorkspaces manifest.workspaces
  uploaded : ∀ author, ∀ version ∈ (system.devices author).uploaded, UniqueWorkspaces version.workspaces

/-- The version that a call takes over. -/
def received? (system : UserSystem) (event : DeviceID × DateTime × UserCall) : Option UserManifest :=
  match event.2.2 with
  | .inboundSync index => (system.devices event.1).fetched[index]?
  | .finishOutboundSync index => (system.devices event.1).uploaded[index]?
  | _ => none

/-- A step that takes a version over in the way that forgets a change. -/
def Forgets (system : UserSystem) (event : DeviceID × DateTime × UserCall) : Prop :=
  ∃ target, system.received? event = some target ∧ (system.devices event.1).manifest.Forgets target

def NothingForgotten (system : UserSystem) : Prop :=
  ∀ author, (system.devices author).manifest.NothingForgotten

/-- What a step comes to. -/
inductive Moves (system : UserSystem) (event : DeviceID × DateTime × UserCall) : UserSystem → Prop
  | edited {manifest : LocalUserManifest} (called : system.received? event = none)
      (marked : manifest.needSync = true ∨ manifest = (system.devices event.1).manifest)
      (base : manifest.base = (system.devices event.1).manifest.base)
      (unique : UniqueWorkspaces (system.devices event.1).manifest.workspaces →
        UniqueWorkspaces manifest.workspaces) : Moves system event (system.setManifest event.1 manifest)
  | received {target : UserManifest} {manifest : LocalUserManifest}
      (called : system.received? event = some target)
      (merged : (system.devices event.1).manifest.receive target = .ok manifest) :
      Moves system event (system.setManifest event.1 manifest)
  | fetched {target : UserManifest} (called : system.received? event = none)
      (known : target ∈ system.versions) :
      Moves system event (system.setDevice event.1
        { system.devices event.1 with fetched := (system.devices event.1).fetched ++ [target] })
  | started (called : system.received? event = none) :
      Moves system event (system.setDevice event.1 { system.devices event.1 with
        outbound := (system.devices event.1).outbound ++ [(system.devices event.1).manifest] })
  | uploaded {manifest : LocalUserManifest} {timestamp : DateTime}
      (called : system.received? event = none)
      (prepared : manifest ∈ (system.devices event.1).outbound) :
      Moves system event
        { system.setDevice event.1 { system.devices event.1 with
            uploaded := (system.devices event.1).uploaded ++ [manifest.toRemote event.1 timestamp] } with
          versions := system.versions ++ [manifest.toRemote event.1 timestamp] }

variable {system next : UserSystem} {event : DeviceID × DateTime × UserCall}

theorem moves_of_step (step : system.step? event = some next) : system.Moves event next := by
  obtain ⟨author, now, call⟩ := event
  unfold step? at step
  cases call with
  | workspaceCreate name id key =>
    cases step
    exact .edited rfl (.inl rfl) rfl fun _ => unique_evolveWorkspaces ..
  | workspaceRename workspaceId newName =>
    simp only [workspaceRename, Option.map_eq_some_iff, bind, Option.bind_eq_some_iff, pure,
      Option.some.injEq] at step
    obtain ⟨_, ⟨entry, -, rfl⟩, rfl⟩ := step
    exact .edited rfl (.inl rfl) rfl fun _ => unique_evolveWorkspaces ..
  | sharingGranted name id key encryptionRevision encryptedOn selfRole =>
    simp only [processSharingGranted, Option.map_eq_some_iff, Except.toOption_eq_some_iff,
      Except.bind_eq_ok_iff, Except.pure_eq_ok_iff] at step
    obtain ⟨_, ⟨entry, -, rfl⟩, rfl⟩ := step
    exact .edited rfl (.inl rfl) rfl fun _ => unique_evolveWorkspaces ..
  | sharingRevoked workspaceId =>
    obtain ⟨manifest, processed, rfl⟩ := Option.map_eq_some_iff.mp step
    rw [Except.toOption_eq_some_iff, processSharingRevoked] at processed
    split at processed
    · cases processed
      exact .edited rfl (.inr rfl) rfl id
    · obtain ⟨entry, -, chosen⟩ := Except.bind_eq_ok_iff.mp processed
      split at chosen
      · cases chosen
        exact .edited rfl (.inr rfl) rfl id
      · cases chosen
        exact .edited rfl (.inl rfl) rfl fun _ => unique_evolveWorkspaces ..
  | updateMessageOffset count =>
    cases step
    unfold LocalUserManifest.updateMessageOffset
    split
    · exact .edited rfl (.inl rfl) rfl id
    · exact .edited rfl (.inr rfl) rfl id
  | fetchRemoteUserManifest =>
    obtain ⟨target, last, same⟩ := Option.bind_eq_some_iff.mp step
    cases same
    exact .fetched rfl (List.mem_of_getLast? last)
  | inboundSync index =>
    obtain ⟨target, found, step⟩ := Option.bind_eq_some_iff.mp step
    obtain ⟨manifest, merged, same⟩ := Option.bind_eq_some_iff.mp step
    cases same
    exact .received found (Except.toOption_eq_some_iff.mp merged)
  | startOutboundSync =>
    simp only at step
    split at step
    · cases step
      exact .started rfl
    · cases step
  | uploadUserManifest index =>
    obtain ⟨manifest, found, step⟩ := Option.bind_eq_some_iff.mp step
    obtain ⟨-, -, same⟩ := Option.bind_eq_some_iff.mp step
    cases same
    exact .uploaded rfl (List.mem_of_getElem? found)
  | finishOutboundSync index =>
    obtain ⟨target, found, step⟩ := Option.bind_eq_some_iff.mp step
    obtain ⟨manifest, merged, same⟩ := Option.bind_eq_some_iff.mp step
    cases same
    exact .received found (Except.toOption_eq_some_iff.mp merged)

/-- The devices after one of them has changed. -/
theorem devices_setDevice (system : UserSystem) (author other : DeviceID) (device : UserDevice) :
    (system.setDevice author device).devices other =
      if other = author then device else system.devices other := by
  simp [setDevice, Function.update_apply]

theorem unique_received (unique : system.Unique) {target : UserManifest}
    (called : system.received? event = some target) : UniqueWorkspaces target.workspaces := by
  unfold received? at called
  split at called
  · exact unique.fetched _ _ (List.mem_of_getElem? called)
  · exact unique.uploaded _ _ (List.mem_of_getElem? called)
  · cases called

theorem Unique.setDevice (unique : system.Unique) {author : DeviceID} {device : UserDevice}
    (workspaces : UniqueWorkspaces device.manifest.workspaces)
    (base : UniqueWorkspaces device.manifest.base.workspaces)
    (fetched : ∀ version ∈ device.fetched, UniqueWorkspaces version.workspaces)
    (outbound : ∀ manifest ∈ device.outbound, UniqueWorkspaces manifest.workspaces)
    (uploaded : ∀ version ∈ device.uploaded, UniqueWorkspaces version.workspaces) :
    (system.setDevice author device).Unique := by
  refine ⟨unique.versions, ?_, ?_, ?_, ?_, ?_⟩ <;> intro other <;> rw [devices_setDevice] <;> split
  · exact workspaces
  · exact unique.workspaces other
  · exact base
  · exact unique.base other
  · exact fetched
  · exact unique.fetched other
  · exact outbound
  · exact unique.outbound other
  · exact uploaded
  · exact unique.uploaded other

theorem Unique.setManifest (unique : system.Unique) {author : DeviceID} {manifest : LocalUserManifest}
    (workspaces : UniqueWorkspaces manifest.workspaces)
    (base : UniqueWorkspaces manifest.base.workspaces) : (system.setManifest author manifest).Unique :=
  unique.setDevice workspaces base (unique.fetched author) (unique.outbound author)
    (unique.uploaded author)

theorem Unique.step (unique : system.Unique) (step : system.step? event = some next) : next.Unique := by
  cases moves_of_step step with
  | edited _ _ base workspaces =>
    exact unique.setManifest (workspaces (unique.workspaces event.1)) (base ▸ unique.base event.1)
  | received called merged =>
    obtain ⟨workspaces, base⟩ := unique_of_receive (unique.workspaces event.1) (unique.base event.1)
      (unique_received unique called) merged
    exact unique.setManifest workspaces base
  | fetched _ known =>
    refine unique.setDevice (unique.workspaces _) (unique.base _) ?_ (unique.outbound _)
      (unique.uploaded _)
    intro version member
    rcases List.mem_append.mp member with old | new
    · exact unique.fetched _ version old
    · rw [List.mem_singleton.mp new]
      exact unique.versions _ known
  | started _ =>
    refine unique.setDevice (unique.workspaces _) (unique.base _) (unique.fetched _) ?_
      (unique.uploaded _)
    intro manifest member
    rcases List.mem_append.mp member with old | new
    · exact unique.outbound _ manifest old
    · rw [List.mem_singleton.mp new]
      exact unique.workspaces _
  | @uploaded manifest timestamp _ prepared =>
    have sent : UniqueWorkspaces (manifest.toRemote event.1 timestamp).workspaces :=
      unique.outbound _ manifest prepared
    have extended {versions : List UserManifest}
        (old : ∀ version ∈ versions, UniqueWorkspaces version.workspaces) :
        ∀ version ∈ versions ++ [manifest.toRemote event.1 timestamp],
          UniqueWorkspaces version.workspaces := by
      intro version member
      rcases List.mem_append.mp member with known | new
      · exact old version known
      · rw [List.mem_singleton.mp new]
        exact sent
    have device : (system.setDevice event.1 { system.devices event.1 with uploaded :=
        (system.devices event.1).uploaded ++ [manifest.toRemote event.1 timestamp] }).Unique :=
      unique.setDevice (unique.workspaces _) (unique.base _) (unique.fetched _) (unique.outbound _)
        (extended (unique.uploaded _))
    exact ⟨extended unique.versions, device.workspaces, device.base, device.fetched, device.outbound,
      device.uploaded⟩

theorem nothingForgotten_setManifest_iff {author : DeviceID} {manifest : LocalUserManifest}
    (honest : system.NothingForgotten) :
    (system.setManifest author manifest).NothingForgotten ↔ manifest.NothingForgotten := by
  constructor
  · intro settled
    have here := settled author
    rwa [setManifest, devices_setDevice, if_pos rfl] at here
  · intro settled other
    rw [setManifest, devices_setDevice]
    split
    · exact settled
    · exact honest other

/-- The step lemma: only a merge can leave a change behind, and only one that forgets it. -/
theorem nothingForgotten_step_iff (unique : system.Unique) (honest : system.NothingForgotten)
    (step : system.step? event = some next) : next.NothingForgotten ↔ ¬ system.Forgets event := by
  have kept {device : UserDevice} (same : device.manifest = (system.devices event.1).manifest) :
      (system.setDevice event.1 device).NothingForgotten := by
    intro other
    rw [devices_setDevice]
    split
    · rw [same]
      exact honest _
    · exact honest other
  have innocent (called : system.received? event = none) : ¬ system.Forgets event := by
    rintro ⟨target, found, -⟩
    rw [called] at found
    cases found
  cases moves_of_step step with
  | edited called marked =>
    refine iff_of_true ((nothingForgotten_setManifest_iff honest).mpr ?_) (innocent called)
    rcases marked with marked | rfl
    · intro unmarked
      rw [marked] at unmarked
      cases unmarked
    · exact honest event.1
  | @received target _ called merged =>
    rw [nothingForgotten_setManifest_iff honest, nothingForgotten_receive_iff (unique.workspaces _)
      (unique.base _) (unique_received unique called) merged (honest _)]
    refine not_congr ⟨fun forgets => ⟨target, called, forgets⟩, ?_⟩
    rintro ⟨other, found, forgets⟩
    cases called.symm.trans found
    exact forgets
  | fetched called => exact iff_of_true (kept rfl) (innocent called)
  | started called => exact iff_of_true (kept rfl) (innocent called)
  | uploaded called => exact iff_of_true (kept rfl) (innocent called)

end UserSystem

/-- Along every run of the devices of a user, no state has a manifest that differs from its base and
has nothing to upload, if and only if no merge of the run forgets a change. -/
theorem no_user_change_forgotten_iff (userManifestId : EntryID) (created : DeviceID → DateTime)
    (events : List (DeviceID × DateTime × UserCall)) :
    Along UserSystem.step? (fun _ _ next => next.NothingForgotten)
        (.initial userManifestId created) events ↔
      Along UserSystem.step? (fun system event _ => ¬ system.Forgets event)
        (.initial userManifestId created) events := by
  apply along_congr fun system => system.Unique ∧ system.NothingForgotten
  · rintro system event next ⟨unique, honest⟩ step
    exact UserSystem.nothingForgotten_step_iff unique honest step
  · rintro system event next ⟨unique, honest⟩ step remembers
    exact ⟨unique.step step, (UserSystem.nothingForgotten_step_iff unique honest step).mpr remembers⟩
  · refine ⟨⟨nofun, fun _ => List.nodup_nil, fun _ => List.nodup_nil, nofun, nofun, nofun⟩, ?_⟩
    intro author unmarked
    cases unmarked

section Example

private def laptop : DeviceID := ⟨"alice", "laptop"⟩

/-- A workspace is renamed while the manifest is on its way to the backend. -/
private def renamedMeanwhile : List (DeviceID × DateTime × UserCall) :=
  [(laptop, 1, .workspaceCreate "a" 7 ⟨1⟩),
    (laptop, 2, .startOutboundSync),
    (laptop, 3, .uploadUserManifest 0),
    (laptop, 4, .finishOutboundSync 0),
    (laptop, 5, .updateMessageOffset 1),
    (laptop, 6, .startOutboundSync),
    (laptop, 7, .workspaceRename 7 "b"),
    (laptop, 8, .uploadUserManifest 1),
    (laptop, 9, .finishOutboundSync 1)]

theorem rename_during_upload_forgotten :
    ∃ system, run? UserSystem.step? (.initial 5 fun _ => 0) renamedMeanwhile = some system ∧
      (system.devices laptop).manifest.needSync = false ∧
      (system.devices laptop).manifest.workspaces.map (·.name) = ["b"] ∧
      (system.devices laptop).manifest.base.workspaces.map (·.name) = ["a"] ∧
      ¬ system.NothingForgotten := by
  refine ⟨_, rfl, rfl, rfl, rfl, fun honest => ?_⟩
  exact absurd ((honest laptop rfl).2 7) (by decide)

end Example

end Guardata
