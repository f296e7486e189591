import Guardata.Machine.Run
import Guardata.Proofs.UserManifest

/-! # Workspace keys are replaced by newer ones only, but for ties

The key of a workspace, its revision and the date of the encryption always come from one entry, and
an entry of a lower revision never wins. Between equal revisions the first argument of the merge
does. That is the local entry when a received user manifest is merged, which keeps the known key;
when a message is processed it is the message, and a message of the known revision with another key
replaces a key that still decrypts the workspace.
-/

namespace Guardata

/-- What changes the workspaces of a device without a call of its user. -/
inductive ManifestEvent where
  /-- `merge_local_user_manifests` with a received version. -/
  | merge (target : UserManifest)
  /-- A sharing or re-encryption message whose author may share, as the entry that it describes. -/
  | message (entry : UserWorkspaceEntry) (now : DateTime)

/-- The entries that come from outside. -/
def ManifestEvent.incoming : ManifestEvent → List UserWorkspaceEntry
  | .merge target => target.workspaces
  | .message entry _ => [entry]

/-- An assertion that fails leaves the manifest as it was. -/
def LocalUserManifest.handle (manifest : LocalUserManifest) : ManifestEvent → LocalUserManifest
  | .merge target => (mergeLocalUserManifests manifest target).toOption.getD manifest
  | .message entry now => (manifest.processSharingGranted entry now).toOption.getD manifest

/-- The key with its revision and its date. -/
def UserWorkspaceEntry.encryption (entry : UserWorkspaceEntry) : WorkspaceEntry × DateTime :=
  (entry.toWorkspaceEntry, entry.encryptedOn)

/-- Known workspaces stay known, with keys that only newer ones replace. -/
structure Supersedes (incoming before after : List UserWorkspaceEntry) : Prop where
  kept : ∀ id old, getWorkspaceEntry before id = some old → ∃ new, getWorkspaceEntry after id = some new ∧
    old.encryptionRevision ≤ new.encryptionRevision ∧
    (new.key ≠ old.key → old.encryptionRevision < new.encryptionRevision)
  oneEntry : ∀ id new, getWorkspaceEntry after id = some new → ∃ entry, new.encryption = entry.encryption ∧
    (getWorkspaceEntry before id = some entry ∨ (entry ∈ incoming ∧ entry.id = id))

/-- A message of the revision that is known has the key that is known. -/
def SameKeyAtTie (manifest : LocalUserManifest) : ManifestEvent → LocalUserManifest → Prop
  | .merge _, _ => True
  | .message entry _, _ => ∀ known, getWorkspaceEntry manifest.workspaces entry.id = some known →
      entry.encryptionRevision = known.encryptionRevision → entry.key = known.key

section Supersedes

variable {incoming before after : List UserWorkspaceEntry}

theorem Supersedes.refl (workspaces : List UserWorkspaceEntry) : Supersedes incoming workspaces workspaces where
  kept _ old found := ⟨old, found, le_rfl, fun differs => absurd rfl differs⟩
  oneEntry _ new found := ⟨new, rfl, .inl found⟩

theorem Supersedes.trans {middle later : List UserWorkspaceEntry}
    (first : Supersedes incoming before middle) (second : Supersedes later middle after) :
    Supersedes (incoming ++ later) before after where
  kept id old found := by
    obtain ⟨between, foundBetween, lower, newer⟩ := first.kept id old found
    obtain ⟨new, foundNew, upper, newest⟩ := second.kept id between foundBetween
    refine ⟨new, foundNew, lower.trans upper, fun differs => ?_⟩
    by_cases same : between.key = old.key
    · exact lower.trans_lt (newest (same ▸ differs))
    · exact (newer same).trans_le upper
  oneEntry id new found := by
    obtain ⟨between, copied, known | ⟨member, same⟩⟩ := second.oneEntry id new found
    · obtain ⟨entry, original, origin⟩ := first.oneEntry id between known
      refine ⟨entry, copied.trans original, origin.imp_right ?_⟩
      exact And.imp_left (List.mem_append_left _)
    · exact ⟨between, copied, .inr ⟨List.mem_append_right _ member, same⟩⟩

theorem encryption_eq_iff {left right : UserWorkspaceEntry} : left.encryption = right.encryption ↔
    left.key = right.key ∧ left.encryptionRevision = right.encryptionRevision ∧
      left.encryptedOn = right.encryptedOn := by
  rw [UserWorkspaceEntry.encryption, UserWorkspaceEntry.encryption, Prod.mk.injEq,
    WorkspaceEntry.eq_iff, and_assoc]

/-- The step lemma for one merged entry: the higher revision wins, whole, and the first argument of
the merge wins a tie. -/
theorem encryption_mergedWorkspaceEntry (base : Option UserWorkspaceEntry)
    (diverged target : UserWorkspaceEntry) :
    (mergedWorkspaceEntry base diverged target).encryption =
      if diverged.encryptionRevision < target.encryptionRevision then target.encryption
      else diverged.encryption := by
  change mergeWorkspaceEncryption diverged target = _
  rw [mergeWorkspaceEncryption]
  rfl

/-- In a merge a known entry stays, unless the received one is newer. -/
theorem mergedWorkspace?_some (base : List UserWorkspaceEntry) (old : UserWorkspaceEntry)
    (target : Option UserWorkspaceEntry) :
    ∃ new, mergedWorkspace? base (some old) target = some new ∧ (new.encryption = old.encryption ∨
      ∃ received, target = some received ∧ old.encryptionRevision < received.encryptionRevision ∧
        new.encryption = received.encryption) := by
  cases target with
  | none => exact ⟨old, rfl, .inl rfl⟩
  | some received =>
    rw [mergedWorkspace?]
    split
    · next same => exact ⟨received, rfl, .inl (same ▸ rfl)⟩
    · refine ⟨_, rfl, ?_⟩
      rw [encryption_mergedWorkspaceEntry]
      split
      · next newer => exact .inr ⟨received, rfl, newer, rfl⟩
      · exact .inl rfl

theorem mem_of_get?_workspacesById {workspaces : List UserWorkspaceEntry} {id : EntryID}
    {entry : UserWorkspaceEntry} (found : (workspacesById workspaces).get? id = some entry) :
    entry ∈ workspaces ∧ entry.id = id := by
  refine ⟨?_, byId_workspacesById _ _ _ found⟩
  rcases Dict.mem_of_get?_insertMany found with member | nothing
  · obtain ⟨other, listed, same⟩ := List.mem_map.mp member
    cases same
    exact listed
  · cases nothing

/-- The step lemma for merges. -/
theorem supersedes_mergeLocalUserManifests {manifest merged : LocalUserManifest} {target : UserManifest}
    (unique : UniqueWorkspaces manifest.workspaces)
    (accepted : mergeLocalUserManifests manifest target = .ok merged) :
    UniqueWorkspaces merged.workspaces ∧
      Supersedes target.workspaces manifest.workspaces merged.workspaces := by
  simp only [mergeLocalUserManifests, Except.bind_eq_ok_iff, Except.pure_eq_ok_iff] at accepted
  obtain ⟨-, -, -, -, -, -, ⟨workspaces, missing⟩, entries, rfl⟩ := accepted
  obtain ⟨mergedUnique, lookup⟩ := getWorkspaceEntry_mergeWorkspaceEntries unique entries
  refine ⟨mergedUnique, ?_, ?_⟩
  · intro id old found
    obtain ⟨new, foundNew, same | ⟨received, -, newer, same⟩⟩ :=
      mergedWorkspace?_some manifest.base.workspaces old ((workspacesById target.workspaces).get? id)
    all_goals obtain ⟨key, revision, -⟩ := encryption_eq_iff.mp same
    · exact ⟨new, by rw [lookup, found, foundNew], revision.ge, fun differs => absurd key differs⟩
    · exact ⟨new, by rw [lookup, found, foundNew], by omega, fun _ => by omega⟩
  · intro id new found
    rw [lookup] at found
    cases known : getWorkspaceEntry manifest.workspaces id with
    | none =>
      rw [known, mergedWorkspace?] at found
      exact ⟨new, rfl, .inr (mem_of_get?_workspacesById found)⟩
    | some old =>
      obtain ⟨chosen, foundNew, origin⟩ := mergedWorkspace?_some manifest.base.workspaces old
        ((workspacesById target.workspaces).get? id)
      rw [known, foundNew] at found
      cases found
      rcases origin with same | ⟨received, there, -, same⟩
      · exact ⟨old, same, .inl rfl⟩
      · exact ⟨received, same, .inr (mem_of_get?_workspacesById there)⟩

/-- The entry that a message leads to. -/
def messageEntry (manifest : LocalUserManifest) (entry : UserWorkspaceEntry) : UserWorkspaceEntry :=
  (getWorkspaceEntry manifest.workspaces entry.id).elim entry (mergedWorkspaceEntry none entry)

theorem id_of_getWorkspaceEntry {workspaces : List UserWorkspaceEntry} {id : EntryID}
    {entry : UserWorkspaceEntry} (found : getWorkspaceEntry workspaces id = some entry) : entry.id = id := by
  simpa using List.find?_some found

theorem messageEntry_id (manifest : LocalUserManifest) (entry : UserWorkspaceEntry) :
    (messageEntry manifest entry).id = entry.id := by
  unfold messageEntry
  cases found : getWorkspaceEntry manifest.workspaces entry.id with
  | none => rfl
  | some known =>
    have same : known.id = entry.id := id_of_getWorkspaceEntry found
    exact same

/-- Processing a message never fails an assertion. -/
theorem handle_message (manifest : LocalUserManifest) (entry : UserWorkspaceEntry) (now : DateTime) :
    manifest.handle (.message entry now) =
      manifest.evolveWorkspacesAndMarkUpdated (messageEntry manifest entry) now := by
  rw [LocalUserManifest.handle, LocalUserManifest.processSharingGranted, LocalUserManifest.mergeWithExisting,
    messageEntry]
  cases found : getWorkspaceEntry manifest.workspaces entry.id with
  | none => rfl
  | some known =>
    have same : entry.id = known.id := (id_of_getWorkspaceEntry found).symm
    simp [mergeWorkspaceEntry, Except.require, same, bind, Except.bind, pure, Except.pure, Except.toOption]

/-- The step lemma for messages, in both directions. -/
theorem supersedes_message_iff {manifest : LocalUserManifest} (unique : UniqueWorkspaces manifest.workspaces)
    (entry : UserWorkspaceEntry) (now : DateTime) (next : LocalUserManifest) :
    Supersedes [entry] manifest.workspaces (manifest.handle (.message entry now)).workspaces ↔
      SameKeyAtTie manifest (.message entry now) next := by
  have lookup (id : EntryID) : getWorkspaceEntry (manifest.handle (.message entry now)).workspaces id =
      if id = entry.id then some (messageEntry manifest entry)
      else getWorkspaceEntry manifest.workspaces id := by
    rw [handle_message, getWorkspaceEntry_evolveWorkspaces unique, messageEntry_id]
  constructor
  · intro supersedes known found tie
    obtain ⟨new, foundNew, -, newer⟩ := supersedes.kept entry.id known found
    rw [lookup, if_pos rfl, messageEntry, found] at foundNew
    cases foundNew
    have same := encryption_mergedWorkspaceEntry none entry known
    rw [if_neg (by omega), encryption_eq_iff] at same
    by_contra differs
    have strict := newer (by rw [Option.elim_some, same.1]; exact differs)
    rw [Option.elim_some, same.2.1] at strict
    omega
  · intro sameKey
    constructor
    · intro id old found
      rw [lookup]
      split
      · next here =>
        subst here
        refine ⟨_, rfl, ?_⟩
        have same := encryption_mergedWorkspaceEntry none entry old
        rw [messageEntry, found, Option.elim_some]
        split at same
        · obtain ⟨key, revision, -⟩ := encryption_eq_iff.mp same
          exact ⟨revision.ge, fun differs => absurd key differs⟩
        · obtain ⟨key, revision, -⟩ := encryption_eq_iff.mp same
          refine ⟨by omega, fun differs => ?_⟩
          by_contra notNewer
          exact differs (key.trans (sameKey old found (by omega)))
      · exact ⟨old, found, le_rfl, fun differs => absurd rfl differs⟩
    · intro id new found
      rw [lookup] at found
      split at found
      · next here =>
        subst here
        cases found
        cases known : getWorkspaceEntry manifest.workspaces entry.id with
        | none =>
          exact ⟨entry, by rw [messageEntry, known, Option.elim_none], .inr ⟨List.mem_singleton_self _, rfl⟩⟩
        | some old =>
          rw [messageEntry, known, Option.elim_some, encryption_mergedWorkspaceEntry]
          split
          · exact ⟨old, rfl, .inl rfl⟩
          · exact ⟨entry, rfl, .inr ⟨List.mem_singleton_self _, rfl⟩⟩
      · exact ⟨new, rfl, .inl found⟩

end Supersedes

section Runs

variable {manifest : LocalUserManifest}

theorem unique_handle (unique : UniqueWorkspaces manifest.workspaces) (event : ManifestEvent) :
    UniqueWorkspaces (manifest.handle event).workspaces := by
  cases event with
  | merge target =>
    cases merged : mergeLocalUserManifests manifest target with
    | error err => rw [LocalUserManifest.handle, merged]; exact unique
    | ok next => rw [LocalUserManifest.handle, merged]; exact (supersedes_mergeLocalUserManifests unique merged).1
  | message entry now =>
    rw [handle_message]
    exact unique_evolveWorkspaces ..

theorem supersedes_handle_iff (unique : UniqueWorkspaces manifest.workspaces) (event : ManifestEvent)
    (next : LocalUserManifest) :
    Supersedes event.incoming manifest.workspaces (manifest.handle event).workspaces ↔
      SameKeyAtTie manifest event next := by
  cases event with
  | message entry now => exact supersedes_message_iff unique entry now next
  | merge target =>
    refine iff_of_true ?_ trivial
    cases merged : mergeLocalUserManifests manifest target with
    | error err => rw [LocalUserManifest.handle, merged]; exact .refl _
    | ok next => rw [LocalUserManifest.handle, merged]; exact (supersedes_mergeLocalUserManifests unique merged).2

/-- The events of a device, one after the other. -/
def handleEvent (manifest : LocalUserManifest) (event : ManifestEvent) : Option LocalUserManifest :=
  some (manifest.handle event)

/-- The run lemma. -/
theorem supersedes_foldl (unique : UniqueWorkspaces manifest.workspaces) {events : List ManifestEvent}
    (meets : Machine.Along handleEvent SameKeyAtTie manifest events) :
    Supersedes (events.flatMap (·.incoming)) manifest.workspaces
      (events.foldl LocalUserManifest.handle manifest).workspaces := by
  induction events generalizing manifest with
  | nil => exact .refl _
  | cons event rest ih =>
    obtain ⟨here, later⟩ := meets _ rfl
    rw [List.flatMap_cons, List.foldl_cons]
    exact ((supersedes_handle_iff unique event _).mpr here).trans (ih (unique_handle unique event) later)

/-- The rest of a run that meets a condition meets it. -/
theorem along_handleEvent_drop {cond : LocalUserManifest → ManifestEvent → LocalUserManifest → Prop}
    {earlier later : List ManifestEvent}
    (meets : Machine.Along handleEvent cond manifest (earlier ++ later)) :
    Machine.Along handleEvent cond (earlier.foldl LocalUserManifest.handle manifest) later := by
  induction earlier generalizing manifest with
  | nil => exact meets
  | cons event rest ih => exact ih (meets _ rfl).2

theorem unique_foldl (unique : UniqueWorkspaces manifest.workspaces) (events : List ManifestEvent) :
    UniqueWorkspaces (events.foldl LocalUserManifest.handle manifest).workspaces := by
  induction events generalizing manifest with
  | nil => exact unique
  | cons event rest ih => exact ih (unique_handle unique event)

end Runs

/-- From any manifest that lists no workspace twice, and for every sequence of merges and messages
with arbitrary entries: each step keeps every known workspace, and its key unless a higher revision
comes with it, if and only if no message of the known revision has another key. Then so does every
part of the run. -/
theorem workspace_keys_superseded_iff (manifest : LocalUserManifest)
    (unique : UniqueWorkspaces manifest.workspaces) (events : List ManifestEvent) :
    (Machine.Along handleEvent
        (fun before event after => Supersedes event.incoming before.workspaces after.workspaces)
        manifest events ↔ Machine.Along handleEvent SameKeyAtTie manifest events) ∧
      (Machine.Along handleEvent SameKeyAtTie manifest events → ∀ earlier later,
        events = earlier ++ later → Supersedes (later.flatMap (·.incoming))
          (earlier.foldl LocalUserManifest.handle manifest).workspaces
          (events.foldl LocalUserManifest.handle manifest).workspaces) := by
  constructor
  · apply Machine.along_congr (fun state => UniqueWorkspaces state.workspaces) _ _ unique
    · rintro state event _ unique ⟨⟩
      exact supersedes_handle_iff unique event _
    · rintro state event _ unique ⟨⟩ -
      exact unique_handle unique event
  · rintro meets earlier later rfl
    rw [List.foldl_append]
    exact supersedes_foldl (unique_foldl unique earlier) (along_handleEvent_drop meets)

section Example

/-- An entry for the first workspace, as a message describes it. -/
private def sharedEntry (key revision : ℕ) (role : Option RealmRole) : UserWorkspaceEntry :=
  ⟨⟨⟨key⟩, revision⟩, "w", 1, 20, 30, role⟩

private def freshManifest : LocalUserManifest := .newPlaceholder ⟨"bob", "dev"⟩ 7 10

/-- The workspace is shared, and then encrypted again. -/
private def shareAndReencrypt : List ManifestEvent :=
  [.message (sharedEntry 1 1 (some .reader)) 30, .message (sharedEntry 2 2 (some .reader)) 40]

theorem workspace_keys_superseded_iff_reencrypted :
    Supersedes [sharedEntry 1 1 (some .reader), sharedEntry 2 2 (some .reader)] []
      (shareAndReencrypt.foldl LocalUserManifest.handle freshManifest).workspaces := by
  have meets : Machine.Along handleEvent SameKeyAtTie freshManifest shareAndReencrypt := by
    rintro _ ⟨⟩
    refine ⟨(fun _ found => by cases found), ?_⟩
    rintro _ ⟨⟩
    refine ⟨fun known found tie => ?_, trivial⟩
    have first : getWorkspaceEntry (freshManifest.handle (.message (sharedEntry 1 1 (some .reader))
        30)).workspaces 1 = some (sharedEntry 1 1 (some .reader)) := by decide
    cases first.symm.trans found
    exact absurd tie (by decide)
  exact (workspace_keys_superseded_iff freshManifest List.nodup_nil shareAndReencrypt).2 meets [] _ rfl

/-- Two managers share the same workspace in the same revision, the second of them with a key of its
own. The second message replaces the first key. -/
theorem message_replaces_known_key :
    (freshManifest.handle (.message (sharedEntry 1 1 (some .reader)) 30)).workspaces =
        [sharedEntry 1 1 (some .reader)] ∧
      ((freshManifest.handle (.message (sharedEntry 1 1 (some .reader)) 30)).handle
        (.message (sharedEntry 2 1 (some .reader)) 30)).workspaces = [sharedEntry 2 1 (some .reader)] ∧
      ¬ Supersedes [sharedEntry 2 1 (some .reader)] [sharedEntry 1 1 (some .reader)]
        [sharedEntry 2 1 (some .reader)] := by
  refine ⟨by decide, by decide, fun supersedes => ?_⟩
  obtain ⟨new, found, -, newer⟩ := supersedes.kept 1 (sharedEntry 1 1 (some .reader)) (by decide)
  cases found
  exact absurd (newer (by decide)) (by decide)

end Example

end Guardata
