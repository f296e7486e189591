import Guardata.Soundness.VlobHistories

/-! # Polling misses no change

A realm keeps the last change of each vlob, at the checkpoint it was made. What a client has not been told is
at a later checkpoint than its own: so one poll brings it up to date.
-/

namespace Guardata

open MemoryVlobComponent

variable {β : Type}

namespace ReencryptionBackend

variable {backend next : ReencryptionBackend β}

def changesOf (backend : ReencryptionBackend β) (key : OrganizationID × UUID) : Changes :=
  (backend.vlobs.perRealmChanges.get? key).getD {}

/-- The current version of a vlob of a realm. -/
def currentIn (backend : ReencryptionBackend β) (key : OrganizationID × UUID) (vlobId : UUID) : Option ℕ :=
  ((backend.vlobs.vlobs.get? (key.1, vlobId)).filter (·.realmId = key.2)).map (·.currentVersion)

/-- Nothing that a client polls has changed. -/
def Unchanged (backend next : ReencryptionBackend β) : Prop :=
  ∀ key, next.changesOf key = backend.changesOf key ∧ next.currentIn key = backend.currentIn key

/-- A vlob of a realm has got a new version, and the realm a new checkpoint. -/
def Changed (backend next : ReencryptionBackend β) (key : OrganizationID × UUID) (vlobId : UUID)
    (author : DeviceID) (version : ℕ) : Prop :=
  (∀ other, next.changesOf other =
    if other = key then
      ⟨(backend.changesOf key).checkpoint + 1, (backend.changesOf key).changes.insert vlobId
        (author, (backend.changesOf key).checkpoint + 1, version)⟩
    else backend.changesOf other) ∧
  ∀ other vlobId', next.currentIn other vlobId' =
    if other = key ∧ vlobId' = vlobId then some version else backend.currentIn other vlobId'

theorem changesOf_updateChanges {vlobs : MemoryVlobComponent β} (organizationId : OrganizationID)
    (author : DeviceID) (realmId vlobId : UUID) (version : ℕ)
    (same : vlobs.perRealmChanges = backend.vlobs.perRealmChanges) (other : OrganizationID × UUID) :
    (backend.setVlobs (vlobs.updateChanges organizationId author realmId vlobId version)).changesOf other =
      if other = (organizationId, realmId) then
        ⟨(backend.changesOf (organizationId, realmId)).checkpoint + 1,
          (backend.changesOf (organizationId, realmId)).changes.insert vlobId
            (author, (backend.changesOf (organizationId, realmId)).checkpoint + 1, version)⟩
      else backend.changesOf other := by
  simp only [changesOf, setVlobs, updateChanges, Dict.get?_insert, same]
  split <;> rfl

/-- A vlob is written in its realm. -/
theorem currentIn_setVlobs {vlobs : MemoryVlobComponent β} {organizationId : OrganizationID} {vlobId : UUID}
    {vlob : Vlob β} (written : vlobs.vlobs = backend.vlobs.vlobs.insert (organizationId, vlobId) vlob)
    (before : ∀ old, backend.vlobs.vlobs.get? (organizationId, vlobId) = some old →
      old.realmId = vlob.realmId) (other : OrganizationID × UUID) (vlobId' : UUID) :
    (backend.setVlobs vlobs).currentIn other vlobId' =
      if other = (organizationId, vlob.realmId) ∧ vlobId' = vlobId then some vlob.currentVersion
      else backend.currentIn other vlobId' := by
  obtain ⟨org, realmId⟩ := other
  simp only [currentIn, setVlobs, written, Dict.get?_insert, Prod.mk.injEq]
  by_cases here : org = organizationId ∧ vlobId' = vlobId
  · obtain ⟨rfl, rfl⟩ := here
    by_cases inside : vlob.realmId = realmId
    · simp [inside]
    · have outside : realmId ≠ vlob.realmId := Ne.symm inside
      cases stored : backend.vlobs.vlobs.get? (org, vlobId') with
      | none => simp [inside, outside, Option.filter_some]
      | some old => simp [inside, outside, before old stored, Option.filter_some]
  · rw [if_neg here, if_neg fun both => here ⟨both.1.1, both.2⟩]

theorem unchanged_of_vlobs (same : next.vlobs = backend.vlobs) : backend.Unchanged next := by
  intro key
  unfold changesOf currentIn
  rw [same]
  exact ⟨rfl, rfl⟩

variable [Inhabited β]

theorem Tracked.finish_unchanged (tracked : backend.Tracked) {organizationId : OrganizationID}
    {author : DeviceID} {realmId : UUID} {revision : ℕ}
    (finished : backend.finishReencryptionMaintenance organizationId author realmId revision = .ok next) :
    backend.Unchanged next := by
  intro key
  constructor
  · obtain ⟨_, _, _, -, -, -, -, -, -, rfl⟩ := finish_eq_ok_iff.mp finished
    rfl
  · funext vlobId
    unfold currentIn
    cases stored : backend.vlobs.vlobs.get? (key.1, vlobId) with
    | none => rw [tracked.finish_absent finished stored]
    | some vlob =>
      obtain ⟨later, is, same, stamps⟩ := tracked.finish_continues finished stored
      have size := congrArg List.length stamps
      simp only [List.length_map, List.append_nil] at size
      simp only [is, Option.filter_some, same]
      split
      · rw [Option.map_some, Option.map_some, Vlob.currentVersion, size, Vlob.currentVersion]
      · rfl

/-- Every request leaves what is polled as it is, or makes one change. -/
theorem Tracked.serve_changes (tracked : backend.Tracked) (request : VlobRequest β) :
    backend.Unchanged (backend.serve request) ∨
      ∃ key vlobId author version, backend.Changed (backend.serve request) key vlobId author version := by
  have same : backend.Unchanged backend := unchanged_of_vlobs rfl
  cases request with
  | realmCreate organizationId grant =>
    exact .inl (Except.elim_toOption backend.Unchanged same fun _ _ => unchanged_of_vlobs rfl)
  | updateRoles users organizationId grant =>
    exact .inl (Except.elim_toOption backend.Unchanged same fun _ _ => unchanged_of_vlobs rfl)
  | create organizationId author realmId revision vlobId timestamp blob =>
    simp only [ReencryptionBackend.serve]
    cases created : backend.vlobs.create backend.realms organizationId author realmId revision vlobId
        timestamp blob with
    | error error => exact .inl same
    | ok vlobs =>
      obtain ⟨-, absent, is⟩ := create_eq_ok_iff.mp created
      obtain ⟨-, -, written⟩ := create_spec created
      refine .inr ⟨(organizationId, realmId), vlobId, author, 1, ?_, currentIn_setVlobs written
        fun old stored => ?_⟩
      · rw [is]
        exact changesOf_updateChanges organizationId author realmId vlobId 1 rfl
      · rw [absent] at stored
        cases stored
  | update organizationId author revision vlobId version timestamp blob =>
    simp only [ReencryptionBackend.serve]
    cases updated : backend.vlobs.update backend.realms organizationId author revision vlobId version
        timestamp blob with
    | error error => exact .inl same
    | ok vlobs =>
      obtain ⟨vlob, found, -, next, -, is⟩ := update_eq_ok_iff.mp updated
      obtain ⟨_, found', -, written⟩ := update_spec updated
      cases found.symm.trans found'
      have grown : ({ vlob with data := vlob.data ++ [⟨blob, author, timestamp⟩] } : Vlob β).currentVersion =
          version := by
        simp only [Vlob.currentVersion, List.length_append, List.length_singleton] at next ⊢
        omega
      refine .inr ⟨(organizationId, vlob.realmId), vlobId, author, version, ?_,
        grown ▸ currentIn_setVlobs written
        fun old stored => ?_⟩
      · rw [is]
        exact changesOf_updateChanges organizationId author vlob.realmId vlobId version rfl
      · cases found.symm.trans stored
        rfl
  | start users organizationId author realmId revision recipients timestamp now =>
    exact .inl (unchanged_of_vlobs (vlobs_startReencryptionMaintenance ..))
  | saveBatch organizationId author realmId revision batch =>
    exact .inl (unchanged_of_vlobs (vlobs_maintenanceSaveReencryptionBatch ..))
  | finish organizationId author realmId revision =>
    exact .inl (Except.elim_toOption backend.Unchanged same fun _ finished =>
      tracked.finish_unchanged finished)

end ReencryptionBackend

namespace PollSystem

variable {system : PollSystem β}

/-- A realm has a mark for the current version of each of its vlobs, none ahead of its checkpoint, and a
client knows all the versions up to its own. -/
structure Follows (changes : Changes) (current : UUID → Option ℕ) (client : PollingClient) : Prop where
  marks : ∀ vlobId, (changes.changes.get? vlobId).map (·.2.2) = current vlobId
  bounded : ∀ vlobId change, changes.changes.get? vlobId = some change → change.2.1 ≤ changes.checkpoint
  behind : client.checkpoint ≤ changes.checkpoint
  told : ∀ vlobId change, changes.changes.get? vlobId = some change → change.2.1 ≤ client.checkpoint →
    client.versions.get? vlobId = some change.2.2
  known : ∀ vlobId, current vlobId = none → client.versions.get? vlobId = none

theorem Follows.request {changes : Changes} {current current' : UUID → Option ℕ} {client : PollingClient}
    (follows : Follows changes current client) {vlobId : UUID} {author : DeviceID} {version : ℕ}
    (now : ∀ other, current' other = if other = vlobId then some version else current other) :
    Follows ⟨changes.checkpoint + 1, changes.changes.insert vlobId (author, changes.checkpoint + 1, version)⟩
      current' client := by
  refine ⟨fun other => ?_, fun other change found => ?_, follows.behind.trans (Nat.le_succ _),
    fun other change found early => ?_, fun other absent => ?_⟩
  · rw [now, Dict.get?_insert]
    split
    · rfl
    · exact follows.marks other
  · rw [Dict.get?_insert] at found
    split at found
    · cases found
      exact le_refl _
    · exact (follows.bounded other change found).trans (Nat.le_succ _)
  · rw [Dict.get?_insert] at found
    split at found
    · cases found
      exact absurd (early.trans follows.behind) (Nat.not_succ_le_self _)
    · exact follows.told other change found early
  · rw [now] at absent
    split at absent
    · cases absent
    · exact follows.known other absent

/-- What a poll brings up to date. -/
theorem Follows.receive {changes : Changes} {current : UUID → Option ℕ} {client : PollingClient}
    (follows : Follows changes current client) {reply : ℕ × Dict UUID ℕ}
    (replied : reply = (changes.checkpoint, (changes.changes.filter fun _ change =>
      client.checkpoint < change.2.1).mapValues fun change => change.2.2)) :
    Follows changes current (client.receive reply) ∧
      ∀ vlobId, (client.receive reply).versions.get? vlobId = current vlobId := by
  subst replied
  have exactly (vlobId : UUID) : (client.receive (changes.checkpoint, (changes.changes.filter fun _ change =>
      client.checkpoint < change.2.1).mapValues fun change => change.2.2)).versions.get? vlobId =
      current vlobId := by
    rw [PollingClient.receive, Dict.get?_update, Dict.get?_mapValues, Dict.get?_filter,
      ← follows.marks vlobId]
    cases found : changes.changes.get? vlobId with
    | none =>
      have absent := follows.marks vlobId
      rw [found, Option.map_none, eq_comm] at absent
      rw [follows.known vlobId absent]
      rfl
    | some change =>
      by_cases early : change.2.1 ≤ client.checkpoint
      · simp [Option.filter_some, not_lt.mpr early, follows.told vlobId change found early]
      · simp [Option.filter_some, not_le.mp early]
  refine ⟨⟨follows.marks, follows.bounded, le_refl _, fun vlobId change found _ => ?_,
    fun vlobId absent => (exactly vlobId).trans absent⟩, exactly⟩
  rw [exactly, ← follows.marks, found, Option.map_some]

theorem pollChanges_eq_ok {component : MemoryVlobComponent β} {realms : MemoryRealmComponent}
    {organizationId : OrganizationID} {author : DeviceID} {realmId : UUID} {checkpoint : ℕ}
    {reply : ℕ × Dict UUID ℕ}
    (polled : component.pollChanges realms organizationId author realmId checkpoint = .ok reply) :
    checkRealmReadAccess realms organizationId realmId author.userId none = .ok () ∧
      reply = (((component.perRealmChanges.get? (organizationId, realmId)).getD {}).checkpoint,
        (((component.perRealmChanges.get? (organizationId, realmId)).getD {}).changes.filter fun _ change =>
          checkpoint < change.2.1).mapValues fun change => change.2.2) := by
  simp only [MemoryVlobComponent.pollChanges, Except.bind_eq_ok_iff, Except.exists_done,
    Except.pure_eq_ok_iff] at polled
  exact ⟨polled.1, polled.2.symm⟩

/-- The client follows each realm. -/
def Sound [Inhabited β] (system : PollSystem β) : Prop :=
  system.backend.Tracked ∧
    ∀ key, Follows (system.backend.changesOf key) (system.backend.currentIn key) (system.client key)

variable [Inhabited β]

theorem Sound.step (sound : system.Sound) (event : PollEvent β) : (system.step event).Sound := by
  obtain ⟨tracked, follows⟩ := sound
  cases event with
  | request request =>
    refine ⟨tracked.serve request, fun other => ?_⟩
    rcases tracked.serve_changes request with same | ⟨key, vlobId, author, version, checkpoints, versions⟩
    · simp only [PollSystem.step, (same other).1, (same other).2]
      exact follows other
    · simp only [PollSystem.step, checkpoints]
      split
      · next here =>
        subst here
        refine (follows other).request fun vlobId' => ?_
        rw [versions]
        simp only [true_and]
      · next elsewhere =>
        have unchanged : (system.backend.serve request).currentIn other = system.backend.currentIn other := by
          funext vlobId'
          rw [versions, if_neg fun both => elsewhere both.1]
        rw [unchanged]
        exact follows other
  | poll organizationId author realmId =>
    refine Except.elim_toOption Sound ⟨tracked, follows⟩ fun reply polled => ⟨tracked, fun other => ?_⟩
    by_cases here : other = (organizationId, realmId)
    · subst here
      simp only [Function.update_self]
      exact ((follows _).receive (pollChanges_eq_ok polled).2).1
    · simp only [Function.update_of_ne here]
      exact follows other

theorem afterEvents_sound (events : List (PollEvent β)) : (afterEvents events).Sound := by
  have goesOn (system : PollSystem β) (sound : system.Sound) :
    (events.foldl PollSystem.step system).Sound := by
    induction events generalizing system with
    | nil => exact sound
    | cons event rest ih => exact ih _ (sound.step event)
  refine goesOn {} ⟨ReencryptionBackend.tracked_empty, fun key => ⟨fun vlobId => rfl, nofun, le_refl _, nofun,
    fun vlobId _ => rfl⟩⟩

end PollSystem

/-- After a poll a client knows the current version of each vlob of the realm, and of nothing else; a poll
from the checkpoint it was given tells it nothing. -/
theorem poll_misses_no_change [Inhabited β] (events : List (PollEvent β)) {organizationId : OrganizationID}
    {author : DeviceID} {realmId : UUID} {reply : ℕ × Dict UUID ℕ}
    (polled : (PollSystem.afterEvents events).pollChanges organizationId author realmId = .ok reply) :
    (∀ vlobId, (((PollSystem.afterEvents events).step (.poll organizationId author realmId)).client
        (organizationId, realmId)).versions.get? vlobId =
      (PollSystem.afterEvents events).backend.currentIn (organizationId, realmId) vlobId) ∧
    (PollSystem.afterEvents events).backend.vlobs.pollChanges (PollSystem.afterEvents events).backend.realms
      organizationId author realmId reply.1 = .ok (reply.1, ∅) := by
  obtain ⟨-, follows⟩ := PollSystem.afterEvents_sound events
  obtain ⟨access, replied⟩ := PollSystem.pollChanges_eq_ok polled
  constructor
  · intro vlobId
    rw [PollSystem.step, polled]
    simp only [Except.toOption, Option.elim_some, Function.update_self]
    exact ((follows (organizationId, realmId)).receive replied).2 vlobId
  · have nothing (changes : Changes) (bounded : ∀ vlobId change, changes.changes.get? vlobId = some change →
        change.2.1 ≤ changes.checkpoint) : ((changes.changes.filter fun _ change =>
          changes.checkpoint < change.2.1).mapValues fun change => change.2.2) = ∅ := by
      rw [Dict.eq_empty_iff, Dict.mapValues, List.map_eq_nil_iff]
      refine List.filter_eq_nil_iff.mpr fun entry member => ?_
      rw [decide_eq_true_eq, not_lt]
      exact bounded entry.1 entry.2 (Dict.get?_eq_some_iff.mpr member)
    rw [replied, MemoryVlobComponent.pollChanges, access, Except.ok_bind]
    exact congrArg (fun rest => Except.ok (_, rest)) (nothing _ (follows (organizationId, realmId)).bounded)

section Example

private def grantOwner (realmId : UUID) : RealmGrantedRole where
  certificate := ⟨⟨0⟩, some ⟨⟨"alice", "dev"⟩, 1, realmId, "alice", some .owner⟩⟩
  realmId := realmId
  userId := "alice"
  role := some .owner
  grantedBy := ⟨"alice", "dev"⟩
  grantedOn := 1

/-- Two realms; a vlob is written before and after a poll, and another one is created since. -/
private def writtenAndPolled : List (PollEvent String) :=
  [.request (.realmCreate "org" (grantOwner 1)), .request (.realmCreate "org" (grantOwner 2)),
    .request (.create "org" ⟨"alice", "dev"⟩ 1 1 7 2 "first"), .poll "org" ⟨"alice", "dev"⟩ 1,
    .request (.update "org" ⟨"alice", "dev"⟩ 1 7 2 2 "second"),
    .request (.create "org" ⟨"alice", "dev"⟩ 2 1 8 3 "elsewhere"),
    .request (.create "org" ⟨"alice", "dev"⟩ 1 1 9 3 "other")]

theorem poll_misses_no_change_written :
    (((PollSystem.afterEvents writtenAndPolled).step (.poll "org" ⟨"alice", "dev"⟩ 1)).client
      ("org", 1)).versions.get? 7 = some 2 :=
  ((poll_misses_no_change writtenAndPolled
    (by rfl : (PollSystem.afterEvents writtenAndPolled).pollChanges "org" ⟨"alice", "dev"⟩ 1 =
      .ok _)).1 7).trans
      (by rfl)

end Example

end Guardata
