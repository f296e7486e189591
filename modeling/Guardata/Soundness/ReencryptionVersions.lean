import Guardata.Machine.Run
import Guardata.Proofs.Reencryption

/-! # Re-encryption keeps every version

A re-encryption under way has the vlobs of its realm as they are, since nothing is written to a realm in
maintenance. A batch that an owner still holds belongs to the revision that it was fetched for: if it is
accepted, the re-encryption is the one that handed it out, because the revision only grows and is never
started twice. So whatever is saved decrypts to what it was made from, and what finishing puts in place has
the versions that were there.
-/

namespace Guardata

open Machine Reencryption

variable {Plain β : Type}

namespace ReencryptionBackend

variable {cipher : Cipher Plain β} {keys : OrganizationID × UUID → ℕ → SecretKey}
  {backend next : ReencryptionBackend β}

/-- A re-encryption is about the vlobs of its realm and keeps track of them. -/
structure Accounts (cipher : Cipher Plain β) (keys : OrganizationID × UUID → ℕ → SecretKey)
    (backend : ReencryptionBackend β) (key : OrganizationID × UUID) (realm : Realm)
    (reencryption : Reencryption β) : Prop where
  maintained : realm.status.inMaintenance = true
  realmId : reencryption.realmId = key.2
  originals : ∀ vlobId vlob, reencryption.originalVlobs.get? vlobId = some vlob ↔
    backend.vlobs.vlobs.get? (key.1, vlobId) = some vlob ∧ vlob.realmId = key.2
  tracks : reencryption.Tracks cipher (keys key (realm.status.encryptionRevision - 1))
    (keys key realm.status.encryptionRevision)

def Sound (cipher : Cipher Plain β) (keys : OrganizationID × UUID → ℕ → SecretKey)
    (backend : ReencryptionBackend β) : Prop :=
  ∀ key reencryption, backend.reencryptions.get? key = some reencryption →
    ∃ realm, backend.realms.realms.get? key = some realm ∧
      backend.Accounts cipher keys key realm reencryption

/-- From a revision on, what is re-encrypted at that revision are these vlobs. -/
def Since (backend : ReencryptionBackend β) (key : OrganizationID × UUID) (revision : ℕ)
    (vlobs : Dict UUID (Vlob β)) : Prop :=
  ∃ realm, backend.realms.realms.get? key = some realm ∧ revision ≤ realm.status.encryptionRevision ∧
    (realm.status.encryptionRevision = revision →
      ∀ reencryption, backend.reencryptions.get? key = some reencryption →
        reencryption.originalVlobs = vlobs)

/-- No step takes a revision back or puts other vlobs under it. -/
def Keeps (backend next : ReencryptionBackend β) : Prop :=
  ∀ key revision vlobs, backend.Since key revision vlobs → next.Since key revision vlobs

theorem Keeps.refl (backend : ReencryptionBackend β) : backend.Keeps backend :=
  fun _ _ _ since => since

/-- It is enough to look at each realm. -/
theorem keeps_of_realms
    (realms : ∀ key realm, backend.realms.realms.get? key = some realm →
      ∃ after, next.realms.realms.get? key = some after ∧
        realm.status.encryptionRevision ≤ after.status.encryptionRevision ∧
        (after.status.encryptionRevision = realm.status.encryptionRevision →
          ∀ reencryption, next.reencryptions.get? key = some reencryption →
            ∃ old, backend.reencryptions.get? key = some old ∧
              reencryption.originalVlobs = old.originalVlobs)) :
    backend.Keeps next := by
  rintro key revision vlobs ⟨realm, is, reached, same⟩
  obtain ⟨after, isAfter, grows, stays⟩ := realms key realm is
  refine ⟨after, isAfter, reached.trans grows, fun equal reencryption found => ?_⟩
  have unchanged : realm.status.encryptionRevision = revision :=
    le_antisymm (grows.trans equal.le) reached
  obtain ⟨old, isOld, vlobs⟩ := stays (equal.trans unchanged.symm) reencryption found
  exact vlobs.trans (same unchanged old isOld)

/-- Roles may change and realms may be added. -/
theorem Sound.setRealms (sound : backend.Sound cipher keys) {realms : MemoryRealmComponent}
    (status : ∀ key realm, backend.realms.realms.get? key = some realm →
      ∃ after, realms.realms.get? key = some after ∧ after.status = realm.status) :
    Sound cipher keys { backend with realms := realms } ∧
      backend.Keeps { backend with realms := realms } := by
  refine ⟨?_, keeps_of_realms ?_⟩
  · intro key reencryption found
    obtain ⟨realm, is, accounts⟩ := sound key reencryption found
    obtain ⟨after, isAfter, same⟩ := status key realm is
    refine ⟨after, isAfter, ?_, accounts.realmId, accounts.originals, ?_⟩
    · rw [same]
      exact accounts.maintained
    · rw [same]
      exact accounts.tracks
  · intro key realm is
    obtain ⟨after, isAfter, same⟩ := status key realm is
    refine ⟨after, isAfter, by rw [same], fun _ reencryption found => ⟨reencryption, found, rfl⟩⟩

/-- A vlob of a realm that is not in maintenance may be written. -/
theorem Sound.setVlobs (sound : backend.Sound cipher keys) {vlobs : MemoryVlobComponent β}
    {organizationId : OrganizationID} {vlobId : UUID} {vlob : Vlob β} {realm : Realm}
    (written : vlobs.vlobs = backend.vlobs.vlobs.insert (organizationId, vlobId) vlob)
    (free : backend.realms.realms.get? (organizationId, vlob.realmId) = some realm)
    (idle : realm.status.inMaintenance = false)
    (before : ∀ old, backend.vlobs.vlobs.get? (organizationId, vlobId) = some old →
      old.realmId = vlob.realmId) :
    Sound cipher keys { backend with vlobs := vlobs } ∧
      backend.Keeps { backend with vlobs := vlobs } := by
  refine ⟨?_, keeps_of_realms fun key realm is => ⟨realm, is, le_refl _, fun _ reencryption found =>
    ⟨reencryption, found, rfl⟩⟩⟩
  intro key reencryption found
  obtain ⟨other, is, accounts⟩ := sound key reencryption found
  refine ⟨other, is, accounts.maintained, accounts.realmId, fun id stored => ?_, accounts.tracks⟩
  rw [accounts.originals, written, Dict.get?_insert]
  split
  · next same =>
    -- The vlob is of another realm than the one in maintenance, before and after.
    obtain ⟨rfl, rfl⟩ := Prod.mk.inj same
    have elsewhere : vlob.realmId ≠ key.2 := by
      intro same
      rw [same, is] at free
      cases free
      rw [accounts.maintained] at idle
      cases idle
    constructor
    · rintro ⟨old, inside⟩
      exact absurd ((before stored old).symm.trans inside) elsewhere
    · rintro ⟨new, inside⟩
      cases new
      exact absurd inside elsewhere
  · exact Iff.rfl

section Write

variable {organizationId : OrganizationID} {author : DeviceID}

theorem Sound.realmCreate (sound : backend.Sound cipher keys) {grant : RealmGrantedRole}
    {realms : MemoryRealmComponent} (created : backend.realms.create organizationId grant = .ok realms) :
    Sound cipher keys { backend with realms := realms } ∧
    backend.Keeps { backend with realms := realms } := by
  obtain ⟨-, -, absent, rfl⟩ := MemoryRealmComponent.create_eq_ok_iff.mp created
  refine sound.setRealms fun key realm is => ⟨realm, ?_, rfl⟩
  rw [MemoryRealmComponent.get?_setRealm, if_neg, is]
  rintro rfl
  rw [absent] at is
  cases is

theorem Sound.updateRoles (sound : backend.Sound cipher keys) {users : UserTable} {grant : RealmGrantedRole}
    {realms : MemoryRealmComponent} (updated : backend.realms.updateRoles users organizationId grant =
    .ok realms) :
    Sound cipher keys { backend with realms := realms } ∧
    backend.Keeps { backend with realms := realms } := by
  obtain ⟨-, -, realm, found, -, rfl⟩ := MemoryRealmComponent.updateRoles_eq_ok_iff.mp updated
  refine sound.setRealms fun key before is => ?_
  simp only [MemoryRealmComponent.get?_setRealm]
  split
  · next same =>
    subst same
    cases found.symm.trans is
    exact ⟨_, rfl, rfl⟩
  · exact ⟨before, is, rfl⟩

theorem Sound.vlobCreate (sound : backend.Sound cipher keys) {realmId vlobId : UUID} {revision : ℕ}
    {timestamp : DateTime} {blob : β} {vlobs : MemoryVlobComponent β}
    (created : backend.vlobs.create backend.realms organizationId author realmId revision vlobId timestamp
      blob = .ok vlobs) :
    Sound cipher keys { backend with vlobs := vlobs } ∧ backend.Keeps { backend with vlobs := vlobs } := by
  obtain ⟨⟨realm, is, idle⟩, absent, written⟩ := MemoryVlobComponent.create_spec created
  refine sound.setVlobs written is idle fun old there => ?_
  rw [absent] at there
  cases there

theorem Sound.vlobUpdate (sound : backend.Sound cipher keys) {vlobId : UUID} {revision version : ℕ}
    {timestamp : DateTime} {blob : β} {vlobs : MemoryVlobComponent β}
    (updated : backend.vlobs.update backend.realms organizationId author revision vlobId version timestamp
      blob = .ok vlobs) :
    Sound cipher keys { backend with vlobs := vlobs } ∧ backend.Keeps { backend with vlobs := vlobs } := by
  obtain ⟨vlob, found, ⟨realm, is, idle⟩, written⟩ := MemoryVlobComponent.update_spec updated
  refine sound.setVlobs written is idle fun old there => ?_
  cases found.symm.trans there
  rfl

end Write

section Start

variable {users : UserTable} {organizationId : OrganizationID} {author : DeviceID} {realmId : UUID}
  {revision : ℕ} {recipients : List UserID} {timestamp now : DateTime}

/-- Everything that an accepted start has checked, and all that it changes. -/
theorem start_ok {done : Unit}
    (started : backend.startReencryptionMaintenance users organizationId author realmId revision recipients
      timestamp now = (next, .ok done)) :
    ∃ realm, backend.realms.realms.get? (organizationId, realmId) = some realm ∧
      realm.status.inMaintenance = false ∧ revision = realm.status.encryptionRevision + 1 ∧
      next = { backend with
        realms := backend.realms.setRealm organizationId realmId
          { realm with status := ⟨some .reencryption, some timestamp, some author, revision⟩ }
        reencryptions := backend.reencryptions.insert (organizationId, realmId)
          (.new realmId (backend.realmVlobs organizationId realmId)) } := by
  unfold startReencryptionMaintenance at started
  split at started
  · cases started
  · next realms accepted =>
    simp only [MemoryRealmComponent.startReencryptionMaintenance, Except.bind_eq_ok_iff,
      Except.require_eq_ok_iff, exists_const, MemoryRealmComponent.getRealm_eq_ok_iff,
      Except.pure_eq_ok_iff, Bool.not_eq_true] at accepted
    obtain ⟨realm, is, -, idle, grown, -, -, -, rfl⟩ := accepted
    split at started
    · cases started
    · cases started
      exact ⟨realm, is, idle, grown, rfl⟩

/-- A start that is refused changes nothing. -/
theorem Sound.start_error (sound : backend.Sound cipher keys) {error : ReencryptionError}
    (refused : backend.startReencryptionMaintenance users organizationId author realmId revision recipients
      timestamp now = (next, .error error)) : next = backend := by
  unfold startReencryptionMaintenance at refused
  split at refused
  · cases refused
    rfl
  · next realms accepted =>
    simp only [MemoryRealmComponent.startReencryptionMaintenance, Except.bind_eq_ok_iff,
      Except.require_eq_ok_iff, exists_const, MemoryRealmComponent.getRealm_eq_ok_iff,
      Except.pure_eq_ok_iff, Bool.not_eq_true] at accepted
    obtain ⟨realm, is, -, idle, -⟩ := accepted
    split at refused
    · next present =>
      -- The assertion holds: only a realm in maintenance has a re-encryption.
      obtain ⟨reencryption, found⟩ := Dict.contains_eq_true_iff.mp present
      obtain ⟨other, same, accounts⟩ := sound _ reencryption found
      cases is.symm.trans same
      rw [accounts.maintained] at idle
      cases idle
    · cases refused

theorem Sound.start (sound : backend.Sound cipher keys) {done : Unit}
    (started : backend.startReencryptionMaintenance users organizationId author realmId revision recipients
      timestamp now = (next, .ok done)) :
    next.Sound cipher keys ∧ backend.Keeps next ∧
      next.Since (organizationId, realmId) revision (backend.realmVlobs organizationId realmId) := by
  obtain ⟨realm, is, idle, rfl, rfl⟩ := start_ok started
  refine ⟨?_, keeps_of_realms ?_, ?_⟩
  · intro key reencryption found
    simp only [Dict.get?_insert] at found
    simp only [MemoryRealmComponent.get?_setRealm]
    split at found
    · next same =>
      subst same
      cases found
      refine ⟨_, if_pos rfl, rfl, rfl, fun vlobId vlob => get?_realmVlobs, tracks_new ..⟩
    · next other =>
      obtain ⟨realm, is, accounts⟩ := sound key reencryption found
      exact ⟨realm, by rw [if_neg other, is], accounts.maintained, accounts.realmId, accounts.originals,
        accounts.tracks⟩
  · intro key before found
    simp only [MemoryRealmComponent.get?_setRealm, Dict.get?_insert]
    by_cases same : key = (organizationId, realmId)
    · subst same
      cases is.symm.trans found
      refine ⟨_, if_pos rfl, Nat.le_succ _, fun equal => ?_⟩
      exact absurd equal (Nat.succ_ne_self _)
    · simp only [if_neg same]
      exact ⟨before, found, le_refl _, fun _ reencryption old => ⟨reencryption, old, rfl⟩⟩
  · refine ⟨_, (MemoryRealmComponent.get?_setRealm ..).trans (if_pos rfl), le_refl _, ?_⟩
    intro _ reencryption found
    simp only [Dict.get?_insert, if_true] at found
    cases found
    rfl

/-- Accepted or refused. -/
theorem Sound.started (sound : backend.Sound cipher keys) (users : UserTable)
    (organizationId : OrganizationID) (author : DeviceID) (realmId : UUID) (revision : ℕ)
    (recipients : List UserID) (timestamp now : DateTime) :
    (backend.startReencryptionMaintenance users organizationId author realmId revision recipients timestamp
      now).1.Sound cipher keys ∧
    backend.Keeps (backend.startReencryptionMaintenance users organizationId author realmId revision
      recipients timestamp now).1 := by
  cases outcome : backend.startReencryptionMaintenance users organizationId author realmId revision recipients
      timestamp now with
  | mk after reply =>
    cases reply with
    | error error =>
      obtain rfl := sound.start_error outcome
      exact ⟨sound, .refl _⟩
    | ok done =>
      obtain ⟨after, keeps, -⟩ := sound.start outcome
      exact ⟨after, keeps⟩

end Start

section Save

variable {organizationId : OrganizationID} {realmId : UUID} {revision : ℕ}

theorem Sound.save (sound : backend.Sound cipher keys) (author : DeviceID) {batch : List (BatchItem β)}
    {vlobs : Dict UUID (Vlob β)} (since : backend.Since (organizationId, realmId) revision vlobs)
    (reencrypted : ∀ item ∈ batch, IsReencrypted cipher (keys (organizationId, realmId) (revision - 1))
      (keys (organizationId, realmId) revision) vlobs item) :
    (backend.maintenanceSaveReencryptionBatch organizationId author realmId revision batch).1.Sound cipher
        keys ∧
      backend.Keeps
        (backend.maintenanceSaveReencryptionBatch organizationId author realmId revision batch).1 := by
  unfold maintenanceSaveReencryptionBatch
  split
  · exact ⟨sound, .refl backend⟩
  · next reencryption current =>
    obtain ⟨realm, is, -, maintained, rfl, found⟩ := currentReencryption_eq_ok_iff.mp current
    obtain ⟨_, same, accounts⟩ := sound _ reencryption found
    cases is.symm.trans same
    obtain ⟨_, same, -, handed⟩ := since
    cases is.symm.trans same
    obtain rfl := handed rfl reencryption found
    obtain ⟨kept, keptRealm⟩ := originalVlobs_saveBatch reencryption batch
    refine ⟨?_, keeps_of_realms ?_⟩
    · intro key other stands
      simp only [Dict.get?_insert] at stands
      split at stands
      · next same =>
        subst same
        cases stands
        refine ⟨realm, is, maintained, keptRealm.trans accounts.realmId, fun vlobId vlob => ?_,
          accounts.tracks.saveBatch reencrypted⟩
        rw [kept]
        exact accounts.originals vlobId vlob
      · obtain ⟨realm, is, accounts⟩ := sound key other stands
        exact ⟨realm, is, accounts.maintained, accounts.realmId, accounts.originals, accounts.tracks⟩
    · intro key before there
      refine ⟨before, there, le_refl _, fun _ other stands => ?_⟩
      simp only [Dict.get?_insert] at stands
      split at stands
      · next same =>
        subst same
        cases stands
        exact ⟨reencryption, found, kept⟩
      · exact ⟨other, stands, rfl⟩

end Save

section Finish

variable {organizationId : OrganizationID} {author : DeviceID} {realmId : UUID} {revision : ℕ}

/-- What finishing replaces: vlobs of the realm, by vlobs of the realm. -/
theorem Accounts.of_get?_reassembled {key : OrganizationID × UUID} {realm : Realm}
    {reencryption : Reencryption β} {vlobs : Dict UUID (Vlob β)}
    (accounts : backend.Accounts cipher keys key realm reencryption)
    (got : reencryption.getReencryptedVlobs = .ok vlobs) {vlobId : UUID} {vlob : Vlob β}
    (replaced : vlobs.get? vlobId = some vlob) :
    vlob.realmId = key.2 ∧
      ∃ old, backend.vlobs.vlobs.get? (key.1, vlobId) = some old ∧ old.realmId = key.2 := by
  obtain ⟨realm, original, is⟩ := (accounts.tracks.toCovers.reassembled got).1 vlobId vlob replaced
  exact ⟨realm.trans accounts.realmId, original, (accounts.originals vlobId original).mp is⟩

theorem Sound.finish (sound : backend.Sound cipher keys)
    (finished : backend.finishReencryptionMaintenance organizationId author realmId revision = .ok next) :
    next.Sound cipher keys ∧ backend.Keeps next := by
  obtain ⟨realm, reencryption, vlobs, is, -, -, rfl, found, got, rfl⟩ := finish_eq_ok_iff.mp finished
  obtain ⟨_, same, accounts⟩ := sound _ reencryption found
  cases is.symm.trans same
  refine ⟨?_, keeps_of_realms ?_⟩
  · intro key other stands
    simp only [replaceVlobs, Dict.get?_erase] at stands
    split at stands
    · cases stands
    · next different =>
      obtain ⟨otherRealm, isOther, others⟩ := sound key other stands
      refine ⟨otherRealm, ?_, others.maintained, others.realmId, fun vlobId vlob => ?_, others.tracks⟩
      · simp only [MemoryRealmComponent.get?_setRealm, if_neg different, isOther]
      · simp only [others.originals, get?_replaceVlobs]
        split
        · next sameOrg =>
          obtain ⟨org, id⟩ := key
          subst sameOrg
          cases replaced : vlobs.get? vlobId with
          | none => exact Iff.rfl
          | some new =>
            obtain ⟨newRealm, old, isOld, oldRealm⟩ := accounts.of_get?_reassembled got replaced
            constructor
            · rintro ⟨old', inside⟩
              cases isOld.symm.trans old'
              exact (different (Prod.ext rfl (inside.symm.trans oldRealm))).elim
            · rintro ⟨new', inside⟩
              cases new'
              exact (different (Prod.ext rfl (inside.symm.trans newRealm))).elim
        · exact Iff.rfl
  · intro key before there
    simp only [MemoryRealmComponent.get?_setRealm, replaceVlobs, Dict.get?_erase]
    by_cases same : key = (organizationId, realmId)
    · subst same
      cases is.symm.trans there
      refine ⟨_, if_pos rfl, le_refl _, fun _ other stands => ?_⟩
      rw [if_pos rfl] at stands
      cases stands
    · simp only [if_neg same]
      exact ⟨before, there, le_refl _, fun _ other stands => ⟨other, stands, rfl⟩⟩

/-- Finishing replaces every version of the realm by one that decrypts to the same. -/
theorem Sound.finish_carries (sound : backend.Sound cipher keys)
    (finished : backend.finishReencryptionMaintenance organizationId author realmId revision = .ok next) :
    ∃ reencryption, backend.reencryptions.get? (organizationId, realmId) = some reencryption ∧
      (∀ key version, originalAt? reencryption.originalVlobs key = some version →
        reencryption.done.contains key = true) ∧
      (∀ vlobId vlob, reencryption.originalVlobs.get? vlobId = some vlob →
        ∃ after, next.vlobs.vlobs.get? (organizationId, vlobId) = some after ∧ after.realmId = realmId ∧
          List.Forall₂ (Carried cipher (keys (organizationId, realmId) (revision - 1))
            (keys (organizationId, realmId) revision)) vlob.data after.data) ∧
      ∀ vlobId after, next.vlobs.vlobs.get? (organizationId, vlobId) = some after →
        after.realmId = realmId → ∃ vlob, reencryption.originalVlobs.get? vlobId = some vlob := by
  obtain ⟨realm, reencryption, vlobs, is, -, -, rfl, found, got, rfl⟩ := finish_eq_ok_iff.mp finished
  obtain ⟨_, same, accounts⟩ := sound _ reencryption found
  cases is.symm.trans same
  have empty := isFinished_of_getReencryptedVlobs got
  refine ⟨reencryption, found, ?_, ?_, ?_⟩
  · intro key version original
    rcases accounts.tracks.covers key version original with left | done
    · obtain ⟨blob, left⟩ := Dict.contains_eq_true_iff.mp left
      rw [Dict.get?_eq_some_iff, List.isEmpty_iff.mp empty] at left
      cases left
    · exact done
  · intro vlobId vlob original
    have same := accounts.tracks.carried got original
    simp only [get?_replaceVlobs, if_true]
    cases replaced : vlobs.get? vlobId with
    | some after =>
      rw [dataOf, replaced] at same
      exact ⟨after, rfl, (accounts.of_get?_reassembled got replaced).1, same⟩
    | none =>
      -- A vlob without versions stays as it is.
      obtain ⟨stands, inside⟩ := (accounts.originals vlobId vlob).mp original
      refine ⟨vlob, stands, inside, ?_⟩
      rw [dataOf, replaced] at same
      have nothing : vlob.data = [] := List.forall₂_nil_right_iff.mp same
      rw [nothing]
      exact .nil
  · intro vlobId after stands inside
    simp only [get?_replaceVlobs, if_true] at stands
    rcases Option.or_eq_some_iff.mp stands with replaced | ⟨-, before⟩
    · obtain ⟨-, old, isOld, oldRealm⟩ := accounts.of_get?_reassembled got replaced
      exact ⟨old, (accounts.originals vlobId old).mpr ⟨isOld, oldRealm⟩⟩
    · exact ⟨after, (accounts.originals vlobId after).mpr ⟨before, inside⟩⟩

/-- An owner can finish once nothing is left to do. -/
theorem Sound.exists_finish (sound : backend.Sound cipher keys) {reencryption : Reencryption β}
    {realm : Realm} (is : backend.realms.realms.get? (organizationId, realmId) = some realm)
    (owner : realm.roles.get? author.userId = some .owner)
    (found : backend.reencryptions.get? (organizationId, realmId) = some reencryption)
    (done : reencryption.isFinished = true) :
    ∃ next, backend.finishReencryptionMaintenance organizationId author realmId
      realm.status.encryptionRevision = .ok next := by
  obtain ⟨_, same, accounts⟩ := sound _ reencryption found
  cases is.symm.trans same
  obtain ⟨vlobs, got⟩ := accounts.tracks.toCovers.exists_reassembled done
  exact ⟨_, finish_eq_ok_iff.mpr
    ⟨realm, reencryption, vlobs, is, owner, accounts.maintained, rfl, found, got, rfl⟩⟩

end Finish

end ReencryptionBackend

namespace ReencryptionSystem

open ReencryptionBackend

variable {cipher : Cipher Plain β} {keys : OrganizationID × UUID → ℕ → SecretKey}
  {system next : ReencryptionSystem β} {event : ReencryptionEvent β}

/-- The batches that owners still hold are of the vlobs that were to be re-encrypted. -/
def RunsSound (keys : OrganizationID × UUID → ℕ → SecretKey) (backend : ReencryptionBackend β)
    (runs : ℕ → Option (BatchRun β)) : Prop :=
  ∀ run job batch, runs run = some ⟨job, .fetched batch⟩ →
    ∃ organizationId author realmId revision vlobs,
      job = jobFor keys organizationId author realmId revision ∧
      backend.Since (organizationId, realmId) revision vlobs ∧ ∀ item ∈ batch, IsOriginal vlobs item

theorem RunsSound.keeps {backend after : ReencryptionBackend β} {runs : ℕ → Option (BatchRun β)}
    (sound : RunsSound keys backend runs) (keeps : backend.Keeps after) : RunsSound keys after runs := by
  intro run job batch held
  obtain ⟨organizationId, author, realmId, revision, vlobs, is, since, originals⟩ := sound run job batch held
  exact ⟨organizationId, author, realmId, revision, vlobs, is, keeps _ _ _ since, originals⟩

theorem RunsSound.update {backend : ReencryptionBackend β} {runs : ℕ → Option (BatchRun β)}
    (sound : RunsSound keys backend runs) (run : ℕ) {progress : Option (BatchRun β)}
    (holds : ∀ job batch, progress = some ⟨job, .fetched batch⟩ →
      ∃ organizationId author realmId revision vlobs,
        job = jobFor keys organizationId author realmId revision ∧
        backend.Since (organizationId, realmId) revision vlobs ∧ ∀ item ∈ batch, IsOriginal vlobs item) :
    RunsSound keys backend (Function.update runs run progress) := by
  intro other job batch held
  by_cases same : other = run
  · subst same
    rw [Function.update_self] at held
    exact holds job batch held
  · rw [Function.update_of_ne same] at held
    exact sound other job batch held

/-- A run that has ended holds nothing. -/
theorem RunsSound.clear {backend : ReencryptionBackend β} {runs : ℕ → Option (BatchRun β)}
    (sound : RunsSound keys backend runs) (run : ℕ) :
    RunsSound keys backend (Function.update runs run none) := by
  refine sound.update run fun job batch held => ?_
  cases held

structure Sound (cipher : Cipher Plain β) (keys : OrganizationID × UUID → ℕ → SecretKey)
    (system : ReencryptionSystem β) : Prop where
  backend : system.backend.Sound cipher keys
  runs : RunsSound keys system.backend system.runs

/-- A step of the backend that no run takes part in. -/
theorem Sound.of_backend (sound : system.Sound cipher keys) {after : ReencryptionBackend β}
    (step : after.Sound cipher keys ∧ system.backend.Keeps after) :
    Sound cipher keys { system with backend := after } ∧ system.backend.Keeps after :=
  ⟨⟨step.1, sound.runs.keeps step.2⟩, step.2⟩

theorem Sound.getBatch (sound : system.Sound cipher keys) (run : ℕ) (organizationId : OrganizationID)
    (author : DeviceID) (realmId : UUID) (revision size : ℕ) :
    (system.getBatch run (jobFor keys organizationId author realmId revision) size).Sound cipher keys := by
  unfold ReencryptionSystem.getBatch
  split
  · exact ⟨sound.backend, sound.runs.clear run⟩
  · next batch handed =>
    refine ⟨sound.backend, sound.runs.update run fun job other held => ?_⟩
    cases held
    simp only [maintenanceGetReencryptionBatch, Except.bind_eq_ok_iff, Except.pure_eq_ok_iff,
      currentReencryption_eq_ok_iff, jobFor] at handed
    obtain ⟨reencryption, ⟨realm, is, -, -, rfl, found⟩, rfl⟩ := handed
    obtain ⟨_, -, accounts⟩ := sound.backend _ reencryption found
    refine ⟨organizationId, author, realmId, _, reencryption.originalVlobs, rfl,
      ⟨realm, is, le_refl _, fun _ other stands => ?_⟩, fun item member =>
        accounts.tracks.isOriginal_of_mem_getBatch member⟩
    cases found.symm.trans stands
    rfl

theorem Sound.saveBatch (sound : system.Sound cipher keys)
    (correct : ∀ key nonce plain, cipher.decrypt key (cipher.encrypt key nonce plain) = some plain)
    {run : ℕ} {job : ReencryptionJob} {batch : List (BatchItem β)} (nonces : UUID → ℕ → ℕ)
    (held : system.runs run = some ⟨job, .fetched batch⟩) :
    (system.saveBatch cipher run job nonces batch).Sound cipher keys ∧
      system.backend.Keeps (system.saveBatch cipher run job nonces batch).backend := by
  obtain ⟨organizationId, author, realmId, revision, vlobs, rfl, since, originals⟩ :=
    sound.runs run job batch held
  unfold ReencryptionSystem.saveBatch
  split
  · exact ⟨⟨sound.backend, sound.runs.clear run⟩, .refl _⟩
  · next donebatch done =>
    have saved := sound.backend.save author since
      (ReencryptionJob.isReencrypted_of_reencrypt correct originals done)
    refine ⟨⟨saved.1, (sound.runs.keeps saved.2).update run fun job batch progress => ?_⟩, saved.2⟩
    split at progress
    · cases progress
    · split at progress <;> cases progress

theorem Sound.finishBatch (sound : system.Sound cipher keys) (run : ℕ) (job : ReencryptionJob) :
    (system.finishBatch run job).Sound cipher keys ∧
      system.backend.Keeps (system.finishBatch run job).backend := by
  unfold ReencryptionSystem.finishBatch
  split
  · exact ⟨⟨sound.backend, sound.runs.clear run⟩, .refl _⟩
  · next backend finished =>
    obtain ⟨after, keeps⟩ := sound.backend.finish finished
    exact ⟨⟨after, (sound.runs.keeps keeps).clear run⟩, keeps⟩

/-- One step, whoever takes it. -/
theorem Sound.step (sound : system.Sound cipher keys)
    (correct : ∀ key nonce plain, cipher.decrypt key (cipher.encrypt key nonce plain) = some plain)
    (step : system.step? cipher keys event = some next) :
    next.Sound cipher keys ∧ system.backend.Keeps next.backend := by
  cases event with
  | realmCreate organizationId grant =>
    obtain ⟨realms, created, rfl⟩ := Option.map_eq_some_iff.mp step
    exact sound.of_backend (sound.backend.realmCreate (Except.toOption_eq_some_iff.mp created))
  | updateRoles users organizationId grant =>
    obtain ⟨realms, updated, rfl⟩ := Option.map_eq_some_iff.mp step
    exact sound.of_backend (sound.backend.updateRoles (Except.toOption_eq_some_iff.mp updated))
  | vlobCreate organizationId author realmId revision vlobId timestamp blob =>
    obtain ⟨vlobs, created, rfl⟩ := Option.map_eq_some_iff.mp step
    exact sound.of_backend (sound.backend.vlobCreate (Except.toOption_eq_some_iff.mp created))
  | vlobUpdate organizationId author revision vlobId version timestamp blob =>
    obtain ⟨vlobs, updated, rfl⟩ := Option.map_eq_some_iff.mp step
    exact sound.of_backend (sound.backend.vlobUpdate (Except.toOption_eq_some_iff.mp updated))
  | start users organizationId author realmId revision recipients timestamp now =>
    obtain rfl := Option.some_inj.mp step
    exact sound.of_backend (sound.backend.started ..)
  | finish organizationId author realmId revision =>
    obtain ⟨after, finished, rfl⟩ := Option.map_eq_some_iff.mp step
    exact sound.of_backend (sound.backend.finish (Except.toOption_eq_some_iff.mp finished))
  | getBatch run organizationId author realmId revision size =>
    obtain rfl := Option.some_inj.mp step
    refine ⟨sound.getBatch run organizationId author realmId revision size, ?_⟩
    unfold ReencryptionSystem.getBatch
    split <;> exact .refl _
  | saveBatch run nonces =>
    simp only [step?] at step
    split at step
    · next held =>
      obtain rfl := Option.some_inj.mp step
      exact sound.saveBatch correct nonces held
    · cases step
  | finishBatch run =>
    simp only [step?] at step
    split at step
    · obtain rfl := Option.some_inj.mp step
      exact sound.finishBatch run _
    · cases step
  | abandon run =>
    obtain rfl := Option.some_inj.mp step
    exact ⟨⟨sound.backend, sound.runs.clear run⟩, .refl _⟩

/-- A whole run, from a backend on which nothing is re-encrypted. -/
theorem sound_of_run {initial : ReencryptionSystem β}
    (correct : ∀ key nonce plain, cipher.decrypt key (cipher.encrypt key nonce plain) = some plain)
    (idle : initial.backend.reencryptions = ∅) (nobody : ∀ run, initial.runs run = none)
    {events : List (ReencryptionEvent β)} (played : run? (step? cipher keys) initial events = some system) :
    system.Sound cipher keys := by
  have preserved (state : ReencryptionSystem β) (event : ReencryptionEvent β) (next : ReencryptionSystem β)
      (step : state.step? cipher keys event = some next) (sound : state.Sound cipher keys) :
      next.Sound cipher keys := (sound.step correct step).1
  refine run?_preserves preserved played ⟨?_, ?_⟩
  · intro key reencryption found
    rw [idle] at found
    cases found
  · intro run job batch held
    rw [nobody] at held
    cases held

end ReencryptionSystem

/-- Re-encryption keeps every version. Whatever the owners do between the start of a re-encryption and a
finish that succeeds, every version of the realm has been saved by then, and each vlob has the versions it
had, with their authors and dates and with what they decrypted to. -/
theorem reencryption_keeps_versions {cipher : Cipher Plain β}
    (correct : ∀ key nonce plain, cipher.decrypt key (cipher.encrypt key nonce plain) = some plain)
    {keys : OrganizationID × UUID → ℕ → SecretKey} {initial before after : ReencryptionSystem β}
    {started finished : ReencryptionBackend β} {earlier meanwhile : List (ReencryptionEvent β)}
    {users : UserTable} {organizationId : OrganizationID} {starter finisher : DeviceID} {realmId : UUID}
    {revision : ℕ} {recipients : List UserID} {timestamp now : DateTime}
    (idle : initial.backend.reencryptions = ∅) (nobody : ∀ run, initial.runs run = none)
    (reached : run? (ReencryptionSystem.step? cipher keys) initial earlier = some before)
    (starts : before.backend.startReencryptionMaintenance users organizationId starter realmId revision
      recipients timestamp now = (started, .ok ()))
    (goesOn : run? (ReencryptionSystem.step? cipher keys) { before with backend := started } meanwhile =
      some after)
    (finishes : after.backend.finishReencryptionMaintenance organizationId finisher realmId revision =
      .ok finished) :
    (∃ reencryption, after.backend.reencryptions.get? (organizationId, realmId) = some reencryption ∧
      ∀ vlobId vlob, before.backend.vlobs.vlobs.get? (organizationId, vlobId) = some vlob →
        vlob.realmId = realmId → ∀ index < vlob.data.length,
          reencryption.done.contains (vlobId, index + 1) = true) ∧
    (∀ vlobId vlob, before.backend.vlobs.vlobs.get? (organizationId, vlobId) = some vlob →
      vlob.realmId = realmId →
      ∃ new, finished.vlobs.vlobs.get? (organizationId, vlobId) = some new ∧ new.realmId = realmId ∧
        List.Forall₂ (Carried cipher (keys (organizationId, realmId) (revision - 1))
          (keys (organizationId, realmId) revision)) vlob.data new.data) ∧
    ∀ vlobId new, finished.vlobs.vlobs.get? (organizationId, vlobId) = some new → new.realmId = realmId →
      ∃ vlob, before.backend.vlobs.vlobs.get? (organizationId, vlobId) = some vlob ∧
        vlob.realmId = realmId := by
  have sound := ReencryptionSystem.sound_of_run correct idle nobody reached
  obtain ⟨soundStart, keeps, since⟩ := sound.backend.start starts
  have preserved (state : ReencryptionSystem β) (event : ReencryptionEvent β) (next : ReencryptionSystem β)
      (step : state.step? cipher keys event = some next)
      (holds : state.Sound cipher keys ∧ state.backend.Since (organizationId, realmId) revision
        (before.backend.realmVlobs organizationId realmId)) :
      next.Sound cipher keys ∧ next.backend.Since (organizationId, realmId) revision
        (before.backend.realmVlobs organizationId realmId) := by
    obtain ⟨soundNext, keeps⟩ := holds.1.step correct step
    exact ⟨soundNext, keeps _ _ _ holds.2⟩
  obtain ⟨soundAfter, sinceAfter⟩ :=
    run?_preserves preserved goesOn ⟨⟨soundStart, sound.runs.keeps keeps⟩, since⟩
  obtain ⟨reencryption, found, saved, carried, nothingNew⟩ := soundAfter.backend.finish_carries finishes
  -- What the re-encryption started with is what it still has.
  have originals : reencryption.originalVlobs = before.backend.realmVlobs organizationId realmId := by
    obtain ⟨realm, _, _, is, -, -, same, -⟩ := ReencryptionBackend.finish_eq_ok_iff.mp finishes
    obtain ⟨_, isToo, -, stays⟩ := sinceAfter
    cases is.symm.trans isToo
    exact stays same.symm reencryption found
  rw [originals] at saved carried nothingNew
  refine ⟨⟨reencryption, found, fun vlobId vlob is inside index bound => ?_⟩, ?_, ?_⟩
  · have original := ReencryptionBackend.get?_realmVlobs.mpr ⟨is, inside⟩
    refine saved (vlobId, index + 1) vlob.data[index] ?_
    rw [originalAt?_succ original, List.getElem?_eq_getElem]
  · intro vlobId vlob is inside
    exact carried vlobId vlob (ReencryptionBackend.get?_realmVlobs.mpr ⟨is, inside⟩)
  · intro vlobId new is inside
    obtain ⟨vlob, original⟩ := nothingNew vlobId new is inside
    exact ⟨vlob, ReencryptionBackend.get?_realmVlobs.mp original⟩

section Example

/-- A blob shows its key and what was drawn. -/
private def transparent : Cipher String (SecretKey × ℕ × String) where
  encrypt key nonce plain := (key, nonce, plain)
  decrypt key blob := if blob.1 = key then some blob.2.2 else none

private def revisionKey : OrganizationID × UUID → ℕ → SecretKey := fun _ revision => ⟨revision⟩

private def ownedBy (granter user : String) (date : DateTime) : RealmGrantedRole where
  certificate := ⟨⟨0⟩, some ⟨⟨granter, "dev"⟩, date, 1, user, some .owner⟩⟩
  realmId := 1
  userId := user
  role := some .owner
  grantedBy := ⟨granter, "dev"⟩
  grantedOn := date

private def allStandard : UserTable := fun _ _ => some ⟨.standard, none⟩

/-- Two owners, and a vlob with two versions. -/
private def twoOwners : List (ReencryptionEvent (SecretKey × ℕ × String)) :=
  [.realmCreate "org" (ownedBy "alice" "alice" 1),
    .updateRoles allStandard "org" (ownedBy "alice" "bob" 2),
    .vlobCreate "org" ⟨"alice", "dev"⟩ 1 1 7 3 (⟨1⟩, 0, "first"),
    .vlobUpdate "org" ⟨"bob", "dev"⟩ 1 7 2 4 (⟨1⟩, 0, "second")]

/-- Alice fetches one version and bob both of them, twice; his second batch is abandoned. -/
private def overlappingBatches : List (ReencryptionEvent (SecretKey × ℕ × String)) :=
  [.getBatch 0 "org" ⟨"alice", "dev"⟩ 1 2 1, .getBatch 1 "org" ⟨"bob", "dev"⟩ 1 2 5,
    .getBatch 2 "org" ⟨"bob", "dev"⟩ 1 2 5, .saveBatch 0 fun _ _ => 10, .abandon 2,
    .saveBatch 1 fun _ _ => 20]

theorem reencryption_keeps_versions_overlapping :
    ∃ (before after : ReencryptionSystem (SecretKey × ℕ × String))
      (started finished : ReencryptionBackend (SecretKey × ℕ × String))
      (vlob new : Vlob (SecretKey × ℕ × String)),
      run? (ReencryptionSystem.step? transparent revisionKey) { backend := {} } twoOwners = some before ∧
      before.backend.startReencryptionMaintenance allStandard "org" ⟨"alice", "dev"⟩ 1 2 ["alice", "bob"] 5
        5 = (started, .ok ()) ∧
      run? (ReencryptionSystem.step? transparent revisionKey) { before with backend := started }
        overlappingBatches = some after ∧
      after.backend.finishReencryptionMaintenance "org" ⟨"bob", "dev"⟩ 1 2 = .ok finished ∧
      before.backend.vlobs.vlobs.get? ("org", 7) = some vlob ∧
      finished.vlobs.vlobs.get? ("org", 7) = some new ∧
      List.Forall₂ (Carried transparent ⟨1⟩ ⟨2⟩) vlob.data new.data := by
  have correct (key : SecretKey) (nonce : ℕ) (plain : String) :
      transparent.decrypt key (transparent.encrypt key nonce plain) = some plain := if_pos rfl
  obtain ⟨-, carried, -⟩ := reencryption_keeps_versions correct rfl (fun _ => rfl)
    (by rfl : run? (ReencryptionSystem.step? transparent revisionKey) { backend := {} } twoOwners = some _)
    (by rfl : ReencryptionBackend.startReencryptionMaintenance _ allStandard "org" ⟨"alice", "dev"⟩ 1 2
      ["alice", "bob"] 5 5 = (_, .ok ()))
    (by rfl : run? _ _ overlappingBatches = some _)
    (by rfl : ReencryptionBackend.finishReencryptionMaintenance _ "org" ⟨"bob", "dev"⟩ 1 2 = .ok _)
  obtain ⟨new, is, -, same⟩ := carried 7 _ rfl rfl
  exact ⟨_, _, _, _, _, new, rfl, rfl, rfl, rfl, rfl, is, same⟩

end Example

end Guardata
