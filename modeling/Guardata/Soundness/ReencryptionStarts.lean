import Guardata.Proofs.RoleReplay
import Guardata.Soundness.CachedCertificates
import Guardata.Soundness.RoleAgreement

/-! # The loop that starts a re-encryption

In the first round the client asks for whatever it does not know. From then on it asks for nothing, and counts
the same users as participants in every round: those with a role whose revocation it has not seen. The backend
counts those whose revocation has not taken effect. As long as a user has been revoked since it was cached, or
is revoked at a date to come that the client has seen, the two differ, and the loop goes on.
-/

namespace Guardata

open Machine

/-- The certificates of the grants say what the backend has recorded. -/
def Realm.Genuine (realm : Realm) : Prop :=
  ∀ grant ∈ realm.grantedRoles, grant.certificate.payload = some grant.content

/-- The devices that signed the role certificates, in the order in which these are verified. -/
def Realm.authors (realm : Realm) : List CertificateId :=
  (realm.grantedRoles.sortedBy (·.grantedOn)).map (.device ·.grantedBy)

/-- All that is looked up in a round. -/
def Realm.lookedUp (realm : Realm) : List CertificateId := realm.authors ++ realm.roles.keys.map .user

/-- What is looked up in a round until a user has been. -/
def Realm.lookedUpTo (realm : Realm) (userId : UserID) : List CertificateId :=
  realm.authors ++ (realm.roles.keys.takeWhile (· ≠ userId) ++ [userId]).map .user

namespace RemoteDevicesManager

variable {manager next : RemoteDevicesManager} {store : OrganizationStore} {root : VerifyKey}
  {dates : Set DateTime} {now : DateTime} {redacted : Bool} {roles found : Dict UserID RealmRole}

/-- A manager that knows some items answers from its caches. -/
structure Warm (manager : RemoteDevicesManager) (store : OrganizationStore) (dates : Set DateTime)
    (items : List CertificateId) : Prop where
  reliable : manager.Reliable store dates
  here : ∀ item ∈ items, item ∈ manager.known

theorem LooksUp.warm {items : List CertificateId} (done : manager.LooksUp next store redacted dates items) :
    next.Warm store dates items := ⟨done.reliable, done.here⟩

theorem Warm.mono {items fewer : List CertificateId} (warm : manager.Warm store dates items)
    (subset : fewer ⊆ items) : manager.Warm store dates fewer :=
  ⟨warm.reliable, fun item member => warm.here item (subset member)⟩

section Roles

/-- The certificate verifies with the device of its author, who could sign it. -/
def AuthorAllows (store : OrganizationStore) (roles : Dict UserID RealmRole)
    (unsecure : RealmRoleCertificateContent × Signed RealmRoleCertificateContent) : Prop :=
  ∃ author, store.truths.device unsecure.1.author author ∧
    (∃ data, RealmRoleCertificateContent.verifyAndLoad unsecure.2 author.verifyKey author.deviceId =
      .ok data) ∧
    roles.get? unsecure.1.author.userId ∈ rolesNeededToSign roles author.deviceId unsecure.1

variable {unsecure : RealmRoleCertificateContent × Signed RealmRoleCertificateContent}
  (sound : store.Sound root)
include sound

theorem verifyRoleCertificate_spec (reliable : manager.Reliable store dates) (present : now ∈ dates)
    (done : verifyRoleCertificate (store.userGet redacted) now (roles, manager) unsecure =
      .ok (found, next)) :
    manager.LooksUp next store redacted dates [.device unsecure.1.author] ∧
      found = applyCertificate roles unsecure.1 ∧ AuthorAllows store roles unsecure := by
  simp only [verifyRoleCertificate, Except.bind_eq_ok_iff, Except.mapError_eq_ok_iff,
    Except.require_eq_ok_iff, exists_const, Except.pure_eq_ok_iff, Prod.mk.injEq] at done
  obtain ⟨⟨author, _⟩, fetched, data, verified, entitled, rfl, rfl⟩ := done
  obtain ⟨looked, true_⟩ := getDevice_spec sound reliable present fetched
  exact ⟨looked, rfl, author, true_, ⟨data, verified⟩, entitled⟩

/-- With the author known, the certificate verifies again, and the caches stay as they are. -/
theorem verifyRoleCertificate_of_warm (userGet : UserGet)
    (warm : manager.Warm store dates [.device unsecure.1.author]) (present : now ∈ dates)
    (allows : AuthorAllows store roles unsecure) :
    verifyRoleCertificate userGet now (roles, manager) unsecure =
      .ok (applyCertificate roles unsecure.1, manager) := by
  obtain ⟨device, found, true_⟩ :=
    getDevice_of_mem warm.reliable present userGet (warm.here _ (List.mem_singleton_self _))
  obtain ⟨author, same, ⟨data, verified⟩, entitled⟩ := allows
  obtain rfl := sound.truthful.device.unique _ _ _ true_ same
  simp only [verifyRoleCertificate, found, Except.mapError_ok, Except.ok_bind, verified]
  rw [Except.require_bind entitled]
  rfl

theorem foldlM_verifyRoleCertificate_spec
    {certifs : List (RealmRoleCertificateContent × Signed RealmRoleCertificateContent)}
    (reliable : manager.Reliable store dates) (present : now ∈ dates)
    (done : certifs.foldlM (verifyRoleCertificate (store.userGet redacted) now) (roles, manager) =
      .ok (found, next)) :
    manager.LooksUp next store redacted dates (certifs.map (.device ·.1.author)) ∧
      found = (certifs.map Prod.fst).foldl applyCertificate roles ∧
      ∀ userGet warm date, Warm warm store dates (certifs.map (.device ·.1.author)) → date ∈ dates →
        certifs.foldlM (verifyRoleCertificate userGet date) (roles, warm) = .ok (found, warm) := by
  induction certifs generalizing roles manager with
  | nil =>
    cases done
    exact ⟨.nil reliable, rfl, fun _ _ _ _ _ => rfl⟩
  | cons certif rest ih =>
    rw [List.foldlM_cons, Except.bind_eq_ok_iff] at done
    obtain ⟨⟨middleRoles, middle⟩, first, others⟩ := done
    obtain ⟨looked, rfl, allows⟩ := verifyRoleCertificate_spec sound reliable present first
    obtain ⟨lookedRest, rfl, repeats⟩ := ih looked.reliable others
    refine ⟨looked.append lookedRest, rfl, fun userGet warm date knows within => ?_⟩
    rw [List.foldlM_cons, verifyRoleCertificate_of_warm sound userGet (knows.mono (by simp)) within allows,
      Except.ok_bind]
    exact repeats userGet warm date (knows.mono (List.subset_cons_self ..)) within

end Roles

section Participants

variable (sound : store.Sound root)
include sound

theorem retrieveUsers_spec {userIds : List UserID} {users : List UserCertificateContent}
    (reliable : manager.Reliable store dates) (present : now ∈ dates)
    (done : retrieveUsers (store.userGet redacted) now manager userIds = .ok (users, next)) :
    manager.LooksUp next store redacted dates (userIds.map .user) ∧
      ∀ userId, userId ∈ users.map (·.userId) ↔ userId ∈ userIds ∧
        .revocation userId ∉ lookUps (store.userGet redacted).brings manager.known
          ((userIds.takeWhile (· ≠ userId) ++ [userId]).map .user) := by
  induction userIds generalizing manager users with
  | nil =>
    cases done
    exact ⟨.nil reliable, by simp⟩
  | cons first rest ih =>
    simp only [retrieveUsers, Except.bind_eq_ok_iff, Except.mapError_eq_ok_iff, Except.pure_eq_ok_iff,
      Prod.mk.injEq] at done
    obtain ⟨⟨⟨user, revokedUser⟩, middle⟩, fetched, ⟨others, _⟩, retrieved, rfl, rfl⟩ := done
    obtain ⟨looked, rfl, revoked⟩ := getUser_spec sound reliable present fetched
    obtain ⟨lookedRest, members⟩ := ih looked.reliable retrieved
    refine ⟨looked.append lookedRest, fun userId => ?_⟩
    have counted : userId ∈ (if revokedUser.isNone = true then user :: others else others).map (·.userId) ↔
        (userId = user.userId ∧ .revocation user.userId ∉ middle.known) ∨ userId ∈ others.map (·.userId) := by
      rw [← revoked]
      cases revokedUser <;> simp
    rw [counted, members, List.mem_cons]
    by_cases same : userId = user.userId
    · subst same
      have nobody : (user.userId :: rest).takeWhile (· ≠ user.userId) = [] := by simp
      rw [nobody, List.nil_append, List.map_singleton, ← looked.known]
      constructor
      · rintro (⟨-, unseen⟩ | ⟨-, unseen⟩)
        · exact ⟨.inl rfl, unseen⟩
        · exact ⟨.inl rfl, fun seen => unseen (subset_lookUps _ seen)⟩
      · exact fun both => .inl ⟨rfl, both.2⟩
    · have behind : (user.userId :: rest).takeWhile (· ≠ userId) =
          user.userId :: rest.takeWhile (· ≠ userId) :=
        List.takeWhile_cons_of_pos (by simpa using Ne.symm same)
      rw [behind, List.cons_append, List.map_cons, lookUps_cons, looked.known]
      simp [same]

omit sound in
theorem retrieveUsers_of_warm (userGet : UserGet) {userIds : List UserID}
    (warm : manager.Warm store dates (userIds.map .user)) (present : now ∈ dates) :
    ∃ users, retrieveUsers userGet now manager userIds = .ok (users, manager) := by
  induction userIds with
  | nil => exact ⟨[], rfl⟩
  | cons first rest ih =>
    obtain ⟨user, revokedUser, found⟩ :=
      getUser_of_mem warm.reliable present userGet (warm.here (.user first) (by simp))
    obtain ⟨users, retrieved⟩ := ih (warm.mono (List.subset_cons_self ..))
    rw [retrieveUsers, found, Except.mapError_ok, Except.ok_bind]
    dsimp only
    rw [retrieved]
    exact ⟨_, rfl⟩

variable {realm : Realm} {users : List UserCertificateContent}

theorem loadRealmCurrentRoles_spec (genuine : realm.Genuine) (reliable : manager.Reliable store dates)
    (present : now ∈ dates) (done : manager.loadRealmCurrentRoles (store.userGet redacted)
      (.ok (realm.grantedRoles.map (·.certificate))) now = .ok (found, next)) :
    manager.LooksUp next store redacted dates realm.authors ∧ found = realm.roles ∧
      ∀ userGet warm date, Warm warm store dates realm.authors → date ∈ dates →
        warm.loadRealmCurrentRoles userGet (.ok (realm.grantedRoles.map (·.certificate))) date =
          .ok (realm.roles, warm) := by
  simp only [loadRealmCurrentRoles, Except.mapError_ok, Except.ok_bind, mapM_unsecureLoad _ _ genuine,
    sortedBy_certificates] at done ⊢
  obtain ⟨looked, rfl, repeats⟩ := foldlM_verifyRoleCertificate_spec sound reliable present done
  have authors : ((realm.grantedRoles.sortedBy (·.grantedOn)).map fun grant =>
      (grant.content, grant.certificate)).map (fun certif => CertificateId.device certif.1.author) =
        realm.authors := by
    rw [List.map_map]
    rfl
  have same : (((realm.grantedRoles.sortedBy (·.grantedOn)).map fun grant =>
      (grant.content, grant.certificate)).map Prod.fst).foldl applyCertificate ∅ = realm.roles := by
    rw [List.map_map]
    exact foldl_applyCertificate _ _
  rw [authors, same] at repeats
  rw [authors] at looked
  exact ⟨looked, same, repeats⟩

/-- In a round, the users counted are those with a role whose revocation is not known when they are looked
up. -/
theorem retrieveParticipants_spec (genuine : realm.Genuine) (reliable : manager.Reliable store dates)
    (present : now ∈ dates) (done : manager.retrieveParticipants (store.userGet redacted)
      (.ok (realm.grantedRoles.map (·.certificate))) now = .ok (users, next)) :
    manager.LooksUp next store redacted dates realm.lookedUp ∧
      ∀ userId, userId ∈ users.map (·.userId) ↔ userId ∈ realm.roles.keys ∧
        .revocation userId ∉ lookUps (store.userGet redacted).brings manager.known
          (realm.lookedUpTo userId) := by
  simp only [retrieveParticipants, Except.bind_eq_ok_iff] at done
  obtain ⟨⟨_, middle⟩, loaded, retrieved⟩ := done
  obtain ⟨looked, rfl, -⟩ := loadRealmCurrentRoles_spec sound genuine reliable present loaded
  obtain ⟨lookedUsers, members⟩ := retrieveUsers_spec sound looked.reliable present retrieved
  refine ⟨looked.append lookedUsers, fun userId => ?_⟩
  rw [members, Realm.lookedUpTo, lookUps_append, looked.known]

/-- Once a round has retrieved the participants, others do so from the caches. -/
theorem retrieveParticipants_again (genuine : realm.Genuine) (reliable : manager.Reliable store dates)
    (present : now ∈ dates) (done : manager.retrieveParticipants (store.userGet redacted)
      (.ok (realm.grantedRoles.map (·.certificate))) now = .ok (users, next)) {warm : RemoteDevicesManager}
    (knows : warm.Warm store dates realm.lookedUp) {date : DateTime} (within : date ∈ dates) :
    ∃ again, warm.retrieveParticipants (store.userGet redacted)
      (.ok (realm.grantedRoles.map (·.certificate))) date = .ok (again, warm) := by
  simp only [retrieveParticipants, Except.bind_eq_ok_iff] at done
  obtain ⟨⟨_, middle⟩, loaded, -⟩ := done
  obtain ⟨-, -, repeats⟩ := loadRealmCurrentRoles_spec sound genuine reliable present loaded
  rw [retrieveParticipants, repeats _ warm date (knows.mono (List.subset_append_left ..)) within,
    Except.ok_bind]
  exact retrieveUsers_of_warm _ (knows.mono (List.subset_append_right ..)) within

end Participants

end RemoteDevicesManager

namespace MemoryBackend

variable {backend : MemoryBackend} {call : StartCall} {realm : Realm} {manager next : RemoteDevicesManager}

/-- The users and devices of the organization of a call. -/
def store (backend : MemoryBackend) (call : StartCall) : OrganizationStore :=
  backend.users.user.store call.ctx.organizationId

/-- What a look-up brings to the caller. -/
def brings (backend : MemoryBackend) (call : StartCall) : CertificateId → Set CertificateId :=
  ((backend.store call).userGet (call.ctx.profile = .outsider)).brings

/-- The caller owns the realm, which is not in maintenance and at the encryption revision of the caller. -/
structure CanStart (backend : MemoryBackend) (call : StartCall) (realm : Realm) : Prop where
  found : backend.realms.getRealm call.ctx.organizationId call.workspaceId = .ok realm
  owner : realm.roles.get? call.ctx.deviceId.userId = some .owner
  idle : realm.status.inMaintenance = false
  revision : realm.status.encryptionRevision = call.encryptionRevision

/-- The revocation of a user has taken effect. -/
def RevokedAt (backend : MemoryBackend) (call : StartCall) (now : DateTime) (userId : UserID) : Prop :=
  ∃ user, (backend.store call).users.get? userId = some user ∧ user.isRevoked now = true

/-- The participants that the backend computes at a date. -/
def Expects (backend : MemoryBackend) (call : StartCall) (realm : Realm) (now : DateTime)
    (participants : List UserID) : Prop :=
  ∃ expected, MemoryRealmComponent.notRevokedRoles backend.users.user.userTable call.ctx.organizationId now
    realm.roles.keys = .ok expected ∧ ∀ userId, userId ∈ participants ↔ userId ∈ expected

theorem retrieveParticipants_eq (can : backend.CanStart call realm) (now : DateTime) :
    backend.retrieveParticipants call manager now =
      manager.retrieveParticipants ((backend.store call).userGet (call.ctx.profile = .outsider))
        (.ok (realm.grantedRoles.map (·.certificate))) now := by
  have served : backend.realms.apiRealmGetRoleCertificates call.ctx call.workspaceId none =
      .ok (realm.grantedRoles.map (·.certificate)) :=
    apiRealmGetRoleCertificates_eq_ok_iff.mpr
      ⟨realm, can.found, Dict.contains_eq_true_iff.mpr ⟨_, can.owner⟩, rfl⟩
  rw [retrieveParticipants, served]
  rfl

section Request

variable {now : DateTime}

theorem userTable_eq {userId : UserID} {user : UserRecord}
    (isUser : (backend.store call).users.get? userId = some user) :
    backend.users.user.userTable call.ctx.organizationId userId = some user.toUser := by
  change ((backend.store call).users.get? userId).map (·.toUser) = _
  rw [isUser]
  rfl

theorem isActive_iff {userId : UserID}
    (known : ∃ user, (backend.store call).users.get? userId = some user) :
    isActive backend.users.user.userTable call.ctx.organizationId now userId = true ↔
      ¬ backend.RevokedAt call now userId := by
  obtain ⟨user, isUser⟩ := known
  rw [isActive, userTable_eq isUser, Option.any_some, RevokedAt]
  simp only [isUser, Option.some.injEq, exists_eq_left', UserRecord.isRevoked]
  cases user.revokedOn <;> simp

/-- The backend knows its participants, and decides about the recipients of a start. -/
theorem start_spec (can : backend.CanStart call realm)
    (known : ∀ userId ∈ realm.roles.keys, ∃ user, (backend.store call).users.get? userId = some user)
    (recipients : List UserID) (ballpark : timestampsInTheBallpark call.timestamp now = true) :
    ∃ realms status, backend.realms.apiRealmStartReencryptionMaintenance backend.users.user.userTable call.ctx
        call.workspaceId (call.encryptionRevision + 1) recipients call.timestamp now =
        (realms, .answered status) ∧
      (backend.Expects call realm now recipients ↔
        ∀ userId, userId ∈ recipients ↔ userId ∈ realm.roles.keys ∧ ¬ backend.RevokedAt call now userId) ∧
      ((status = .ok ∧ backend.Expects call realm now recipients) ∨
        status = .participantsMismatch ∧ ¬ backend.Expects call realm now recipients) := by
  have registered (userId : UserID) (member : userId ∈ realm.roles.keys) :
      (backend.users.user.userTable call.ctx.organizationId userId).isSome = true := by
    obtain ⟨user, isUser⟩ := known userId member
    rw [userTable_eq isUser, Option.isSome_some]
  obtain ⟨expected, computed, members⟩ := MemoryRealmComponent.exists_notRevokedRoles now registered
  have active (userId : UserID) :
      userId ∈ expected ↔ userId ∈ realm.roles.keys ∧ ¬ backend.RevokedAt call now userId := by
    rw [members]
    exact and_congr_right fun member => isActive_iff (known userId member)
  have expects : backend.Expects call realm now recipients ↔
      ∀ userId, userId ∈ recipients ↔ userId ∈ expected := by
    constructor
    · rintro ⟨other, is, same⟩
      cases computed.symm.trans is
      exact same
    · exact fun same => ⟨expected, computed, same⟩
  have subsets : (∀ userId, userId ∈ recipients ↔ userId ∈ expected) ↔
      recipients ⊆ expected ∧ expected ⊆ recipients :=
    ⟨fun same => ⟨fun userId => (same userId).mp, fun userId => (same userId).mpr⟩,
      fun both userId => ⟨@both.1 userId, @both.2 userId⟩⟩
  have idle : ¬ realm.status.inMaintenance = true := by simp [can.idle]
  have revision : call.encryptionRevision + 1 = realm.status.encryptionRevision + 1 := by rw [can.revision]
  rw [MemoryRealmComponent.apiRealmStartReencryptionMaintenance, if_pos ballpark,
    MemoryRealmComponent.startReencryptionMaintenance, can.found, Except.ok_bind,
    Except.require_bind can.owner, Except.require_bind idle, Except.require_bind revision, computed,
    Except.ok_bind]
  refine ⟨_, _, rfl, ?_, ?_⟩
  · rw [expects]
    exact forall_congr' fun userId => by rw [active]
  · rw [expects, subsets]
    by_cases same : recipients ⊆ expected ∧ expected ⊆ recipients
    · rw [Except.require_bind same]
      exact .inl ⟨rfl, same⟩
    · rw [MaintenanceStatus.ofReply_require, if_neg same]
      exact .inr ⟨rfl, same⟩

end Request

section Rounds

variable {clock : ℕ → RoundDates} {dates : Set DateTime} {root : VerifyKey}

/-- The loop has ended, by a look-up that failed or with the participants that the backend computes. -/
def EndsWith (backend : MemoryBackend) (call : StartCall) (realm : Realm) (now : DateTime) :
    StartProgress → Prop
  | .raised (.lookUp _) => True
  | .started participants _ => backend.Expects call realm now (participants.map (·.userId))
  | _ => False

/-- The loop gets to a round and ends in it. -/
def EndsIn (backend : MemoryBackend) (call : StartCall) (realm : Realm) (clock : ℕ → RoundDates)
    (manager : RemoteDevicesManager) (round : ℕ) : Prop :=
  ∃ kept, backend.startRounds call clock manager round = .retrying kept ∧
    backend.EndsWith call realm (clock round).backend (backend.startRound call (clock round) kept)

/-- The caller has seen that a user is revoked when it counts the participants in a round: by its caches, or by
what came with the look-ups up to there. In the first round, the users behind are not looked up yet. -/
def SeesRevoked (backend : MemoryBackend) (call : StartCall) (realm : Realm)
    (manager : RemoteDevicesManager) (userId : UserID) : ℕ → Prop
  | 0 => .revocation userId ∈ lookUps (backend.brings call) manager.known (realm.lookedUpTo userId)
  | _ + 1 => .revocation userId ∈ lookUps (backend.brings call) manager.known realm.lookedUp

/-- In a round, the caller has seen that a user with a role is revoked exactly if the revocation has taken
effect. -/
def SeesAll (backend : MemoryBackend) (call : StartCall) (realm : Realm) (clock : ℕ → RoundDates)
    (manager : RemoteDevicesManager) (round : ℕ) : Prop :=
  ∀ userId ∈ realm.roles.keys, backend.SeesRevoked call realm manager userId round ↔
    backend.RevokedAt call (clock round).backend userId

/-- The date of the call is acceptable to the backend in a round. -/
def InBallpark (call : StartCall) (clock : ℕ → RoundDates) (round : ℕ) : Prop :=
  timestampsInTheBallpark call.timestamp (clock round).backend = true

/-- The manager in a round of the loop, given the one after the first round. -/
def managerIn (manager warm : RemoteDevicesManager) : ℕ → RemoteDevicesManager
  | 0 => manager
  | _ + 1 => warm

theorem startRound_eq {round : RoundDates} {users : List UserCertificateContent}
    {reply : MemoryRealmComponent × StartStatus}
    (retrieved : backend.retrieveParticipants call manager round.client = .ok (users, next))
    (replied : backend.realms.apiRealmStartReencryptionMaintenance backend.users.user.userTable call.ctx
      call.workspaceId (call.encryptionRevision + 1) (users.map (·.userId)) call.timestamp round.backend =
        reply) : backend.startRound call round manager = .ofReply users next reply := by
  unfold startRound
  split
  · next err failed => cases retrieved.symm.trans failed
  · next participants kept same =>
    cases retrieved.symm.trans same
    rw [replied]

/-- How a round goes in which the participants are retrieved. -/
theorem startRound_spec (can : backend.CanStart call realm) {round : ℕ}
    {users : List UserCertificateContent}
    (retrieved : backend.retrieveParticipants call manager (clock round).client = .ok (users, next))
    (known : ∀ userId ∈ realm.roles.keys, ∃ user, (backend.store call).users.get? userId = some user)
    {sees : UserID → Prop}
    (members : ∀ userId, userId ∈ users.map (·.userId) ↔ userId ∈ realm.roles.keys ∧ ¬ sees userId) :
    (InBallpark call clock round ∧ ((∀ userId ∈ realm.roles.keys, sees userId ↔
        backend.RevokedAt call (clock round).backend userId) ∧
      backend.EndsWith call realm (clock round).backend (backend.startRound call (clock round) manager))) ∨
    (InBallpark call clock round ∧ (¬ (∀ userId ∈ realm.roles.keys, sees userId ↔
        backend.RevokedAt call (clock round).backend userId) ∧
      backend.startRound call (clock round) manager = .retrying next)) ∨
    (¬ InBallpark call clock round ∧
      backend.startRound call (clock round) manager = .raised (.cannotStartMaintenance .badTimestamp)) := by
  by_cases ballpark : InBallpark call clock round
  · obtain ⟨realms, status, replied, expects, decided⟩ :=
      start_spec can known (users.map (·.userId)) ballpark
    have agree : backend.Expects call realm (clock round).backend (users.map (·.userId)) ↔
        ∀ userId ∈ realm.roles.keys, sees userId ↔ backend.RevokedAt call (clock round).backend userId := by
      rw [expects]
      refine forall_congr' fun userId => ?_
      rw [members, and_congr_right_iff]
      exact imp_congr_right fun _ => not_iff_not
    rcases decided with ⟨rfl, accepted⟩ | ⟨rfl, refused⟩
    · refine .inl ⟨ballpark, agree.mp accepted, ?_⟩
      rw [startRound_eq retrieved replied]
      exact accepted
    · exact .inr (.inl ⟨ballpark, fun same => refused (agree.mpr same), startRound_eq retrieved replied⟩)
  · have replied : backend.realms.apiRealmStartReencryptionMaintenance backend.users.user.userTable call.ctx
        call.workspaceId (call.encryptionRevision + 1) (users.map (·.userId)) call.timestamp
        (clock round).backend = (backend.realms, .badTimestamp) := if_neg ballpark
    exact .inr (.inr ⟨ballpark, startRound_eq retrieved replied⟩)

theorem startRounds_succ_eq_retrying_iff {round : ℕ} {kept : RemoteDevicesManager} :
    backend.startRounds call clock manager (round + 1) = .retrying kept ↔
      ∃ before, backend.startRounds call clock manager round = .retrying before ∧
        backend.startRound call (clock round) before = .retrying kept := by
  rw [startRounds]
  cases backend.startRounds call clock manager round <;> simp

section Warm

variable {warm : RemoteDevicesManager} {users : List UserCertificateContent} {rounds : ℕ}
  (can : backend.CanStart call realm) (genuine : realm.Genuine) (sound : (backend.store call).Sound root)
  (reliable : manager.Reliable (backend.store call) {date | ∃ round < rounds, date = (clock round).client})
  (first : backend.retrieveParticipants call manager (clock 0).client = .ok (users, warm))
include can genuine sound reliable first

/-- After a first round that has retrieved its participants, all others retrieve theirs from the caches. -/
theorem retrieves {round : ℕ} (soon : round < rounds) :
    ∃ participants, backend.retrieveParticipants call (managerIn manager warm round) (clock round).client =
        .ok (participants, warm) ∧
      ∀ userId, userId ∈ participants.map (·.userId) ↔
        userId ∈ realm.roles.keys ∧ ¬ backend.SeesRevoked call realm manager userId round := by
  have atFirst : (clock 0).client ∈ {date | ∃ round < rounds, date = (clock round).client} :=
    ⟨0, by omega, rfl⟩
  have now : (clock round).client ∈ {date | ∃ round < rounds, date = (clock round).client} :=
    ⟨round, soon, rfl⟩
  have fetched := first
  rw [retrieveParticipants_eq can] at fetched
  obtain ⟨looked, members⟩ := manager.retrieveParticipants_spec sound genuine reliable atFirst fetched
  cases round with
  | zero => exact ⟨users, first, members⟩
  | succ round =>
    obtain ⟨again, answered⟩ :=
      manager.retrieveParticipants_again sound genuine reliable atFirst fetched looked.warm now
    obtain ⟨-, membersAgain⟩ := warm.retrieveParticipants_spec sound genuine looked.reliable now answered
    refine ⟨again, (retrieveParticipants_eq can _).trans answered, fun userId => ?_⟩
    rw [membersAgain]
    refine and_congr_right fun member => not_congr ?_
    -- All that is looked up until this user is looked up in every round.
    have inside : ∀ item ∈ realm.lookedUpTo userId, item ∈ warm.known := by
      intro item listed
      refine looked.here item ?_
      simp only [Realm.lookedUpTo, Realm.lookedUp, List.mem_append, List.mem_map, List.mem_singleton]
        at listed ⊢
      rcases listed with author | ⟨other, early | rfl, rfl⟩
      · exact .inl author
      · exact .inr ⟨other, List.takeWhile_subset _ early, rfl⟩
      · exact .inr ⟨_, member, rfl⟩
    rw [lookUps_of_forall_mem inside, looked.known]
    exact Iff.rfl

/-- Whoever has a role was looked up, and is registered. -/
theorem registered (soon : 0 < rounds) (userId : UserID) (member : userId ∈ realm.roles.keys) :
    ∃ user, (backend.store call).users.get? userId = some user := by
  rw [retrieveParticipants_eq can] at first
  obtain ⟨looked, -⟩ := manager.retrieveParticipants_spec sound genuine reliable ⟨0, soon, rfl⟩ first
  have here : CertificateId.user userId ∈ warm.known :=
    looked.here _ (List.mem_append_right _ (List.mem_map.mpr ⟨userId, member, rfl⟩))
  obtain ⟨⟨cachedOn, content⟩, found⟩ := Dict.contains_eq_true_iff.mp here
  obtain ⟨user, isUser, -⟩ := looked.reliable.caches.user userId cachedOn content found
  exact ⟨user, isUser⟩

/-- How the loop gets through its rounds: in each of them the backend refused the participants. -/
theorem startRounds_eq_retrying_iff {round : ℕ} (within : round ≤ rounds) {kept : RemoteDevicesManager} :
    backend.startRounds call clock manager round = .retrying kept ↔ kept = managerIn manager warm round ∧
      ∀ earlier < round, InBallpark call clock earlier ∧
        ¬ backend.SeesAll call realm clock manager earlier := by
  induction round generalizing kept with
  | zero =>
    constructor
    · intro start
      cases start
      exact ⟨rfl, nofun⟩
    · rintro ⟨rfl, -⟩
      rfl
  | succ round ih =>
    obtain ⟨participants, retrieved, members⟩ := retrieves can genuine sound reliable first within
    have known := registered can genuine sound reliable first (by omega)
    have goes := startRound_spec can retrieved known members
    rw [startRounds_succ_eq_retrying_iff]
    constructor
    · rintro ⟨before, played, goesOn⟩
      obtain ⟨rfl, earlier⟩ := (ih (by omega)).mp played
      rcases goes with ⟨-, -, ends⟩ | ⟨ballpark, differs, again⟩ | ⟨-, raised⟩
      · rw [goesOn] at ends
        cases ends
      · cases goesOn.symm.trans again
        refine ⟨rfl, fun other before => ?_⟩
        rcases Nat.lt_succ_iff_lt_or_eq.mp before with old | rfl
        · exact earlier other old
        · exact ⟨ballpark, differs⟩
      · cases goesOn.symm.trans raised
    · rintro ⟨rfl, all⟩
      refine ⟨_, (ih (by omega)).mpr ⟨rfl, fun other before => all other (by omega)⟩, ?_⟩
      obtain ⟨ballpark, differs⟩ := all round (by omega)
      rcases goes with ⟨-, agrees, -⟩ | ⟨-, -, again⟩ | ⟨late, -⟩
      · exact absurd agrees differs
      · exact again
      · exact absurd ballpark late

/-- The loop ends in a round in which the caller sees what has taken effect, if it gets there. -/
theorem endsIn_iff {round : ℕ} (soon : round < rounds) :
    backend.EndsIn call realm clock manager round ↔
      (∀ earlier ≤ round, InBallpark call clock earlier) ∧
        backend.SeesAll call realm clock manager round ∧
        ∀ earlier < round, ¬ backend.SeesAll call realm clock manager earlier := by
  obtain ⟨participants, retrieved, members⟩ := retrieves can genuine sound reliable first soon
  have known := registered can genuine sound reliable first (by omega)
  have goes := startRound_spec can retrieved known members
  have gets {kept : RemoteDevicesManager} : backend.startRounds call clock manager round = .retrying kept ↔
      kept = managerIn manager warm round ∧ ∀ earlier < round, InBallpark call clock earlier ∧
        ¬ backend.SeesAll call realm clock manager earlier :=
    startRounds_eq_retrying_iff can genuine sound reliable first soon.le
  constructor
  · rintro ⟨kept, played, ends⟩
    obtain ⟨rfl, earlier⟩ := gets.mp played
    rcases goes with ⟨ballpark, agrees, -⟩ | ⟨-, -, again⟩ | ⟨-, raised⟩
    · refine ⟨fun other before => ?_, agrees, fun other before => (earlier other before).2⟩
      rcases Nat.lt_or_eq_of_le before with old | rfl
      · exact (earlier other old).1
      · exact ballpark
    · rw [again] at ends
      cases ends
    · rw [raised] at ends
      cases ends
  · rintro ⟨ballpark, agrees, differ⟩
    refine ⟨_, gets.mpr ⟨rfl, fun other before => ⟨ballpark other before.le, differ other before⟩⟩, ?_⟩
    rcases goes with ⟨-, -, ends⟩ | ⟨-, differs, -⟩ | ⟨late, -⟩
    · exact ends
    · exact absurd agrees differs
    · exact absurd (ballpark round le_rfl) late

end Warm

end Rounds

section Runs

/-- The users and their devices are well signed, and so are the grants of the realms. -/
structure Sound (backend : MemoryBackend) : Prop where
  users : backend.users.Sound
  realms : ∀ key realm, backend.realms.realms.get? key = some realm → realm.Genuine

theorem Sound.exists_root (sound : backend.Sound) (call : StartCall) :
    ∃ root, (backend.store call).Sound root := by
  by_cases known : ∃ root, backend.users.RootKey call.ctx.organizationId root
  · obtain ⟨root, isRoot⟩ := known
    exact ⟨root, sound.users.stores _ root isRoot⟩
  · exact ⟨⟨0⟩, (sound.users.vacant _ fun root isRoot => known ⟨root, isRoot⟩).sound⟩

theorem sound_init (start : DateTime) : Sound ⟨{ clock := start }, {}⟩ :=
  ⟨UserBackend.sound_init start, nofun⟩

theorem genuine_setRealm {component : MemoryRealmComponent} {organizationId : OrganizationID} {realmId : UUID}
    (genuine : ∀ key realm, component.realms.get? key = some realm → realm.Genuine) (new : realm.Genuine) :
    ∀ key other, (component.setRealm organizationId realmId realm).realms.get? key = some other →
      other.Genuine := by
  intro key other found
  rw [MemoryRealmComponent.get?_setRealm] at found
  split at found
  · cases found
    exact new
  · exact genuine key other found

/-- A step of the realm component keeps the grants genuine, if a new one is. -/
theorem genuine_of_step? {component next : MemoryRealmComponent} {request : RealmRequest}
    (step : component.step? request = some next)
    (genuine : ∀ key realm, component.realms.get? key = some realm → realm.Genuine)
    (new : ∀ grant, ((∃ organizationId, request = .create organizationId grant) ∨
      ∃ users organizationId, request = .updateRoles users organizationId grant) →
        grant.certificate.payload = some grant.content) :
    ∀ key realm, next.realms.get? key = some realm → realm.Genuine := by
  rcases MemoryRealmComponent.step?_cases step with ⟨organizationId, grant, is, created⟩ |
    ⟨users, organizationId, grant, is, updated⟩ | ⟨organizationId, realmId, realm, status, -, found, rfl⟩
  · obtain ⟨-, -, -, rfl⟩ := MemoryRealmComponent.create_eq_ok_iff.mp created
    refine genuine_setRealm genuine fun other member => ?_
    obtain rfl := List.mem_singleton.mp member
    exact new other (.inl ⟨organizationId, is⟩)
  · obtain ⟨-, -, realm, found, -, rfl⟩ := MemoryRealmComponent.updateRoles_eq_ok_iff.mp updated
    refine genuine_setRealm genuine fun other member => ?_
    rcases List.mem_append.mp member with old | last
    · exact genuine _ realm found other old
    · obtain rfl := List.mem_singleton.mp last
      exact new other (.inr ⟨users, organizationId, is⟩)
  · exact genuine_setRealm genuine (genuine _ realm found)

/-- An accepted realm request is a step of the realm component with a genuine grant, or changes nothing. -/
theorem serveRealm_spec {ctx : ClientContext} {now : DateTime} {request : MemoryRequest}
    {realms : MemoryRealmComponent} (served : backend.serveRealm ctx now request = some realms) :
    realms = backend.realms ∨ ∃ step, backend.realms.step? step = some realms ∧
      ∀ grant, ((∃ organizationId, step = .create organizationId grant) ∨
        ∃ users organizationId, step = .updateRoles users organizationId grant) →
          grant.certificate.payload = some grant.content := by
  cases request with
  | user request => cases served
  | realmCreate answer certificate =>
    simp only [serveRealm, Except.toOption_eq_some_iff, MemoryRealmComponent.apiRealmCreate,
      Except.bind_eq_ok_iff, Except.require_eq_ok_iff, exists_const, Except.mapError_eq_ok_iff,
      loadRoleCertificate_eq_ok_iff] at served
    obtain ⟨-, grant, ⟨signed, stored, -⟩, -, -, created⟩ := served
    refine .inr ⟨.create ctx.organizationId grant, Except.toOption_eq_some_iff.mpr created, ?_⟩
    rintro other (⟨_, ⟨⟩⟩ | ⟨_, _, ⟨⟩⟩)
    rw [stored, signed]
  | realmUpdateRoles answer certificate =>
    simp only [serveRealm, Except.toOption_eq_some_iff, MemoryRealmComponent.apiRealmUpdateRoles,
      Except.bind_eq_ok_iff, Except.require_eq_ok_iff, exists_const, Except.mapError_eq_ok_iff,
      loadRoleCertificate_eq_ok_iff] at served
    obtain ⟨grant, ⟨signed, stored, -⟩, -, updated⟩ := served
    refine .inr ⟨.updateRoles backend.users.user.userTable ctx.organizationId grant,
      Except.toOption_eq_some_iff.mpr updated, ?_⟩
    rintro other (⟨_, ⟨⟩⟩ | ⟨_, _, ⟨⟩⟩)
    rw [stored, signed]
  | realmStartReencryption answer realmId encryptionRevision recipients timestamp =>
    rw [serveRealm, Option.some_inj, MemoryRealmComponent.apiRealmStartReencryptionMaintenance] at served
    split at served
    · dsimp only at served
      cases started : backend.realms.startReencryptionMaintenance backend.users.user.userTable
          ctx.organizationId ctx.deviceId realmId encryptionRevision recipients timestamp now with
      | error err =>
        rw [started] at served
        exact .inl served.symm
      | ok next =>
        rw [started] at served
        obtain rfl : next = realms := served
        refine .inr ⟨.startReencryption backend.users.user.userTable ctx.organizationId ctx.deviceId realmId
          encryptionRevision recipients timestamp now, Except.toOption_eq_some_iff.mpr started, ?_⟩
        rintro other (⟨_, ⟨⟩⟩ | ⟨_, _, ⟨⟩⟩)
    · exact .inl served.symm
  | realmFinishReencryption answer realmId encryptionRevision isFinishedHook =>
    refine .inr ⟨.finishReencryption ctx.organizationId ctx.deviceId realmId encryptionRevision
      isFinishedHook, served, ?_⟩
    rintro other (⟨_, ⟨⟩⟩ | ⟨_, _, ⟨⟩⟩)

/-- A step is one of the users, or an accepted realm request of a connection. -/
theorem step?_cases {last : MemoryBackend} {event : DateTime × MemoryRequest}
    (step : backend.step? event = some last) :
    (∃ request users, backend.users.step? (event.1, request) = some users ∧
      last = { backend with users := users }) ∨
    ∃ ctx realms, backend.serveRealm ctx event.1 event.2 = some realms ∧
      last = ⟨{ backend.users with clock := event.1 }, realms⟩ := by
  have realm {answer : HandshakeAuthenticatedAnswer}
      (step : backend.stepRealm? answer event.1 event.2 = some last) :
      ∃ ctx realms, backend.serveRealm ctx event.1 event.2 = some realms ∧
        last = ⟨{ backend.users with clock := event.1 }, realms⟩ := by
    simp only [stepRealm?, Option.bind_eq_bind, Option.bind_eq_some_iff, Option.guard_eq_some',
      exists_const, Option.pure_def, Option.some.injEq] at step
    obtain ⟨-, ctx, -, realms, served, rfl⟩ := step
    exact ⟨ctx, realms, served, rfl⟩
  obtain ⟨now, request⟩ := event
  cases request with
  | user request =>
    obtain ⟨users, stepped, rfl⟩ := Option.map_eq_some_iff.mp step
    exact .inl ⟨request, users, stepped, rfl⟩
  | realmCreate | realmUpdateRoles | realmStartReencryption | realmFinishReencryption =>
    exact .inr (realm step)

theorem Sound.step {last : MemoryBackend} {event : DateTime × MemoryRequest} (sound : backend.Sound)
    (step : backend.step? event = some last) : last.Sound := by
  rcases step?_cases step with ⟨request, users, stepped, rfl⟩ | ⟨ctx, realms, served, rfl⟩
  · obtain ⟨after, -, accepted, rfl⟩ := UserBackend.step?_spec stepped
    have kept := accepted.sound sound.users
    exact ⟨⟨kept.named, kept.vacant, kept.stores⟩, sound.realms⟩
  · refine ⟨⟨sound.users.named, sound.users.vacant, sound.users.stores⟩, ?_⟩
    rcases serveRealm_spec served with rfl | ⟨realmStep, stepped, new⟩
    · exact sound.realms
    · exact genuine_of_step? stepped sound.realms new

theorem sound_of_run {start : DateTime} {events : List (DateTime × MemoryRequest)}
    (reached : run? step? ⟨{ clock := start }, {}⟩ events = some backend) : backend.Sound :=
  run?_preserves (fun _ _ _ step sound => sound.step step) reached (sound_init start)

/-- Whatever the backend accepts, what it has certified to the caller stays true. -/
theorem keeps_of_run {start : DateTime} {events later : List (DateTime × MemoryRequest)}
    {last : MemoryBackend} (reached : run? step? ⟨{ clock := start }, {}⟩ events = some backend)
    (goesOn : run? step? backend later = some last) (call : StartCall) :
    (backend.store call).Keeps (last.store call) := by
  have preserved (state : MemoryBackend) (event : DateTime × MemoryRequest) (next : MemoryBackend)
      (step : state.step? event = some next)
      (both : state.Sound ∧ (backend.store call).Keeps (state.store call)) :
      next.Sound ∧ (backend.store call).Keeps (next.store call) := by
    refine ⟨both.1.step step, both.2.trans ?_⟩
    rcases step?_cases step with ⟨request, users, stepped, rfl⟩ | ⟨ctx, realms, served, rfl⟩
    · obtain ⟨after, -, accepted, rfl⟩ := UserBackend.step?_spec stepped
      exact accepted.keeps both.1.users call.ctx.organizationId
    · exact .refl _
  exact (run?_preserves preserved goesOn ⟨sound_of_run reached, .refl _⟩).2

end Runs

end MemoryBackend

open MemoryBackend in
/-- A caller whose cached certificates are true and do not expire ends its loop exactly if a look-up of the
first round fails, or if in some round, as long as the date of the call is acceptable, it has seen of each user
with a role that it is revoked if and only if the revocation has taken effect. The participants that it has sent
are then those that the backend computes. -/
theorem start_reencryption_ends_iff {start : DateTime} {events : List (DateTime × MemoryRequest)}
    {backend : MemoryBackend} (reached : run? step? ⟨{ clock := start }, {}⟩ events = some backend)
    {call : StartCall} {realm : Realm} (can : backend.CanStart call realm) {manager : RemoteDevicesManager}
    {clock : ℕ → RoundDates} {rounds : ℕ}
    (reliable : manager.Reliable (backend.store call)
      {date | ∃ round < rounds, date = (clock round).client}) :
    (∃ round < rounds, backend.EndsIn call realm clock manager round) ↔
      (0 < rounds ∧ ∃ err, backend.retrieveParticipants call manager (clock 0).client = .error err) ∨
      ∃ round < rounds, (∀ earlier ≤ round, InBallpark call clock earlier) ∧
        backend.SeesAll call realm clock manager round := by
  have wellSigned := sound_of_run reached
  obtain ⟨root, sound⟩ := wellSigned.exists_root call
  have genuine : realm.Genuine :=
    wellSigned.realms _ realm (MemoryRealmComponent.getRealm_eq_ok_iff.mp can.found)
  cases retrieved : backend.retrieveParticipants call manager (clock 0).client with
  | error err =>
    constructor
    · rintro ⟨round, within, -⟩
      exact .inl ⟨by omega, err, rfl⟩
    · intro ends
      have some_ : 0 < rounds := by
        rcases ends with ⟨positive, -⟩ | ⟨round, within, -⟩ <;> omega
      refine ⟨0, some_, manager, rfl, ?_⟩
      rw [startRound, retrieved]
      trivial
  | ok found =>
    obtain ⟨users, warm⟩ := found
    have ends {round : ℕ} (within : round < rounds) :=
      endsIn_iff can genuine sound reliable retrieved within
    constructor
    · rintro ⟨round, within, done⟩
      obtain ⟨ballpark, sees, -⟩ := (ends within).mp done
      exact .inr ⟨round, within, ballpark, sees⟩
    · rintro (⟨-, err, failed⟩ | ⟨round, within, ballpark, sees⟩)
      · cases failed
      · classical
        -- The loop ends in the first such round.
        have exists_ : ∃ round, backend.SeesAll call realm clock manager round := ⟨round, sees⟩
        have least := Nat.find_min' exists_ sees
        refine ⟨Nat.find exists_, by omega, (ends (by omega)).mpr ⟨?_, Nat.find_spec exists_, ?_⟩⟩
        · exact fun earlier before => ballpark earlier (before.trans least)
        · exact fun earlier before => Nat.find_min exists_ before

section Example

open MemoryBackend

/-- Alice shares a workspace with Bob. Carol is an admin as well. -/
private def shared : List (DateTime × MemoryRequest) :=
  let alice := newcomer 0 none 0 "alice" "alice@example.com" .admin 1
  [(0, .user (.organizationCreate "org" "token" none)),
    (0, .user (.organizationBootstrap "org" ⟨"token", ⟨0⟩, alice.userCertificate, alice.deviceCertificate,
      none, none⟩)),
    (1, .user (.userCreate fromAlice (newcomer 1 (some alicesLaptop) 1 "bob" "bob@example.com" .standard 2))),
    (2, .user (.userCreate fromAlice (newcomer 1 (some alicesLaptop) 2 "carol" "carol@example.com" .admin 3))),
    (3, .realmCreate fromAlice ⟨⟨1⟩, some ⟨alicesLaptop, 3, 7, "alice", some .owner⟩⟩),
    (4, .realmUpdateRoles fromAlice ⟨⟨1⟩, some ⟨alicesLaptop, 4, 7, "bob", some .reader⟩⟩)]

private def carolsLaptop : DeviceID := ⟨"carol", "laptop"⟩

private def bobIsRevoked : List (DateTime × MemoryRequest) :=
  [(6, .user (.userRevoke { fromAlice with deviceId := carolsLaptop }
    ⟨⟨3⟩, some ⟨carolsLaptop, 6, "bob"⟩⟩))]

private def aliceStarts : StartCall := ⟨⟨"org", alicesLaptop, .admin, ⟨1⟩⟩, 7, 1, 8⟩

private def nothingCached : RemoteDevicesManager := ⟨{ rootVerifyKey := ⟨0⟩, cacheValidity := 3600 }⟩

private def atEight : ℕ → RoundDates := fun _ => ⟨8, 8⟩

private theorem nothingCached_reliable (store : OrganizationStore) :
    nothingCached.Reliable store {date | date = 5 ∨ date = 8} := by
  refine RemoteDevicesManager.reliable_of_empty store ?_
  rintro first (rfl | rfl) last (rfl | rfl) <;> decide

private theorem atEight_subset (rounds : ℕ) :
    {date | ∃ round < rounds, date = (atEight round).client} ⊆ {date : DateTime | date = 5 ∨ date = 8} := by
  rintro _ ⟨round, -, rfl⟩
  exact .inr rfl

private theorem firstRound_refused :
    ∃ before bob cached backend realm, run? step? ⟨{ clock := 0 }, {}⟩ shared = some before ∧
      nothingCached.getUser (before.users.user.apiUserGet aliceStarts.ctx) "bob" 5 = .ok (bob, cached) ∧
      run? step? before bobIsRevoked = some backend ∧ backend.CanStart aliceStarts realm ∧
      backend.startRound aliceStarts ⟨8, 8⟩ cached = .retrying cached :=
  ⟨_, _, _, _, _, rfl, rfl, rfl, ⟨rfl, rfl, rfl, rfl⟩, rfl⟩

/-- Alice has looked Bob up before Carol revokes him. From then on her loop counts him in every round, and the
backend never does. -/
theorem revoked_since_cached_never_ends :
    ∃ before bob cached backend realm, run? step? ⟨{ clock := 0 }, {}⟩ shared = some before ∧
      nothingCached.getUser (before.users.user.apiUserGet aliceStarts.ctx) "bob" 5 = .ok (bob, cached) ∧
      run? step? before bobIsRevoked = some backend ∧ backend.CanStart aliceStarts realm ∧
      (∀ rounds, cached.Reliable (backend.store aliceStarts)
        {date | ∃ round < rounds, date = (atEight round).client}) ∧
      (∀ rounds, backend.startRounds aliceStarts atEight cached rounds = .retrying cached) ∧
      ¬ ∃ round, backend.EndsIn aliceStarts realm atEight cached round := by
  obtain ⟨before, ⟨bob, revocation⟩, cached, backend, realm, reached, looked, goesOn, can, refused⟩ :=
    firstRound_refused
  have retries (rounds : ℕ) : backend.startRounds aliceStarts atEight cached rounds = .retrying cached := by
    induction rounds with
    | zero => rfl
    | succ rounds ih => exact startRounds_succ_eq_retrying_iff.mpr ⟨cached, ih, refused⟩
  refine ⟨before, (bob, revocation), cached, backend, realm, reached, looked, goesOn, can, fun rounds => ?_,
    retries, ?_⟩
  · obtain ⟨root, sound⟩ := (sound_of_run reached).exists_root aliceStarts
    have filled := (RemoteDevicesManager.getUser_spec sound (nothingCached_reliable _) (.inl rfl) looked).1
    exact (filled.reliable.later (keeps_of_run reached goesOn aliceStarts)).mono (atEight_subset rounds)
  · rintro ⟨round, kept, played, ends⟩
    cases (retries round).symm.trans played
    have again : backend.startRound aliceStarts (atEight round) cached = .retrying cached := refused
    rw [again] at ends
    exact ends

/-- With nothing cached, the first round asks for Bob, and the loop ends in it. -/
theorem start_reencryption_ends_iff_nothingCached :
    ∃ backend realm, run? step? ⟨{ clock := 0 }, {}⟩ (shared ++ bobIsRevoked) = some backend ∧
      backend.CanStart aliceStarts realm ∧ backend.EndsIn aliceStarts realm atEight nothingCached 0 ∧
      ((0 < 1 ∧ ∃ err, backend.retrieveParticipants aliceStarts nothingCached (atEight 0).client =
        .error err) ∨ ∃ round < 1, (∀ earlier ≤ round, InBallpark aliceStarts atEight earlier) ∧
          backend.SeesAll aliceStarts realm atEight nothingCached round) := by
  have can : ∃ backend realm, run? step? ⟨{ clock := 0 }, {}⟩ (shared ++ bobIsRevoked) = some backend ∧
      backend.CanStart aliceStarts realm ∧ ∃ users realms,
        backend.startRound aliceStarts ⟨8, 8⟩ nothingCached = .started users realms ∧
        MemoryRealmComponent.notRevokedRoles backend.users.user.userTable "org" 8 realm.roles.keys =
          .ok (users.map (·.userId)) :=
    ⟨_, _, rfl, ⟨rfl, rfl, rfl, rfl⟩, _, _, rfl, rfl⟩
  obtain ⟨backend, realm, reached, can, users, realms, started, expected⟩ := can
  have ends : backend.EndsIn aliceStarts realm atEight nothingCached 0 := by
    refine ⟨nothingCached, rfl, ?_⟩
    have progress : backend.startRound aliceStarts (atEight 0) nothingCached = .started users realms := started
    rw [progress]
    exact ⟨_, expected, fun _ => Iff.rfl⟩
  have reliable := (nothingCached_reliable (backend.store aliceStarts)).mono (atEight_subset 1)
  exact ⟨backend, realm, reached, can, ends,
    (start_reencryption_ends_iff reached can reliable).mp ⟨0, by decide, ends⟩⟩

end Example

end Guardata
