import Guardata.Model.StartReencryption
import Guardata.Proofs.CertificateCaches
import Guardata.Soundness.ServedTrustchains
import Guardata.ToMathlib.CachedLookUps

/-! # Looking up users and devices of the backend

What the caches of a client hold was served at some time. Users and devices never change, and a revocation is
never taken back, so a cached certificate stays true; but that a user was not revoked at the time is not cached,
and nothing asks again. A look-up that succeeds adds to the caches what its reply certifies, and nothing if it
is answered from them.
-/

namespace Guardata

/-- What a certificate certifies. -/
inductive CertificateId where
  | user (userId : UserID)
  | device (deviceId : DeviceID)
  | revocation (userId : UserID)
deriving DecidableEq, Repr

def TrustchainCertificates.about (certifs : TrustchainCertificates) : Set CertificateId := {id | match id with
  | .user userId => About (·.userId) certifs.users userId
  | .device deviceId => About (·.deviceId) certifs.devices deviceId
  | .revocation userId => About (·.userId) certifs.revokedUsers userId}

/-- What the caches have an entry for. -/
def TrustchainContext.known (context : TrustchainContext) : Set CertificateId := {id | match id with
  | .user userId => context.usersCache.contains userId = true
  | .device deviceId => context.devicesCache.contains deviceId = true
  | .revocation userId => context.revokedUsersCache.contains userId = true}

/-- All certificates of a reply. -/
def GetUserAndDevicesResult.certificates (rep : GetUserAndDevicesResult) : TrustchainCertificates where
  users := userPart rep.userCertificate :: rep.trustchain.users.map userPart
  revokedUsers := rep.revokedUserCertificate.toList ++ rep.trustchain.revokedUsers
  devices := rep.deviceCertificates.map devicePart ++ rep.trustchain.devices.map devicePart

/-- What asking for a user certifies. -/
def UserGet.replies (userGet : UserGet) (userId : UserID) : Set CertificateId :=
  {id | ∃ rep, userGet userId = .ok rep ∧ id ∈ rep.certificates.about}

/-- What is asked for, and certified, to look up something. -/
def UserGet.brings (userGet : UserGet) : CertificateId → Set CertificateId
  | .user userId => userGet.replies userId
  | .device deviceId => userGet.replies deviceId.userId
  | .revocation _ => ∅

theorem TrustchainContext.Loads.known_eq {context next : TrustchainContext} {truths : CertificateTruths}
    {dates : Set DateTime} {certifs : TrustchainCertificates} {verified : VerifiedTrustchain}
    (loads : context.Loads next truths dates certifs verified) :
    next.known = {id | id ∈ context.known ∨ id ∈ certifs.about} := by
  ext id
  cases id with
  | user userId => exact loads.users userId
  | device deviceId => exact loads.devices deviceId
  | revocation userId => exact loads.revokedUsers userId

namespace OrganizationStore

variable {store next : OrganizationStore} {root : VerifyKey}

/-- What the backend says of its users, devices and revocations. -/
def truths (store : OrganizationStore) : CertificateTruths where
  user userId content := ∃ user, store.users.get? userId = some user ∧ content = user.content
  device id content := ∃ device key verifyKey, store.device? id = some device ∧
    device.Certified key verifyKey ∧ content = device.content verifyKey
  revocation userId content := ∃ user key, store.users.get? userId = some user ∧
    user.revokedUserCertificate = some ⟨key, some content⟩

/-- The certificate of a revocation is about the user that is revoked. -/
theorem Sound.revokedBy (sound : store.Sound root) {userId : UserID} {user : UserRecord}
    (isUser : store.users.get? userId = some user) {certif : Signed RevokedUserCertificateContent}
    (revoked : user.revokedUserCertificate = some certif) :
    ∃ author date key, user.RevokedBy userId author date key ∧ certif = ⟨key, some ⟨author, date, userId⟩⟩ := by
  rcases sound.revocations userId user isUser with unrevoked | ⟨author, date, key, revokedBy, -, -⟩
  · cases unrevoked.certificate.symm.trans revoked
  · exact ⟨author, date, key, revokedBy, Option.some_inj.mp (revoked.symm.trans revokedBy.certificate)⟩

theorem Sound.truthful (sound : store.Sound root) : store.truths.Truthful := by
  refine ⟨⟨?_, ?_⟩, ⟨?_, ?_⟩, ⟨?_, ?_⟩⟩
  · rintro userId _ ⟨user, isUser, rfl⟩
    exact (sound.users userId user isUser).named
  · rintro userId _ _ ⟨user, isUser, rfl⟩ ⟨other, isOther, rfl⟩
    cases isUser.symm.trans isOther
    rfl
  · rintro id _ ⟨device, key, verifyKey, isDevice, -, rfl⟩
    exact (sound.devices id device isDevice).named
  · rintro id _ _ ⟨device, key, verifyKey, isDevice, certified, rfl⟩
      ⟨other, otherKey, otherVerifyKey, isOther, otherCertified, rfl⟩
    cases isDevice.symm.trans isOther
    rw [(certified.keys_eq otherCertified).2]
  · rintro userId content ⟨user, key, isUser, revoked⟩
    obtain ⟨author, date, signer, -, same⟩ := sound.revokedBy isUser revoked
    cases same
    rfl
  · rintro userId first second ⟨user, key, isUser, revoked⟩ ⟨other, otherKey, isOther, otherRevoked⟩
    cases isUser.symm.trans isOther
    cases revoked.symm.trans otherRevoked
    rfl

/-- A reply to `user_get` is served for a registered user. -/
theorem Sound.served_of_userGet (sound : store.Sound root) {redacted : Bool} {userId : UserID}
    {rep : GetUserAndDevicesResult} (given : store.getUserWithDevicesAndTrustchain userId redacted = .ok rep) :
    ∃ user ids, store.users.get? userId = some user ∧
      rep.revokedUserCertificate = user.revokedUserCertificate ∧
      store.Served redacted userId ids (rep.userCertificate :: rep.trustchain.users)
        (rep.revokedUserCertificate.toList ++ rep.trustchain.revokedUsers)
        (rep.deviceCertificates ++ rep.trustchain.devices) := by
  obtain ⟨user, isUser⟩ : ∃ user, store.users.get? userId = some user := by
    rw [getUserWithDevicesAndTrustchain, Except.bind_eq_ok_iff] at given
    obtain ⟨user, found, -⟩ := given
    exact ⟨user, getUser_eq_ok_iff.mp found⟩
  obtain ⟨trustchain, ids, done, serves⟩ := sound.getUserWithDevicesAndTrustchain_spec redacted isUser
  cases done.symm.trans given
  exact ⟨user, ids, isUser, rfl, serves _ _ _ (.refl _) (.refl _) (.refl _)⟩

theorem Sound.genuine_certificates (sound : store.Sound root) {redacted : Bool} {userId : UserID}
    {rep : GetUserAndDevicesResult} (given : store.getUserWithDevicesAndTrustchain userId redacted = .ok rep) :
    rep.certificates.Genuine store.truths := by
  obtain ⟨user, ids, -, -, served⟩ := sound.served_of_userGet given
  refine ⟨fun certif member => ?_, fun certif member => ?_, fun certif member => ?_⟩
  · obtain ⟨id, other, key, -, isOther, -, rfl⟩ := (served.mem_users_iff sound).mp member
    refine ⟨_, rfl, other, ?_, rfl⟩
    rw [← isOther]
    exact congrArg _ (sound.users id other isOther).named
  · have member : certif ∈ (rep.deviceCertificates ++ rep.trustchain.devices).map devicePart := by
      rwa [List.map_append]
    obtain ⟨id, device, key, verifyKey, -, isDevice, certified, rfl⟩ := (served.mem_devices_iff sound).mp member
    refine ⟨_, rfl, device, key, verifyKey, ?_, certified, rfl⟩
    rw [← isDevice]
    exact congrArg _ (sound.devices id device isDevice).named
  · obtain ⟨id, other, author, date, key, -, isOther, revoked, rfl⟩ :=
      (served.mem_revokedUsers_iff sound).mp member
    exact ⟨_, rfl, other, key, isOther, revoked.certificate⟩

/-- A reply certifies the revocation of its user exactly if it has one. -/
theorem Sound.revocation_mem_about_iff (sound : store.Sound root) {redacted : Bool} {userId : UserID}
    {rep : GetUserAndDevicesResult} (given : store.getUserWithDevicesAndTrustchain userId redacted = .ok rep) :
    .revocation userId ∈ rep.certificates.about ↔ rep.revokedUserCertificate.isSome = true := by
  obtain ⟨user, ids, isUser, same, served⟩ := sound.served_of_userGet given
  rw [same, Option.isSome_iff_exists]
  constructor
  · rintro ⟨certif, member, content, payload, named⟩
    obtain ⟨id, other, author, date, key, -, isOther, revoked, rfl⟩ :=
      (served.mem_revokedUsers_iff sound).mp member
    cases payload
    cases named
    cases isUser.symm.trans isOther
    exact ⟨_, revoked.certificate⟩
  · rintro ⟨certif, revoked⟩
    obtain ⟨author, date, key, -, rfl⟩ := sound.revokedBy isUser revoked
    refine ⟨⟨key, some ⟨author, date, userId⟩⟩, ?_, ⟨author, date, userId⟩, rfl, rfl⟩
    simp [GetUserAndDevicesResult.certificates, same, revoked]

/-- The replies to `user_get` in an organization. -/
def userGet (store : OrganizationStore) (redacted : Bool) : UserGet := fun userId =>
  store.getUserWithDevicesAndTrustchain userId redacted

end OrganizationStore

namespace RemoteDevicesManager

variable {manager next : RemoteDevicesManager} {store : OrganizationStore} {root : VerifyKey}
  {dates : Set DateTime} {now : DateTime} {redacted : Bool} {userId : UserID} {deviceId : DeviceID}

/-- All that is cached is true, nothing of it has expired at one of the dates, and nothing that is cached at one
of them has expired at another. -/
structure Reliable (manager : RemoteDevicesManager) (store : OrganizationStore) (dates : Set DateTime) :
    Prop where
  caches : manager.toTrustchainContext.Reliable store.truths dates
  soon : ∀ first ∈ dates, ∀ last ∈ dates, last - first < manager.cacheValidity * 1000000

theorem Reliable.mono {fewer : Set DateTime} (reliable : manager.Reliable store dates) (subset : fewer ⊆ dates) :
    manager.Reliable store fewer := by
  obtain ⟨⟨users, devices, revocations, userValid, deviceValid, revocationValid⟩, soon⟩ := reliable
  refine ⟨⟨users, devices, revocations, ?_, ?_, ?_⟩, ?_⟩
  · exact fun id cachedOn content found date within => userValid id cachedOn content found date (subset within)
  · exact fun id cachedOn content found date within => deviceValid id cachedOn content found date (subset within)
  · exact fun id cachedOn content found date within =>
      revocationValid id cachedOn content found date (subset within)
  · exact fun first isFirst last isLast => soon first (subset isFirst) last (subset isLast)

/-- Empty caches hold nothing false. -/
theorem reliable_of_empty {rootVerifyKey : VerifyKey} {cacheValidity : ℤ} (store : OrganizationStore)
    (soon : ∀ first ∈ dates, ∀ last ∈ dates, last - first < cacheValidity * 1000000) :
    Reliable ⟨{ rootVerifyKey, cacheValidity }⟩ store dates :=
  ⟨⟨nofun, nofun, nofun, nofun, nofun, nofun⟩, soon⟩

/-- What a look-up that succeeds does to the caches. -/
structure LooksUp (manager next : RemoteDevicesManager) (store : OrganizationStore) (redacted : Bool)
    (dates : Set DateTime) (items : List CertificateId) : Prop where
  reliable : next.Reliable store dates
  known : next.known = lookUps (store.userGet redacted).brings manager.known items
  here : ∀ item ∈ items, item ∈ next.known

theorem LooksUp.nil (reliable : manager.Reliable store dates) :
    manager.LooksUp manager store redacted dates [] :=
  ⟨reliable, rfl, nofun⟩

theorem LooksUp.append {last : RemoteDevicesManager} {items others : List CertificateId}
    (first : manager.LooksUp next store redacted dates items)
    (second : next.LooksUp last store redacted dates others) :
    manager.LooksUp last store redacted dates (items ++ others) := by
  refine ⟨second.reliable, ?_, fun item member => ?_⟩
  · rw [second.known, first.known, lookUps_append]
  · rcases List.mem_append.mp member with early | late
    · rw [second.known]
      exact subset_lookUps others (first.here item early)
    · exact second.here item late

/-- An item that is known is looked up in the caches. -/
theorem LooksUp.of_mem {item : CertificateId} (reliable : manager.Reliable store dates)
    (there : item ∈ manager.known) : manager.LooksUp manager store redacted dates [item] := by
  refine ⟨reliable, ?_, by simpa using there⟩
  rw [lookUps_cons, lookUp_of_mem there, lookUps_nil]

section Cached

variable (reliable : manager.Reliable store dates)
include reliable

/-- Whoever has a cached revocation is revoked. -/
theorem Reliable.exists_revocation (there : .revocation userId ∈ manager.known) :
    ∃ user certif, store.users.get? userId = some user ∧ user.revokedUserCertificate = some certif := by
  obtain ⟨⟨cachedOn, content⟩, found⟩ := Dict.contains_eq_true_iff.mp there
  obtain ⟨user, key, isUser, revoked⟩ := reliable.caches.revocation userId cachedOn content found
  exact ⟨user, _, isUser, revoked⟩

variable (present : now ∈ dates)
include present

theorem isSome_getCached_user : (getCached manager.cacheValidity manager.usersCache now userId).isSome = true ↔
    .user userId ∈ manager.known := by
  rw [reliable.caches.userValid.isSome_getCached present]
  exact Iff.rfl

/-- A known user is not asked for. -/
theorem getUser_of_mem (userGet : UserGet) (there : .user userId ∈ manager.known) :
    ∃ user revokedUser, manager.getUser userGet userId now = .ok ((user, revokedUser), manager) := by
  obtain ⟨user, found⟩ :=
    Option.isSome_iff_exists.mp ((isSome_getCached_user reliable present).mpr there)
  refine ⟨user, getCached manager.cacheValidity manager.revokedUsersCache now userId, ?_⟩
  rw [getUser, found]

/-- A known device is not asked for. -/
theorem getDevice_of_mem (userGet : UserGet) (there : .device deviceId ∈ manager.known) :
    ∃ device, manager.getDevice userGet deviceId now = .ok (device, manager) ∧
      store.truths.device deviceId device := by
  obtain ⟨⟨cachedOn, device⟩, entry⟩ := Dict.contains_eq_true_iff.mp there
  have found := (reliable.caches.deviceValid.getCached_eq_some_iff present).mpr ⟨cachedOn, entry⟩
  refine ⟨device, ?_, reliable.caches.device deviceId cachedOn device entry⟩
  rw [getDevice, found]

end Cached

section Fetched

variable (sound : store.Sound root) (reliable : manager.Reliable store dates) (present : now ∈ dates)
include sound reliable present

/-- A user that is fetched fills the caches with what its reply certifies. -/
theorem getUserAndDevices_spec {loaded : VerifiedUserAndDevices}
    (done : manager.getUserAndDevices (store.userGet redacted) userId now = .ok (loaded, next)) :
    ∃ rep, store.getUserWithDevicesAndTrustchain userId redacted = .ok rep ∧ next.Reliable store dates ∧
      next.known = {id | id ∈ manager.known ∨ id ∈ rep.certificates.about} ∧
      store.truths.user userId loaded.user ∧ .user userId ∈ next.known ∧
      loaded.revokedUser.isSome = rep.revokedUserCertificate.isSome ∧
      ∀ device ∈ loaded.devices, store.truths.device device.deviceId device ∧
        .device device.deviceId ∈ next.known := by
  simp only [getUserAndDevices, Except.bind_eq_ok_iff, Except.mapError_eq_ok_iff, Except.pure_eq_ok_iff,
    Prod.mk.injEq] at done
  obtain ⟨rep, given, ⟨_, context⟩, isLoaded, rfl, rfl⟩ := done
  obtain ⟨verified, populated, isUser, named, areDevices, revoked⟩ := loadUserAndDevices_spec isLoaded
  have loads : manager.Loads context store.truths dates rep.certificates verified :=
    reliable.caches.load sound.truthful (sound.genuine_certificates given) present
      (fun date within => reliable.soon now present date within) populated
  have known (id : CertificateId) :
      id ∈ context.known ↔ id ∈ manager.known ∨ id ∈ rep.certificates.about := by
    rw [loads.known_eq]
    exact Iff.rfl
  obtain ⟨trueUser, aboutUser⟩ := loads.verifiedUsers _ isUser
  rw [named] at trueUser aboutUser
  refine ⟨rep, given, ⟨loads.reliable, ?_⟩, loads.known_eq, trueUser, (known _).mpr (.inr aboutUser), revoked,
    fun device member => ?_⟩
  · rw [loads.cacheValidity]
    exact reliable.soon
  · obtain ⟨trueDevice, aboutDevice⟩ := loads.verifiedDevices device (areDevices member)
    exact ⟨trueDevice, (known _).mpr (.inr aboutDevice)⟩

theorem getUser_spec {user : UserCertificateContent} {revokedUser : Option RevokedUserCertificateContent}
    (done : manager.getUser (store.userGet redacted) userId now = .ok ((user, revokedUser), next)) :
    manager.LooksUp next store redacted dates [.user userId] ∧ user.userId = userId ∧
      (revokedUser.isSome = true ↔ .revocation userId ∈ next.known) := by
  unfold getUser at done
  split at done
  · next cached found =>
    cases done
    obtain ⟨cachedOn, entry⟩ := (reliable.caches.userValid.getCached_eq_some_iff present).mp found
    refine ⟨.of_mem reliable (Dict.contains_eq_true_iff.mpr ⟨_, entry⟩),
      sound.truthful.user.named _ _ (reliable.caches.user userId cachedOn user entry), ?_⟩
    rw [reliable.caches.revocationValid.isSome_getCached present]
    exact Iff.rfl
  · next missing =>
    simp only [Except.bind_eq_ok_iff, Except.pure_eq_ok_iff, Prod.mk.injEq] at done
    obtain ⟨⟨loaded, _⟩, fetched, ⟨rfl, rfl⟩, rfl⟩ := done
    obtain ⟨rep, given, kept, known, trueUser, here, revoked, -⟩ :=
      getUserAndDevices_spec sound reliable present fetched
    have unknown : .user userId ∉ manager.known := by
      rw [← isSome_getCached_user reliable present, missing]
      simp
    have brings : (store.userGet redacted).brings (.user userId) = rep.certificates.about := by
      ext id
      simp [UserGet.brings, UserGet.replies, OrganizationStore.userGet, given]
    refine ⟨⟨kept, ?_, by simpa using here⟩, sound.truthful.user.named _ _ trueUser, ?_⟩
    · rw [lookUps_cons, lookUps_nil, lookUp_of_not_mem unknown, brings, known]
    · rw [revoked]
      constructor
      · intro served
        rw [known]
        exact .inr ((sound.revocation_mem_about_iff given).mpr served)
      · intro there
        obtain ⟨other, certif, isOther, isRevoked⟩ := Reliable.exists_revocation kept there
        obtain ⟨user, -, isUser, same, -⟩ := sound.served_of_userGet given
        cases isUser.symm.trans isOther
        rw [same, isRevoked, Option.isSome_some]

theorem getDevice_spec {device : DeviceCertificateContent}
    (done : manager.getDevice (store.userGet redacted) deviceId now = .ok (device, next)) :
    manager.LooksUp next store redacted dates [.device deviceId] ∧ store.truths.device deviceId device := by
  unfold getDevice at done
  split at done
  · next cached found =>
    cases done
    obtain ⟨cachedOn, entry⟩ := (reliable.caches.deviceValid.getCached_eq_some_iff present).mp found
    exact ⟨.of_mem reliable (Dict.contains_eq_true_iff.mpr ⟨_, entry⟩),
      reliable.caches.device deviceId cachedOn device entry⟩
  · next missing =>
    obtain ⟨⟨loaded, fetcher⟩, fetched, done⟩ := Except.bind_eq_ok_iff.mp done
    obtain ⟨rep, given, kept, known, -, -, -, devices⟩ :=
      getUserAndDevices_spec sound reliable present fetched
    dsimp only at done
    split at done
    · next listed =>
      cases done
      have named : device.deviceId = deviceId := by simpa using List.find?_some listed
      obtain ⟨trueDevice, here⟩ := devices device (List.mem_of_find?_eq_some listed)
      rw [named] at trueDevice here
      have unknown : .device deviceId ∉ manager.known := by
        change ¬ manager.devicesCache.contains deviceId = true
        rw [← reliable.caches.deviceValid.isSome_getCached present, missing]
        simp
      have brings : (store.userGet redacted).brings (.device deviceId) = rep.certificates.about := by
        ext id
        simp [UserGet.brings, UserGet.replies, OrganizationStore.userGet, given]
      refine ⟨⟨kept, ?_, by simpa using here⟩, trueDevice⟩
      rw [lookUps_cons, lookUps_nil, lookUp_of_not_mem unknown, brings, known]
    · cases done

end Fetched

end RemoteDevicesManager

namespace OrganizationStore

variable {store next last : OrganizationStore} {root : VerifyKey} {user : UserRecord} {device : Device}

/-- Users and devices stay certified as they are, and the revoked ones stay revoked. -/
structure Keeps (store next : OrganizationStore) : Prop where
  users : ∀ userId user, store.users.get? userId = some user → ∃ later, next.users.get? userId = some later ∧
    later.content = user.content ∧
    ∀ certif, user.revokedUserCertificate = some certif → later.revokedUserCertificate = some certif
  devices : ∀ id device, store.device? id = some device → next.device? id = some device

theorem Keeps.refl (store : OrganizationStore) : store.Keeps store :=
  ⟨fun _ user found => ⟨user, found, rfl, fun _ => id⟩, fun _ _ => id⟩

theorem Keeps.trans (first : store.Keeps next) (second : next.Keeps last) : store.Keeps last := by
  refine ⟨fun userId user found => ?_, fun id device found => second.devices id device
    (first.devices id device found)⟩
  obtain ⟨later, isLater, same, revoked⟩ := first.users userId user found
  obtain ⟨latest, isLatest, alike, stays⟩ := second.users userId later isLater
  exact ⟨latest, isLatest, alike.trans same, fun certif is => stays certif (revoked certif is)⟩

theorem keeps_createUser (sound : store.Sound root) (created : store.createUser user device = .ok next)
    (owner : device.deviceId.userId = user.userId) : store.Keeps next := by
  refine ⟨fun userId found isFound => ⟨found, ?_, rfl, fun _ => id⟩, (grows_createUser sound created owner).devices⟩
  rw [users_createUser created, if_neg, isFound]
  rintro rfl
  cases (createUser_spec created).1.symm.trans isFound

theorem keeps_createDevice (created : store.createDevice device = .ok next) : store.Keeps next := by
  refine ⟨fun userId found isFound => ⟨found, ?_, rfl, fun _ => id⟩, (grows_createDevice created).devices⟩
  obtain ⟨-, -, rfl⟩ := createDevice_spec created
  exact isFound

/-- Only a user who is not revoked yet is revoked. -/
theorem keeps_revokeUser {content : RevokedUserCertificateContent} {key : VerifyKey} {now : DateTime}
    (sound : store.Sound root) (done : store.revokeUser content.userId ⟨key, some content⟩ content.author
      (some content.timestamp) now = .ok next) : store.Keeps next := by
  refine ⟨fun userId found isFound => ?_, (grows_revokeUser done).devices⟩
  obtain ⟨user, isUser, active, users, -, -⟩ := revokeUser_spec done
  rw [users, Dict.get?_insert]
  split
  · next itself =>
    subst itself
    cases isUser.symm.trans isFound
    refine ⟨_, rfl, rfl, fun certif is => ?_⟩
    obtain ⟨author, date, signer, revoked, -⟩ := sound.revokedBy isUser is
    cases active.symm.trans revoked.revokedOn
  · exact ⟨found, isFound, rfl, fun _ => id⟩

end OrganizationStore

/-- An accepted request keeps what the stores certify. -/
theorem UserBackend.Accepted.keeps {backend served : UserBackend} {now : DateTime} {request : UserRequest}
    (accepted : backend.Accepted now request served) (sound : backend.Sound) (id : OrganizationID) :
    (backend.user.store id).Keeps (served.user.store id) := by
  cases accepted with
  | organizationCreate fresh created same =>
    rw [same]
    exact .refl _
  | @organizationBootstrap other msg _ organization _ _ _ found fresh _ _ accepted created stores =>
    rw [stores]
    split
    · next same =>
      subst same
      have vacant : (backend.user.store id).Sound msg.rootVerifyKey := (sound.vacant_of_fresh found fresh).sound
      exact OrganizationStore.keeps_createUser vacant created accepted.owner
    · exact .refl _
  | @userCreate answer _ _ _ _ _ _ _ _ connected _ accepted created stores =>
    rw [stores.2]
    split
    · next same =>
      subst same
      exact OrganizationStore.keeps_createUser (sound.stores _ _ connected.organization) created accepted.owner
    · exact .refl _
  | deviceCreate _ _ _ _ _ _ created stores =>
    rw [stores.2]
    split
    · next same =>
      subst same
      exact OrganizationStore.keeps_createDevice created
    · exact .refl _
  | @userRevoke answer _ _ _ _ _ _ connected _ authored _ revoked stores =>
    rw [stores.2]
    split
    · next same =>
      subst same
      rw [← authored] at revoked
      exact OrganizationStore.keeps_revokeUser (sound.stores _ _ connected.organization) revoked
    · exact .refl _

/-- What was true when it was cached stays true. -/
theorem RemoteDevicesManager.Reliable.later {manager : RemoteDevicesManager} {store next : OrganizationStore}
    {dates : Set DateTime} (reliable : manager.Reliable store dates) (keeps : store.Keeps next) :
    manager.Reliable next dates := by
  obtain ⟨⟨users, devices, revocations, userValid, deviceValid, revocationValid⟩, soon⟩ := reliable
  refine ⟨⟨?_, ?_, ?_, userValid, deviceValid, revocationValid⟩, soon⟩
  · intro userId cachedOn content found
    obtain ⟨user, isUser, rfl⟩ := users userId cachedOn content found
    obtain ⟨later, isLater, same, -⟩ := keeps.users userId user isUser
    exact ⟨later, isLater, same.symm⟩
  · intro id cachedOn content found
    obtain ⟨device, key, verifyKey, isDevice, certified⟩ := devices id cachedOn content found
    exact ⟨device, key, verifyKey, keeps.devices id device isDevice, certified⟩
  · intro userId cachedOn content found
    obtain ⟨user, key, isUser, revoked⟩ := revocations userId cachedOn content found
    obtain ⟨later, isLater, -, stays⟩ := keeps.users userId user isUser
    exact ⟨later, key, isLater, stays _ revoked⟩

end Guardata
