import Guardata.Proofs.TrustchainLoads
import Guardata.Proofs.UserRequests
import Guardata.Soundness.TrustchainAuthority

/-! # Users that the backend serves

Every certificate that the backend has recorded was signed by somebody who was entitled to it, and devices
are certified by devices that were there before. The trustchain that comes with a user has all that is needed
to check this again, so the only thing that the client may object to is a date: a certificate that is dated
after the revocation of its author. Both dates are declared by clients, and the backend never compares them.
-/

namespace Guardata

open Machine

/-- Nothing says that a user is revoked. -/
structure UserRecord.Unrevoked (user : UserRecord) : Prop where
  revokedOn : user.revokedOn = none
  certificate : user.revokedUserCertificate = none
  certifier : user.revokedUserCertifier = none

/-- A user is revoked by a certificate. -/
structure UserRecord.RevokedBy (user : UserRecord) (userId : UserID) (author : DeviceID) (date : DateTime)
    (key : VerifyKey) : Prop where
  revokedOn : user.revokedOn = some date
  certificate : user.revokedUserCertificate = some ⟨key, some ⟨author, date, userId⟩⟩
  certifier : user.revokedUserCertifier = some author

namespace OrganizationStore

variable {store next : OrganizationStore} {root : VerifyKey}

/-- The root key, or a device of the subject itself or of an admin, signs with a key. -/
def Backs (store : OrganizationStore) (root : VerifyKey) (author : Option DeviceID) (key : VerifyKey)
    (subject : UserID) : Prop :=
  (author = none ∧ key = root) ∨
  ∃ id device signer, author = some id ∧ store.device? id = some device ∧ device.Certified signer key ∧
    (id.userId ≠ subject → ∃ admin, store.users.get? id.userId = some admin ∧ admin.profile = .admin)

/-- Devices stay as they are, and users keep their profiles. -/
structure Grows (store next : OrganizationStore) : Prop where
  devices : ∀ id device, store.device? id = some device → next.device? id = some device
  users : ∀ userId user, store.users.get? userId = some user → ∃ later,
    next.users.get? userId = some later ∧ later.profile = user.profile

theorem Backs.mono {author : Option DeviceID} {key : VerifyKey} {subject : UserID}
    (backs : store.Backs root author key subject) (grows : store.Grows next) :
    next.Backs root author key subject := by
  rcases backs with byRoot | ⟨id, device, signer, authored, found, certified, entitled⟩
  · exact .inl byRoot
  · refine .inr ⟨id, device, signer, authored, grows.devices id device found, certified, fun foreign => ?_⟩
    obtain ⟨admin, isAdmin, profile⟩ := entitled foreign
    obtain ⟨later, isLater, same⟩ := grows.users _ _ isAdmin
    exact ⟨later, isLater, same.trans profile⟩

/-- The certificates of a registered user. -/
structure SoundUser (store : OrganizationStore) (root : VerifyKey) (userId : UserID) (user : UserRecord) :
    Prop where
  named : user.userId = userId
  foreign : ∀ author, user.userCertifier = some author → author.userId ≠ userId
  certified : ∃ key, user.Certified key ∧ store.Backs root user.userCertifier key userId

/-- The certificates of a registered device. -/
structure SoundDevice (store : OrganizationStore) (root : VerifyKey) (id : DeviceID) (device : Device) :
    Prop where
  named : device.deviceId = id
  owned : ∃ owner, store.users.get? id.userId = some owner
  certified : ∃ key verifyKey, device.Certified key verifyKey ∧
    store.Backs root device.deviceCertifier key id.userId

def SoundRevocation (store : OrganizationStore) (root : VerifyKey) (userId : UserID) (user : UserRecord) :
    Prop :=
  user.Unrevoked ∨ ∃ author date key, user.RevokedBy userId author date key ∧ author.userId ≠ userId ∧
    store.Backs root (some author) key userId

/-- Devices are certified by devices of lower rank. -/
def RankedBy (store : OrganizationStore) (rank : DeviceID → ℕ) : Prop :=
  ∀ id device author, store.device? id = some device → device.deviceCertifier = some author →
    rank author < rank id

/-- What the backend has recorded is well signed. -/
structure Sound (store : OrganizationStore) (root : VerifyKey) : Prop where
  users : ∀ userId user, store.users.get? userId = some user → store.SoundUser root userId user
  devices : ∀ id device, store.device? id = some device → store.SoundDevice root id device
  revocations : ∀ userId user, store.users.get? userId = some user → store.SoundRevocation root userId user
  ranked : ∃ rank, store.RankedBy rank

section Growth

theorem SoundUser.mono {userId : UserID} {user : UserRecord} (sound : store.SoundUser root userId user)
    (grows : store.Grows next) : next.SoundUser root userId user := by
  obtain ⟨key, certified, backs⟩ := sound.certified
  exact ⟨sound.named, sound.foreign, key, certified, backs.mono grows⟩

theorem SoundDevice.mono {id : DeviceID} {device : Device} (sound : store.SoundDevice root id device)
    (grows : store.Grows next) : next.SoundDevice root id device := by
  obtain ⟨owner, isOwner⟩ := sound.owned
  obtain ⟨later, isLater, -⟩ := grows.users _ _ isOwner
  obtain ⟨key, verifyKey, certified, backs⟩ := sound.certified
  exact ⟨sound.named, ⟨later, isLater⟩, key, verifyKey, certified, backs.mono grows⟩

theorem SoundRevocation.mono {userId : UserID} {user : UserRecord}
    (sound : store.SoundRevocation root userId user) (grows : store.Grows next) :
    next.SoundRevocation root userId user := by
  rcases sound with unrevoked | ⟨author, date, key, revoked, foreign, backs⟩
  · exact .inl unrevoked
  · exact .inr ⟨author, date, key, revoked, foreign, backs.mono grows⟩

/-- Whoever backs a certificate is registered. -/
theorem Sound.known_of_backs (sound : store.Sound root) {author : DeviceID} {key : VerifyKey}
    {subject : UserID} (backs : store.Backs root (some author) key subject) : store.Known author := by
  rcases backs with ⟨unsigned, -⟩ | ⟨_, device, -, ⟨⟩, found, -⟩
  · cases unsigned
  · obtain ⟨owner, isOwner⟩ := (sound.devices author device found).owned
    exact ⟨owner, device, isOwner, found⟩

/-- A new device gets a rank above the one that certifies it. -/
theorem Sound.ranked_add (sound : store.Sound root) {device : Device}
    (new : store.device? device.deviceId = none)
    (certifier : ∀ author, device.deviceCertifier = some author → store.Known author)
    (devices : ∀ id, next.device? id = if id = device.deviceId then some device else store.device? id) :
    ∃ rank, next.RankedBy rank := by
  obtain ⟨rank, ranked⟩ := sound.ranked
  have other {author : DeviceID} (known : store.Known author) : author ≠ device.deviceId := by
    rintro rfl
    obtain ⟨-, found, -, isFound⟩ := known
    rw [new] at isFound
    cases isFound
  refine ⟨fun id => if id = device.deviceId then
    ((device.deviceCertifier.map rank).getD 0) + 1 else rank id, ?_⟩
  intro id found author isFound authored
  rw [devices] at isFound
  by_cases itself : id = device.deviceId
  · rw [if_pos itself] at isFound
    cases isFound
    simp [itself, other (certifier author authored), authored]
  · rw [if_neg itself] at isFound
    obtain ⟨key, verifyKey, -, backs⟩ := (sound.devices id found isFound).certified
    rw [authored] at backs
    simp only [itself, other (sound.known_of_backs backs), ↓reduceIte]
    exact ranked id found author isFound authored

end Growth

section Operations

variable {user : UserRecord} {device : Device} {key : VerifyKey} {author : Option DeviceID}

theorem grows_createUser (sound : store.Sound root) (created : store.createUser user device = .ok next)
    (owner : device.deviceId.userId = user.userId) : store.Grows next := by
  have users := users_createUser created
  have devices := device?_createUser created
  obtain ⟨new, -⟩ := createUser_spec created
  constructor
  · intro id found isFound
    rw [devices, if_neg, isFound]
    rintro rfl
    obtain ⟨other, isOwner⟩ := (sound.devices _ found isFound).owned
    rw [owner, new] at isOwner
    cases isOwner
  · intro userId found isFound
    refine ⟨found, ?_, rfl⟩
    rw [users, if_neg, isFound]
    rintro rfl
    rw [new] at isFound
    cases isFound

theorem Sound.createUser {certificate : Signed FullUserCertificateContent} (sound : store.Sound root)
    (created : store.createUser user device = .ok next)
    (accepted : AcceptedUser key author certificate user device)
    (backs : store.Backs root author key user.userId) : next.Sound root := by
  have grows := grows_createUser sound created accepted.owner
  have users := users_createUser created
  have devices := device?_createUser created
  obtain ⟨new, -⟩ := createUser_spec created
  have known {id : DeviceID} (is : author = some id) : store.Known id :=
    sound.known_of_backs (is ▸ backs)
  refine ⟨fun userId found isFound => ?_, fun id found isFound => ?_, fun userId found isFound => ?_, ?_⟩
  · rw [users] at isFound
    split at isFound
    · next itself =>
      cases isFound
      refine ⟨itself.symm, fun id certifies same => ?_, key, accepted.certified, ?_⟩
      · obtain ⟨owner, -, isOwner, -⟩ := known (accepted.certifier.symm.trans certifies)
        rw [same, itself, new] at isOwner
        cases isOwner
      · rw [accepted.certifier, itself]
        exact backs.mono grows
    · exact (sound.users userId found isFound).mono grows
  · rw [devices] at isFound
    split at isFound
    · next itself =>
      cases isFound
      obtain ⟨verifyKey, certified⟩ := accepted.deviceCertified
      refine ⟨itself.symm, ⟨user, ?_⟩, key, verifyKey, certified, ?_⟩
      · rw [users, itself, if_pos accepted.owner]
      · rw [accepted.deviceCertifier, itself, accepted.owner]
        exact backs.mono grows
    · exact (sound.devices id found isFound).mono grows
  · rw [users] at isFound
    split at isFound
    · cases isFound
      exact .inl ⟨accepted.revokedOn, accepted.revokedUserCertificate, accepted.revokedUserCertifier⟩
    · exact (sound.revocations userId found isFound).mono grows
  · refine sound.ranked_add ?_ (fun id certifies => known (accepted.deviceCertifier.symm.trans certifies))
      devices
    cases present : store.device? device.deviceId with
    | none => rfl
    | some other =>
      obtain ⟨owner, isOwner⟩ := (sound.devices _ other present).owned
      rw [accepted.owner, new] at isOwner
      cases isOwner

theorem grows_createDevice (created : store.createDevice device = .ok next) : store.Grows next := by
  obtain ⟨-, new, rfl⟩ := createDevice_spec created
  refine ⟨fun id found isFound => ?_, fun userId found isFound => ⟨found, isFound, rfl⟩⟩
  rw [device?_setDevice, if_neg, isFound]
  rintro rfl
  rw [new] at isFound
  cases isFound

theorem Sound.createDevice {verifyKey : VerifyKey} (sound : store.Sound root)
    (created : store.createDevice device = .ok next) (certified : device.Certified key verifyKey)
    (backs : store.Backs root device.deviceCertifier key device.deviceId.userId) : next.Sound root := by
  have grows := grows_createDevice created
  obtain ⟨⟨owner, isOwner⟩, new, rfl⟩ := createDevice_spec created
  refine ⟨fun userId found isFound => (sound.users userId found isFound).mono grows,
    fun id found isFound => ?_,
    fun userId found isFound => (sound.revocations userId found isFound).mono grows, ?_⟩
  · rw [device?_setDevice] at isFound
    split at isFound
    · next itself =>
      cases isFound
      subst itself
      exact ⟨rfl, ⟨owner, isOwner⟩, key, verifyKey, certified, backs.mono grows⟩
    · exact (sound.devices id found isFound).mono grows
  · exact sound.ranked_add new (fun id certifies => sound.known_of_backs (certifies ▸ backs))
      device?_setDevice

section Revocation

variable {content : RevokedUserCertificateContent} {now : DateTime}

theorem grows_revokeUser (done : store.revokeUser content.userId ⟨key, some content⟩ content.author
    (some content.timestamp) now = .ok next) : store.Grows next := by
  obtain ⟨user, isUser, -, users, devices, -⟩ := revokeUser_spec done
  refine ⟨fun id found isFound => (device?_congr devices id).trans isFound, fun userId found isFound => ?_⟩
  rw [users, Dict.get?_insert]
  split
  · next itself =>
    subst itself
    cases isUser.symm.trans isFound
    exact ⟨_, rfl, rfl⟩
  · exact ⟨found, isFound, rfl⟩

theorem Sound.revokeUser (sound : store.Sound root)
    (done : store.revokeUser content.userId ⟨key, some content⟩ content.author (some content.timestamp) now =
      .ok next) (foreign : content.author.userId ≠ content.userId)
    (backs : store.Backs root (some content.author) key content.userId) : next.Sound root := by
  have grows := grows_revokeUser done
  obtain ⟨user, isUser, -, users, devices, -⟩ := revokeUser_spec done
  obtain ⟨rank, ranked⟩ := sound.ranked
  refine ⟨fun userId found isFound => ?_, fun id found isFound => ?_, fun userId found isFound => ?_,
    rank, fun id found author isFound => ranked id found author
      ((device?_congr devices id).symm.trans isFound)⟩
  · rw [users, Dict.get?_insert] at isFound
    split at isFound
    · next itself =>
      subst itself
      cases isFound
      obtain ⟨named, foreign, signer, certified, backs⟩ := sound.users _ user isUser
      exact ⟨named, foreign, signer, certified, backs.mono grows⟩
    · exact (sound.users userId found isFound).mono grows
  · exact (sound.devices id found ((device?_congr devices id).symm.trans isFound)).mono grows
  · rw [users, Dict.get?_insert] at isFound
    split at isFound
    · next itself =>
      subst itself
      cases isFound
      exact .inr ⟨content.author, content.timestamp, key, ⟨rfl, rfl, rfl⟩, foreign, backs.mono grows⟩
    · exact (sound.revocations userId found isFound).mono grows

end Revocation

end Operations

section Bundle

/-- The users whose certificates are in a bundle. -/
def Covered (target : UserID) (ids : List DeviceID) (userId : UserID) : Prop :=
  userId = target ∨ ∃ id ∈ ids, id.userId = userId

/-- The certificates of a bundle are those of one user and of the devices in its trustchain, where whoever
signed one of them is found too. -/
structure Served (store : OrganizationStore) (redacted : Bool) (target : UserID) (ids : List DeviceID)
    (users : List (Signed FullUserCertificateContent))
    (revokedUsers : List (Signed RevokedUserCertificateContent))
    (devices : List (Signed FullDeviceCertificateContent)) : Prop where
  known : ∀ id ∈ ids, store.Known id
  userAuthors : ∀ userId user author, Covered target ids userId → store.users.get? userId = some user →
    (user.userCertifier = some author ∨ user.revokedUserCertifier = some author) → author ∈ ids
  deviceAuthors : ∀ id device author, (id.userId = target ∨ id ∈ ids) → store.device? id = some device →
    device.deviceCertifier = some author → author ∈ ids
  users : ∀ certif, certif ∈ users ↔ ∃ userId user, Covered target ids userId ∧
    store.users.get? userId = some user ∧ certif = user.certificate redacted
  revokedUsers : ∀ certif, certif ∈ revokedUsers ↔ ∃ userId user, Covered target ids userId ∧
    store.users.get? userId = some user ∧ user.revokedUserCertificate = some certif
  devices : ∀ certif, certif ∈ devices ↔ ∃ id device, (id.userId = target ∨ id ∈ ids) ∧
    store.device? id = some device ∧ certif = device.certificate redacted

theorem mem_userDevices_iff {userId : UserID} {device : Device} :
    device ∈ (store.userDevices userId).values ↔ ∃ id, id.userId = userId ∧
    store.device? id = some device := by
  rw [Dict.mem_values_iff]
  constructor
  · rintro ⟨name, found⟩
    exact ⟨⟨userId, name⟩, rfl, found⟩
  · rintro ⟨id, rfl, found⟩
    exact ⟨id.deviceName, found⟩

/-- Whoever certified a user, its revocation or one of its devices is registered. -/
theorem Sound.known_certifier (sound : store.Sound root) {userId : UserID} {user : UserRecord}
    (isUser : store.users.get? userId = some user) {author : DeviceID}
    (certifies : user.userCertifier = some author ∨ user.revokedUserCertifier = some author) :
    store.Known author := by
  rcases certifies with certifies | certifies
  · obtain ⟨key, -, backs⟩ := (sound.users userId user isUser).certified
    exact sound.known_of_backs (certifies ▸ backs)
  · rcases sound.revocations userId user isUser with unrevoked | ⟨other, date, key, revoked, -, backs⟩
    · rw [unrevoked.certifier] at certifies
      cases certifies
    · cases revoked.certifier.symm.trans certifies
      exact sound.known_of_backs backs

theorem Sound.known_deviceCertifier (sound : store.Sound root) {id : DeviceID} {device : Device}
    (isDevice : store.device? id = some device) {author : DeviceID}
    (certifies : device.deviceCertifier = some author) : store.Known author := by
  obtain ⟨key, verifyKey, -, backs⟩ := (sound.devices id device isDevice).certified
  exact sound.known_of_backs (certifies ▸ backs)

theorem Sound.complete (sound : store.Sound root) : store.Complete := by
  rintro id creator ⟨user, device, isUser, isDevice, certifies | certifies | certifies⟩
  · exact sound.known_deviceCertifier isDevice certifies
  · exact sound.known_certifier isUser (.inr certifies)
  · exact sound.known_certifier isUser (.inl certifies)

/-- The bundle of a registered user, in whatever order its trustchain comes. -/
theorem Sound.getUserWithDevicesAndTrustchain_spec (sound : store.Sound root) (redacted : Bool)
    {target : UserID} {user : UserRecord} (isUser : store.users.get? target = some user) :
    ∃ trustchain ids, store.getUserWithDevicesAndTrustchain target redacted = .ok {
        userCertificate := user.certificate redacted
        revokedUserCertificate := user.revokedUserCertificate
        deviceCertificates := (store.userDevices target).values.map (·.certificate redacted)
        trustchain := trustchain } ∧
      ∀ users revokedUsers devices, users.Perm trustchain.users →
        revokedUsers.Perm trustchain.revokedUsers → devices.Perm trustchain.devices →
        store.Served redacted target ids (user.certificate redacted :: users)
          (user.revokedUserCertificate.toList ++ revokedUsers)
          ((store.userDevices target).values.map (·.certificate redacted) ++ devices) := by
  have known (id : DeviceID) (member : some id ∈ user.userCertifier :: user.revokedUserCertifier ::
      (store.userDevices target).values.map (·.deviceCertifier)) : store.Known id := by
    simp only [List.mem_cons, List.mem_map] at member
    rcases member with is | is | ⟨device, isDevice, is⟩
    · exact sound.known_certifier isUser (.inl is.symm)
    · exact sound.known_certifier isUser (.inr is.symm)
    · obtain ⟨other, -, found⟩ := mem_userDevices_iff.mp isDevice
      exact sound.known_deviceCertifier found is
  obtain ⟨extracted, done, mirrors, visited, closed⟩ := getTrustchain_spec redacted sound.complete known
  refine ⟨extracted.toTrustchain, extracted.inTrustchain, ?_, ?_⟩
  · rw [getUserWithDevicesAndTrustchain, getUser_eq_ok_iff.mpr isUser, Except.ok_bind]
    simp only [done, Except.ok_bind]
    rfl
  intro users revokedUsers devices sameUsers sameRevoked sameDevices
  exact {
    known := mirrors.known
    userAuthors := by
      rintro userId other author (rfl | ⟨id, member, rfl⟩) isOther certifies
      · cases isUser.symm.trans isOther
        rcases certifies with is | is <;> exact visited author (by simp [is])
      · obtain ⟨-, device, -, isDevice⟩ := mirrors.known id member
        exact closed id member author ⟨other, device, isOther, isDevice, .inr certifies.symm⟩
    deviceAuthors := by
      rintro id device author (own | member) isDevice certifies
      · have listed := mem_userDevices_iff.mpr ⟨id, own, isDevice⟩
        refine visited author ?_
        simp only [List.mem_cons, List.mem_map]
        exact .inr (.inr ⟨device, listed, certifies⟩)
      · obtain ⟨owner, -, isOwner, -⟩ := mirrors.known id member
        exact closed id member author ⟨owner, device, isOwner, isDevice, .inl certifies⟩
    users := by
      intro certif
      rw [List.mem_cons, sameUsers.mem_iff, mirrors.users]
      constructor
      · rintro (rfl | ⟨id, member, other, isOther, rfl⟩)
        · exact ⟨target, user, .inl rfl, isUser, rfl⟩
        · exact ⟨id.userId, other, .inr ⟨id, member, rfl⟩, isOther, rfl⟩
      · rintro ⟨userId, other, rfl | ⟨id, member, rfl⟩, isOther, rfl⟩
        · cases isUser.symm.trans isOther
          exact .inl rfl
        · exact .inr ⟨id, member, other, isOther, rfl⟩
    revokedUsers := by
      intro certif
      rw [List.mem_append, Option.mem_toList, sameRevoked.mem_iff, mirrors.revokedUsers]
      constructor
      · rintro (is | ⟨id, member, other, isOther, is⟩)
        · exact ⟨target, user, .inl rfl, isUser, is⟩
        · exact ⟨id.userId, other, .inr ⟨id, member, rfl⟩, isOther, is⟩
      · rintro ⟨userId, other, rfl | ⟨id, member, rfl⟩, isOther, is⟩
        · cases isUser.symm.trans isOther
          exact .inl is
        · exact .inr ⟨id, member, other, isOther, is⟩
    devices := by
      intro certif
      rw [List.mem_append, sameDevices.mem_iff, mirrors.devices, List.mem_map]
      constructor
      · rintro (⟨device, listed, rfl⟩ | ⟨id, member, device, isDevice, rfl⟩)
        · obtain ⟨id, own, isDevice⟩ := mem_userDevices_iff.mp listed
          exact ⟨id, device, .inl own, isDevice, rfl⟩
        · exact ⟨id, device, .inr member, isDevice, rfl⟩
      · rintro ⟨id, device, own | member, isDevice, rfl⟩
        · exact .inl ⟨device, mem_userDevices_iff.mpr ⟨id, own, isDevice⟩, rfl⟩
        · exact .inr ⟨id, member, device, isDevice, rfl⟩ }

end Bundle

/-- A registered device or user has signed something with a date. -/
inductive HasSigned (store : OrganizationStore) : DeviceID → DateTime → Prop
  | user {userId : UserID} {user : UserRecord} {author : DeviceID} :
      store.users.get? userId = some user → user.userCertifier = some author →
      HasSigned store author user.createdOn
  | device {id : DeviceID} {device : Device} {author : DeviceID} : store.device? id = some device →
      device.deviceCertifier = some author → HasSigned store author device.createdOn
  | revocation {userId : UserID} {user : UserRecord} {author : DeviceID} {date : DateTime} :
      store.users.get? userId = some user → user.revokedUserCertifier = some author →
      user.revokedOn = some date → HasSigned store author date

/-- A date is not after the recorded revocation of an author. -/
def DateAllowed (store : OrganizationStore) (author : DeviceID) (date : DateTime) : Prop :=
  ∀ user revokedOn, store.users.get? author.userId = some user → user.revokedOn = some revokedOn →
    date ≤ revokedOn

/-- No certificate is dated after the revocation of its author. -/
def DatesRespected (store : OrganizationStore) : Prop :=
  ∀ author date, store.HasSigned author date → store.DateAllowed author date

section Tables

variable {redacted : Bool} {target : UserID} {ids : List DeviceID}
  {users : List (Signed FullUserCertificateContent)}
  {revokedUsers : List (Signed RevokedUserCertificateContent)}
  {devices : List (Signed FullDeviceCertificateContent)}

theorem Served.mem_users_iff (served : store.Served redacted target ids users revokedUsers devices)
    (sound : store.Sound root) {certif : Signed UserCertificateContent} :
    certif ∈ users.map userPart ↔ ∃ userId user key, Covered target ids userId ∧
      store.users.get? userId = some user ∧ user.Certified key ∧ certif = ⟨key, some user.content⟩ := by
  rw [List.mem_map]
  constructor
  · rintro ⟨full, member, rfl⟩
    obtain ⟨userId, user, covered, isUser, rfl⟩ := (served.users full).mp member
    obtain ⟨key, certified, -⟩ := (sound.users userId user isUser).certified
    exact ⟨userId, user, key, covered, isUser, certified, certified redacted⟩
  · rintro ⟨userId, user, key, covered, isUser, certified, rfl⟩
    exact ⟨user.certificate redacted, (served.users _).mpr ⟨userId, user, covered, isUser, rfl⟩,
      certified redacted⟩

theorem Served.mem_devices_iff (served : store.Served redacted target ids users revokedUsers devices)
    (sound : store.Sound root) {certif : Signed DeviceCertificateContent} :
    certif ∈ devices.map devicePart ↔ ∃ id device key verifyKey, (id.userId = target ∨ id ∈ ids) ∧
      store.device? id = some device ∧ device.Certified key verifyKey ∧
        certif = ⟨key, some (device.content verifyKey)⟩ := by
  rw [List.mem_map]
  constructor
  · rintro ⟨full, member, rfl⟩
    obtain ⟨id, device, covered, isDevice, rfl⟩ := (served.devices full).mp member
    obtain ⟨key, verifyKey, certified, -⟩ := (sound.devices id device isDevice).certified
    exact ⟨id, device, key, verifyKey, covered, isDevice, certified, certified redacted⟩
  · rintro ⟨id, device, key, verifyKey, covered, isDevice, certified, rfl⟩
    exact ⟨device.certificate redacted, (served.devices _).mpr ⟨id, device, covered, isDevice, rfl⟩,
      certified redacted⟩

theorem Served.mem_revokedUsers_iff (served : store.Served redacted target ids users revokedUsers devices)
    (sound : store.Sound root) {certif : Signed RevokedUserCertificateContent} :
    certif ∈ revokedUsers ↔ ∃ userId user author date key, Covered target ids userId ∧
      store.users.get? userId = some user ∧ user.RevokedBy userId author date key ∧
        certif = ⟨key, some ⟨author, date, userId⟩⟩ := by
  rw [served.revokedUsers]
  constructor
  · rintro ⟨userId, user, covered, isUser, is⟩
    rcases sound.revocations userId user isUser with unrevoked | ⟨author, date, key, revoked, -, -⟩
    · rw [unrevoked.certificate] at is
      cases is
    · cases revoked.certificate.symm.trans is
      exact ⟨userId, user, author, date, key, covered, isUser, revoked, rfl⟩
  · rintro ⟨userId, user, author, date, key, covered, isUser, revoked, rfl⟩
    exact ⟨userId, user, covered, isUser, revoked.certificate⟩

/-- The tables that the client makes of a bundle. -/
def clientTables (users : List (Signed FullUserCertificateContent))
    (revokedUsers : List (Signed RevokedUserCertificateContent))
    (devices : List (Signed FullDeviceCertificateContent)) : TrustchainStates :=
  ⟨freshTable (·.userId) (users.map userPart), freshTable (·.userId) revokedUsers,
    freshTable (·.deviceId) (devices.map devicePart)⟩

section Lookup

variable (sound : store.Sound root) (served : store.Served redacted target ids users revokedUsers devices)
include sound served

theorem Served.users_agree : Agree (·.userId) (users.map userPart) := by
  constructor
  · intro certif member
    obtain ⟨-, user, key, -, -, -, rfl⟩ := (served.mem_users_iff sound).mp member
    exact ⟨user.content, rfl⟩
  · intro first isFirst second isSecond content other payload otherPayload same
    obtain ⟨userId, user, key, -, isUser, certified, rfl⟩ := (served.mem_users_iff sound).mp isFirst
    obtain ⟨otherId, otherUser, otherKey, -, isOther, otherCertified, rfl⟩ :=
      (served.mem_users_iff sound).mp isSecond
    cases payload
    cases otherPayload
    have sameId : userId = otherId := by
      rw [← (sound.users userId user isUser).named, ← (sound.users otherId otherUser isOther).named]
      exact same
    subst sameId
    cases isUser.symm.trans isOther
    rw [certified.key_eq otherCertified]

theorem Served.revokedUsers_agree : Agree (·.userId) revokedUsers := by
  constructor
  · intro certif member
    obtain ⟨userId, user, author, date, key, -, -, -, rfl⟩ := (served.mem_revokedUsers_iff sound).mp member
    exact ⟨_, rfl⟩
  · intro first isFirst second isSecond content other payload otherPayload same
    obtain ⟨userId, user, author, date, key, -, isUser, revoked, rfl⟩ :=
      (served.mem_revokedUsers_iff sound).mp isFirst
    obtain ⟨otherId, otherUser, otherAuthor, otherDate, otherKey, -, isOther, otherRevoked, rfl⟩ :=
      (served.mem_revokedUsers_iff sound).mp isSecond
    cases payload
    cases otherPayload
    have sameId : userId = otherId := same
    subst sameId
    cases isUser.symm.trans isOther
    exact Option.some_inj.mp (revoked.certificate.symm.trans otherRevoked.certificate)

theorem Served.devices_agree : Agree (·.deviceId) (devices.map devicePart) := by
  constructor
  · intro certif member
    obtain ⟨-, device, key, verifyKey, -, -, -, rfl⟩ := (served.mem_devices_iff sound).mp member
    exact ⟨device.content verifyKey, rfl⟩
  · intro first isFirst second isSecond content other payload otherPayload same
    obtain ⟨id, device, key, verifyKey, -, isDevice, certified, rfl⟩ :=
      (served.mem_devices_iff sound).mp isFirst
    obtain ⟨otherId, otherDevice, otherKey, otherVerifyKey, -, isOther, otherCertified, rfl⟩ :=
      (served.mem_devices_iff sound).mp isSecond
    cases payload
    cases otherPayload
    have sameId : id = otherId := by
      rw [← (sound.devices id device isDevice).named, ← (sound.devices otherId otherDevice isOther).named]
      exact same
    subst sameId
    cases isDevice.symm.trans isOther
    obtain ⟨rfl, rfl⟩ := certified.keys_eq otherCertified
    rfl

theorem Served.get?_users_iff {userId : UserID} {state : CertifState UserCertificateContent} :
    (clientTables users revokedUsers devices).users.get? userId = some state ↔
      ∃ user key, Covered target ids userId ∧ store.users.get? userId = some user ∧ user.Certified key ∧
        state = ⟨⟨key, some user.content⟩, user.content, false⟩ := by
  rw [clientTables, (served.users_agree sound).get?_eq_some_iff, served.mem_users_iff sound]
  constructor
  · rintro ⟨⟨id, user, key, covered, isUser, certified, is⟩, payload, unverified, named⟩
    have sameId : id = userId := by
      rw [is] at payload
      rw [← (sound.users id user isUser).named, ← named, ← Option.some_inj.mp payload]
      rfl
    subst sameId
    refine ⟨user, key, covered, isUser, certified, ?_⟩
    cases state
    simp_all
  · rintro ⟨user, key, covered, isUser, certified, rfl⟩
    exact ⟨⟨userId, user, key, covered, isUser, certified, rfl⟩, rfl, rfl,
      (sound.users userId user isUser).named⟩

theorem Served.get?_revokedUsers_iff {userId : UserID} {state : CertifState RevokedUserCertificateContent} :
    (clientTables users revokedUsers devices).revokedUsers.get? userId = some state ↔
      ∃ user author date key, Covered target ids userId ∧ store.users.get? userId = some user ∧
        user.RevokedBy userId author date key ∧
        state = ⟨⟨key, some ⟨author, date, userId⟩⟩, ⟨author, date, userId⟩, false⟩ := by
  rw [clientTables, (served.revokedUsers_agree sound).get?_eq_some_iff, served.mem_revokedUsers_iff sound]
  constructor
  · rintro ⟨⟨id, user, author, date, key, covered, isUser, revoked, is⟩, payload, unverified, named⟩
    have sameId : id = userId := by
      rw [is] at payload
      rw [← named, ← Option.some_inj.mp payload]
    subst sameId
    refine ⟨user, author, date, key, covered, isUser, revoked, ?_⟩
    cases state
    simp_all
  · rintro ⟨user, author, date, key, covered, isUser, revoked, rfl⟩
    exact ⟨⟨userId, user, author, date, key, covered, isUser, revoked, rfl⟩, rfl, rfl, rfl⟩

theorem Served.get?_devices_iff {id : DeviceID} {state : CertifState DeviceCertificateContent} :
    (clientTables users revokedUsers devices).devices.get? id = some state ↔
      ∃ device key verifyKey, (id.userId = target ∨ id ∈ ids) ∧ store.device? id = some device ∧
        device.Certified key verifyKey ∧
        state = ⟨⟨key, some (device.content verifyKey)⟩, device.content verifyKey, false⟩ := by
  rw [clientTables, (served.devices_agree sound).get?_eq_some_iff, served.mem_devices_iff sound]
  constructor
  · rintro ⟨⟨other, device, key, verifyKey, covered, isDevice, certified, is⟩, payload, unverified, named⟩
    have sameId : other = id := by
      rw [is] at payload
      rw [← (sound.devices other device isDevice).named, ← named, ← Option.some_inj.mp payload]
      rfl
    subst sameId
    refine ⟨device, key, verifyKey, covered, isDevice, certified, ?_⟩
    cases state
    simp_all
  · rintro ⟨device, key, verifyKey, covered, isDevice, certified, rfl⟩
    exact ⟨⟨id, device, key, verifyKey, covered, isDevice, certified, rfl⟩, rfl, rfl,
      (sound.devices id device isDevice).named⟩

/-- A recorded certificate is endorsed by the tables, if its date respects the revocation of its author. -/
theorem Served.endorsed_of_backs {α : Type} [CertificateContent α] {content : α} {key : VerifyKey}
    (backs : store.Backs root (CertificateContent.author content) key
      (CertificateContent.verifiedUserId content))
    (found : ∀ author, CertificateContent.author content = some author → author ∈ ids)
    (dated : ∀ author, CertificateContent.author content = some author →
      store.DateAllowed author (CertificateContent.timestamp content)) :
    Endorsed root (clientTables users revokedUsers devices) key content := by
  rcases backs with byRoot | ⟨author, device, signer, authored, isDevice, certified, entitled⟩
  · exact .inl byRoot
  · have member := found author authored
    refine .inr ⟨author, _, authored, (served.get?_devices_iff sound).mpr
      ⟨device, signer, key, .inr member, isDevice, certified, rfl⟩, rfl, fun foreign => ?_, ?_⟩
    · obtain ⟨admin, isAdmin, profile⟩ := entitled foreign
      obtain ⟨adminKey, adminCertified, -⟩ := (sound.users _ admin isAdmin).certified
      exact ⟨_, (served.get?_users_iff sound).mpr
        ⟨admin, adminKey, .inr ⟨author, member, rfl⟩, isAdmin, adminCertified, rfl⟩, profile⟩
    · intro state isState
      obtain ⟨user, revoker, date, revokerKey, -, isUser, revoked, rfl⟩ :=
        (served.get?_revokedUsers_iff sound).mp isState
      exact dated author authored user date isUser revoked.revokedOn

theorem Served.verified (dates : store.DatesRespected) :
    (clientTables users revokedUsers devices).Verified root := by
  refine ⟨⟨?_, ?_, ?_⟩, ?_, ?_, ?_⟩
  · intro userId state isState
    obtain ⟨user, key, -, isUser, -, rfl⟩ := (served.get?_users_iff sound).mp isState
    exact ⟨rfl, rfl, (sound.users userId user isUser).named⟩
  · intro userId state isState
    obtain ⟨user, author, date, key, -, -, -, rfl⟩ := (served.get?_revokedUsers_iff sound).mp isState
    exact ⟨rfl, rfl, rfl⟩
  · intro id state isState
    obtain ⟨device, key, verifyKey, -, isDevice, -, rfl⟩ := (served.get?_devices_iff sound).mp isState
    exact ⟨rfl, rfl, (sound.devices id device isDevice).named⟩
  · intro userId state isState
    obtain ⟨user, key, covered, isUser, certified, rfl⟩ := (served.get?_users_iff sound).mp isState
    obtain ⟨named, foreign, signer, signed, backs⟩ := sound.users userId user isUser
    obtain rfl := certified.key_eq signed
    refine ⟨served.endorsed_of_backs sound ?_ ?_ ?_, fun author certifies => ?_⟩
    · rwa [← named] at backs
    · exact fun author certifies => served.userAuthors userId user author covered isUser (.inl certifies)
    · exact fun author certifies => dates author _ (.user isUser certifies)
    · have other := foreign author certifies
      rwa [← named] at other
  · intro userId state isState
    obtain ⟨user, author, date, key, covered, isUser, revoked, rfl⟩ :=
      (served.get?_revokedUsers_iff sound).mp isState
    rcases sound.revocations userId user isUser with
      unrevoked | ⟨other, day, signer, revoked', foreign, backs⟩
    · cases unrevoked.revokedOn.symm.trans revoked.revokedOn
    · cases revoked.certificate.symm.trans revoked'.certificate
      refine ⟨served.endorsed_of_backs sound backs ?_ ?_, foreign⟩
      · rintro _ ⟨⟩
        exact served.userAuthors userId user author covered isUser (.inr revoked.certifier)
      · rintro _ ⟨⟩
        exact dates author date (.revocation isUser revoked.certifier revoked.revokedOn)
  · intro id state isState
    obtain ⟨device, key, verifyKey, covered, isDevice, certified, rfl⟩ :=
      (served.get?_devices_iff sound).mp isState
    obtain ⟨named, -, signer, signedKey, signed, backs⟩ := sound.devices id device isDevice
    obtain ⟨rfl, rfl⟩ := certified.keys_eq signed
    refine served.endorsed_of_backs sound ?_ ?_ ?_
    · rwa [← named] at backs
    · exact fun author certifies => served.deviceAuthors id device author covered isDevice certifies
    · exact fun author certifies => dates author _ (.device isDevice certifies)

/-- What the tables endorse is not dated after the revocation of its author. -/
theorem Served.date_le {α : Type} [CertificateContent α] {content : α} {key : VerifyKey} {author : DeviceID}
    (endorsed : Endorsed root (clientTables users revokedUsers devices) key content)
    (authored : CertificateContent.author content = some author) (member : author ∈ ids) {user : UserRecord}
    {revokedOn : DateTime} (isUser : store.users.get? author.userId = some user)
    (isRevoked : user.revokedOn = some revokedOn) : CertificateContent.timestamp content ≤ revokedOn := by
  rcases endorsed with ⟨unsigned, -⟩ | ⟨other, device, same, -, -, -, dates⟩
  · rw [authored] at unsigned
    cases unsigned
  · cases authored.symm.trans same
    rcases sound.revocations _ user isUser with unrevoked | ⟨revoker, date, revokerKey, revoked, -, -⟩
    · cases unrevoked.revokedOn.symm.trans isRevoked
    · cases revoked.revokedOn.symm.trans isRevoked
      exact dates _ ((served.get?_revokedUsers_iff sound).mpr
        ⟨user, revoker, revokedOn, revokerKey, .inr ⟨author, member, rfl⟩, isUser, revoked, rfl⟩)

theorem Served.rankedBy {rank : DeviceID → ℕ} (ranked : store.RankedBy rank) :
    (clientTables users revokedUsers devices).RankedBy rank := by
  intro id state author isState authored
  obtain ⟨device, key, verifyKey, -, isDevice, -, rfl⟩ := (served.get?_devices_iff sound).mp isState
  exact ranked id device author isDevice authored

end Lookup

end Tables

section Verifies

/-- What is loaded is what the records of a user, of its revocation and of its devices say. -/
structure Yields (store : OrganizationStore) (redacted : Bool) (userId : UserID) (user : UserRecord)
    (loaded : VerifiedUserAndDevices) : Prop where
  named : loaded.user.userId = userId
  content : loaded.user = user.content
  revokedUser : user.revokedUserCertificate.map (·.payload) = loaded.revokedUser.map some
  devices : (store.userDevices userId).values.map (fun device =>
    (devicePart (device.certificate redacted)).payload) =
    loaded.devices.map some

/-- The client accepts the bundle of every user, in whatever order its trustchain comes. -/
def Verifies (store : OrganizationStore) (root : VerifyKey) : Prop :=
  ∀ userId user redacted, store.users.get? userId = some user →
    ∃ bundle, store.getUserWithDevicesAndTrustchain userId redacted = .ok bundle ∧
      ∀ trustchain : Trustchain, trustchain.users.Perm bundle.trustchain.users →
        trustchain.revokedUsers.Perm bundle.trustchain.revokedUsers →
        trustchain.devices.Perm bundle.trustchain.devices →
        ∀ cacheValidity now expectedUserId, (expectedUserId = none ∨ expectedUserId = some userId) →
          ∃ loaded context, TrustchainContext.loadUserAndDevices { rootVerifyKey := root, cacheValidity }
              ⟨trustchain.users.map userPart, trustchain.revokedUsers, trustchain.devices.map devicePart⟩
              (userPart bundle.userCertificate) bundle.revokedUserCertificate
              (bundle.deviceCertificates.map devicePart) expectedUserId now = .ok (loaded, context) ∧
            store.Yields redacted userId user loaded

/-- The contents of the certificates of the devices of a user, which are named after them. -/
theorem Sound.exists_deviceContents (sound : store.Sound root) (redacted : Bool) (userId : UserID) :
    ∃ contents : List DeviceCertificateContent, (store.userDevices userId).values.map
        (fun device => (devicePart (device.certificate redacted)).payload) = contents.map some ∧
      contents.map (·.deviceId) = (store.userDevices userId).keys.map fun name => ⟨userId, name⟩ := by
  have part (entries : List (DeviceName × Device)) (all : ∀ entry ∈ entries,
      store.device? ⟨userId, entry.1⟩ = some entry.2) : ∃ contents : List DeviceCertificateContent,
      entries.map (fun entry => (devicePart (entry.2.certificate redacted)).payload) = contents.map some ∧
        contents.map (·.deviceId) = entries.map fun entry => ⟨userId, entry.1⟩ := by
    induction entries with
    | nil => exact ⟨[], rfl, rfl⟩
    | cons entry rest ih =>
      obtain ⟨contents, payloads, names⟩ := ih fun other member => all other (List.mem_cons_of_mem _ member)
      obtain ⟨named, -, key, verifyKey, certified, -⟩ := sound.devices _ _ (all entry (List.mem_cons_self ..))
      refine ⟨entry.2.content verifyKey :: contents, ?_, ?_⟩
      · rw [List.map_cons, payloads, devicePart, certified redacted, List.map_cons]
      · rw [List.map_cons, names, List.map_cons, Device.content, named]
  obtain ⟨contents, payloads, names⟩ := part (store.userDevices userId).items fun entry member =>
    Dict.get?_eq_some_iff.mpr member
  refine ⟨contents, ?_, ?_⟩
  · rw [Dict.values, List.map_map]
    exact payloads
  · rw [Dict.keys, List.map_map]
    exact names

/-- The tables of a bundle are those of its certificates. -/
theorem bundleTables_eq {trustchain : Trustchain} {userCertificate : Signed FullUserCertificateContent}
    {revokedUserCertificate : Option (Signed RevokedUserCertificateContent)}
    {deviceCertificates : List (Signed FullDeviceCertificateContent)} :
    bundleTables ⟨trustchain.users.map userPart, trustchain.revokedUsers, trustchain.devices.map devicePart⟩
        (userPart userCertificate) revokedUserCertificate (deviceCertificates.map devicePart) =
      clientTables (userCertificate :: trustchain.users)
        (revokedUserCertificate.toList ++ trustchain.revokedUsers)
        (deviceCertificates ++ trustchain.devices) := by
  rw [bundleTables, clientTables, List.map_append]
  rfl

theorem Served.agrees {redacted : Bool} {target : UserID} {ids : List DeviceID} {trustchain : Trustchain}
    {userCertificate : Signed FullUserCertificateContent}
    {revokedUserCertificate : Option (Signed RevokedUserCertificateContent)}
    {deviceCertificates : List (Signed FullDeviceCertificateContent)} (sound : store.Sound root)
    (served : store.Served redacted target ids (userCertificate :: trustchain.users)
      (revokedUserCertificate.toList ++ trustchain.revokedUsers) (deviceCertificates ++ trustchain.devices)) :
    BundleAgrees ⟨trustchain.users.map userPart, trustchain.revokedUsers, trustchain.devices.map devicePart⟩
      (userPart userCertificate) revokedUserCertificate (deviceCertificates.map devicePart) := by
  refine ⟨served.users_agree sound, served.revokedUsers_agree sound, ?_⟩
  have agree := served.devices_agree sound
  rwa [List.map_append] at agree

/-- If no date is wrong, everything verifies. -/
theorem Sound.verifies (sound : store.Sound root) (dates : store.DatesRespected) : store.Verifies root := by
  intro userId user redacted isUser
  obtain ⟨trustchain, ids, done, serves⟩ := sound.getUserWithDevicesAndTrustchain_spec redacted isUser
  refine ⟨_, done, fun other sameUsers sameRevoked sameDevices cacheValidity now expectedUserId expected => ?_⟩
  have served := serves other.users other.revokedUsers other.devices sameUsers sameRevoked sameDevices
  have verified := served.verified sound dates
  obtain ⟨rank, ranked⟩ := sound.ranked
  have older := served.rankedBy sound ranked
  rw [← bundleTables_eq] at verified older
  obtain ⟨named, -, key, certified, -⟩ := sound.users userId user isUser
  obtain ⟨contents, payloads, names⟩ := sound.exists_deviceContents redacted userId
  have isWanted {wanted : UserID} (is : expectedUserId = some wanted) : userId = wanted := by
    rcases expected with none | some
    · cases none.symm.trans is
    · exact Option.some_inj.mp (some.symm.trans is)
  obtain ⟨revokedUser, isRevoked, aboutUser⟩ : ∃ revokedUser : Option RevokedUserCertificateContent,
      user.revokedUserCertificate.map (·.payload) = revokedUser.map some ∧
        ∀ revoked, revokedUser = some revoked → revoked.userId = userId := by
    rcases sound.revocations userId user isUser with unrevoked | ⟨author, date, signer, revoked, -, -⟩
    · exact ⟨none, by rw [unrevoked.certificate]; rfl, nofun⟩
    · refine ⟨some ⟨author, date, userId⟩, by rw [revoked.certificate]; rfl, ?_⟩
      rintro _ ⟨⟩
      rfl
  have distinct : (contents.map (·.deviceId)).Nodup := by
    rw [names]
    refine (Dict.nodup_keys _).map fun first second same => ?_
    cases same
    rfl
  have asExpected : AsExpected expectedUserId ⟨user.content, revokedUser, contents⟩ := by
    refine ⟨fun wanted is => named.trans (isWanted is),
      fun wanted is revoked found => (aboutUser revoked found).trans (isWanted is),
      fun wanted is device member => ?_⟩
    have listed : device.deviceId ∈ contents.map (·.deviceId) := List.mem_map.mpr ⟨device, member, rfl⟩
    rw [names] at listed
    obtain ⟨name, -, same⟩ := List.mem_map.mp listed
    rw [← isWanted is, ← same]
  have read : (((store.userDevices userId).values.map (·.certificate redacted)).map devicePart).map
      (·.payload) = contents.map some := by
    rw [List.map_map, List.map_map]
    exact payloads
  obtain ⟨context, loaded⟩ := loadUserAndDevices_complete now (served.agrees sound) verified older
    (congrArg Signed.payload (certified redacted)) isRevoked read distinct asExpected
  exact ⟨_, context, loaded, named, rfl, isRevoked, payloads⟩

theorem verified_of_loadUserAndDevices {cacheValidity : ℤ} {trustchain : TrustchainCertificates}
    {userCertif : Signed UserCertificateContent}
    {revokedUserCertif : Option (Signed RevokedUserCertificateContent)}
    {devicesCertifs : List (Signed DeviceCertificateContent)} {expectedUserId : Option UserID}
    {now : DateTime}
    {loaded : VerifiedUserAndDevices × TrustchainContext}
    (agrees : BundleAgrees trustchain userCertif revokedUserCertif devicesCertifs)
    (done : TrustchainContext.loadUserAndDevices
      { rootVerifyKey := root, cacheValidity } trustchain userCertif revokedUserCertif devicesCertifs
      expectedUserId now = .ok loaded) :
    (bundleTables trustchain userCertif revokedUserCertif devicesCertifs).Verified root := by
  simp only [TrustchainContext.loadUserAndDevices, Except.bind_eq_ok_iff] at done
  obtain ⟨⟨verified, context⟩, isLoaded, -⟩ := done
  exact (verified_of_load (loadTables_complete now agrees.users agrees.revokedUsers agrees.devices) isLoaded).1

/-- The tables of every registered user are verified by a client that accepts all bundles. -/
theorem Verifies.exists_served (verifies : store.Verifies root) (sound : store.Sound root) {userId : UserID}
    {user : UserRecord} (isUser : store.users.get? userId = some user) :
    ∃ ids users revokedUsers devices, store.Served false userId ids users revokedUsers devices ∧
      (clientTables users revokedUsers devices).Verified root := by
  obtain ⟨trustchain, ids, done, serves⟩ := sound.getUserWithDevicesAndTrustchain_spec false isUser
  obtain ⟨bundle, given, accepts⟩ := verifies userId user false isUser
  cases done.symm.trans given
  obtain ⟨loaded, context, isLoaded, -⟩ :=
    accepts trustchain (.refl _) (.refl _) (.refl _) 0 0 none (.inl rfl)
  have served := serves _ _ _ (.refl _) (.refl _) (.refl _)
  refine ⟨ids, _, _, _, served, ?_⟩
  rw [← bundleTables_eq]
  exact verified_of_loadUserAndDevices (served.agrees sound) isLoaded

/-- The bundle of the user that a certificate is about shows its author's revocation. -/
theorem Sound.datesRespected (sound : store.Sound root) (verifies : store.Verifies root) :
    store.DatesRespected := by
  intro author date signed revokedUser revokedOn isRevoked revokedAt
  cases signed with
  | @user userId user author isUser certifies =>
    obtain ⟨ids, _, _, _, served, verified⟩ := verifies.exists_served sound isUser
    obtain ⟨key, certified, -⟩ := (sound.users userId user isUser).certified
    have endorsed := (verified.users userId _
      ((served.get?_users_iff sound).mpr ⟨user, key, .inl rfl, isUser, certified, rfl⟩)).1
    exact served.date_le sound endorsed certifies
      (served.userAuthors userId user author (.inl rfl) isUser (.inl certifies)) isRevoked revokedAt
  | @device id device author isDevice certifies =>
    obtain ⟨owner, isOwner⟩ := (sound.devices id device isDevice).owned
    obtain ⟨ids, _, _, _, served, verified⟩ := verifies.exists_served sound isOwner
    obtain ⟨key, verifyKey, certified, -⟩ := (sound.devices id device isDevice).certified
    have endorsed := verified.devices id _
      ((served.get?_devices_iff sound).mpr ⟨device, key, verifyKey, .inl rfl, isDevice, certified, rfl⟩)
    exact served.date_le sound endorsed certifies
      (served.deviceAuthors id device author (.inl rfl) isDevice certifies) isRevoked revokedAt
  | @revocation userId user author date isUser certifies dated =>
    obtain ⟨ids, _, _, _, served, verified⟩ := verifies.exists_served sound isUser
    rcases sound.revocations userId user isUser with unrevoked | ⟨other, day, key, revoked, -, -⟩
    · cases unrevoked.certifier.symm.trans certifies
    · cases revoked.certifier.symm.trans certifies
      cases revoked.revokedOn.symm.trans dated
      have endorsed := (verified.revokedUsers userId _ ((served.get?_revokedUsers_iff sound).mpr
        ⟨user, author, date, key, .inl rfl, isUser, revoked, rfl⟩)).1
      exact served.date_le sound endorsed rfl
        (served.userAuthors userId user author (.inl rfl) isUser (.inr certifies)) isRevoked revokedAt

theorem Sound.verifies_iff (sound : store.Sound root) : store.Verifies root ↔ store.DatesRespected :=
  ⟨sound.datesRespected, sound.verifies⟩

end Verifies

section Dates

variable {user : UserRecord} {device : Device}

theorem dateAllowed_createUser (created : store.createUser user device = .ok next)
    (unrevoked : user.revokedOn = none) {author : DeviceID} {date : DateTime} :
    next.DateAllowed author date ↔ store.DateAllowed author date := by
  have users := users_createUser created
  obtain ⟨new, -⟩ := createUser_spec created
  simp only [DateAllowed, users]
  by_cases itself : author.userId = user.userId
  · refine iff_of_true ?_ ?_
    · rintro other revokedOn found revoked
      rw [if_pos itself] at found
      cases found
      cases unrevoked.symm.trans revoked
    · rintro other revokedOn found
      rw [itself, new] at found
      cases found
  · simp [itself]

theorem hasSigned_createUser {key : VerifyKey} {certifier : Option DeviceID}
    {certificate : Signed FullUserCertificateContent} (sound : store.Sound root)
    (created : store.createUser user device = .ok next)
    (accepted : AcceptedUser key certifier certificate user device) {author : DeviceID} {date : DateTime} :
    next.HasSigned author date ↔ store.HasSigned author date ∨
      certifier = some author ∧ date = user.createdOn := by
  have grows := grows_createUser sound created accepted.owner
  have users := users_createUser created
  have devices := device?_createUser created
  obtain ⟨new, -⟩ := createUser_spec created
  have kept {userId : UserID} {other : UserRecord} (found : store.users.get? userId = some other) :
      next.users.get? userId = some other := by
    rw [users, if_neg, found]
    rintro rfl
    rw [new] at found
    cases found
  constructor
  · rintro (⟨found, certifies⟩ | ⟨found, certifies⟩ | ⟨found, certifies, dated⟩)
    · rw [users] at found
      split at found
      · cases found
        exact .inr ⟨accepted.certifier.symm.trans certifies, rfl⟩
      · exact .inl (.user found certifies)
    · rw [devices] at found
      split at found
      · cases found
        exact .inr ⟨accepted.deviceCertifier.symm.trans certifies, accepted.createdOn⟩
      · exact .inl (.device found certifies)
    · rw [users] at found
      split at found
      · cases found
        cases accepted.revokedOn.symm.trans dated
      · exact .inl (.revocation found certifies dated)
  · rintro (signed | ⟨certifies, rfl⟩)
    · cases signed with
      | user found certifies => exact .user (kept found) certifies
      | device found certifies => exact .device (grows.devices _ _ found) certifies
      | revocation found certifies dated => exact .revocation (kept found) certifies dated
    · exact .user (by rw [users, if_pos rfl]) (accepted.certifier.trans certifies)

theorem datesRespected_createUser_iff {key : VerifyKey} {certifier : Option DeviceID}
    {certificate : Signed FullUserCertificateContent} (sound : store.Sound root)
    (created : store.createUser user device = .ok next)
    (accepted : AcceptedUser key certifier certificate user device) (dates : store.DatesRespected) :
    next.DatesRespected ↔ ∀ author, certifier = some author → store.DateAllowed author user.createdOn := by
  simp only [DatesRespected, hasSigned_createUser sound created accepted,
    dateAllowed_createUser created accepted.revokedOn]
  constructor
  · exact fun all author certifies => all author _ (.inr ⟨certifies, rfl⟩)
  · rintro allowed author date (signed | ⟨certifies, rfl⟩)
    · exact dates author date signed
    · exact allowed author certifies

theorem datesRespected_createDevice_iff (created : store.createDevice device = .ok next)
    (dates : store.DatesRespected) : next.DatesRespected ↔
      ∀ author, device.deviceCertifier = some author → store.DateAllowed author device.createdOn := by
  have grows := grows_createDevice created
  obtain ⟨-, new, rfl⟩ := createDevice_spec created
  constructor
  · intro all author certifies
    exact all author _ (.device (by rw [device?_setDevice, if_pos rfl]) certifies)
  · rintro allowed author date (⟨found, certifies⟩ | ⟨found, certifies⟩ | ⟨found, certifies, dated⟩)
    · exact dates author _ (.user found certifies)
    · rw [device?_setDevice] at found
      split at found
      · cases found
        exact allowed author certifies
      · exact dates author _ (.device found certifies)
    · exact dates author _ (.revocation found certifies dated)

section Revocation

variable {content : RevokedUserCertificateContent} {key : VerifyKey} {now : DateTime}

theorem dateAllowed_revokeUser (done : store.revokeUser content.userId ⟨key, some content⟩ content.author
    (some content.timestamp) now = .ok next) {author : DeviceID} {date : DateTime} :
    next.DateAllowed author date ↔
      if author.userId = content.userId then date ≤ content.timestamp else store.DateAllowed author date := by
  obtain ⟨user, isUser, -, users, -, -⟩ := revokeUser_spec done
  simp only [DateAllowed, users, Dict.get?_insert]
  split
  · constructor
    · exact fun all => all _ _ rfl rfl
    · rintro le _ _ ⟨⟩ ⟨⟩
      exact le
  · exact Iff.rfl

theorem hasSigned_revokeUser (done : store.revokeUser content.userId ⟨key, some content⟩ content.author
    (some content.timestamp) now = .ok next) {author : DeviceID} {date : DateTime} :
    next.HasSigned author date ↔ store.HasSigned author date ∨
      content.author = author ∧ date = content.timestamp := by
  obtain ⟨user, isUser, unrevoked, users, devices, -⟩ := revokeUser_spec done
  have users (userId : UserID) : next.users.get? userId = if userId = content.userId then
      some (user.revoke ⟨key, some content⟩ content.author content.timestamp) else
        store.users.get? userId := by
    rw [users, Dict.get?_insert]
  constructor
  · rintro (⟨found, certifies⟩ | ⟨found, certifies⟩ | ⟨found, certifies, dated⟩)
    · rw [users] at found
      split at found
      · cases found
        have signed : store.HasSigned author user.createdOn := .user isUser certifies
        exact .inl signed
      · exact .inl (.user found certifies)
    · exact .inl (.device ((device?_congr devices _).symm.trans found) certifies)
    · rw [users] at found
      split at found
      · cases found
        cases certifies
        cases dated
        exact .inr ⟨rfl, rfl⟩
      · exact .inl (.revocation found certifies dated)
  · rintro (signed | ⟨rfl, rfl⟩)
    · cases signed with
      | @user userId found author isFound certifies =>
        by_cases itself : userId = content.userId
        · subst itself
          cases isUser.symm.trans isFound
          have signed := HasSigned.user ((users content.userId).trans (if_pos rfl)) certifies
          exact signed
        · exact .user (((users userId).trans (if_neg itself)).trans isFound) certifies
      | device found certifies => exact .device ((device?_congr devices _).trans found) certifies
      | @revocation userId found author date isFound certifies dated =>
        by_cases itself : userId = content.userId
        · subst itself
          cases isUser.symm.trans isFound
          cases unrevoked.symm.trans dated
        · exact .revocation (((users userId).trans (if_neg itself)).trans isFound) certifies dated
    · exact .revocation ((users content.userId).trans (if_pos rfl)) rfl rfl

theorem datesRespected_revokeUser_iff (done : store.revokeUser content.userId ⟨key, some content⟩
    content.author (some content.timestamp) now = .ok next) (foreign : content.author.userId ≠ content.userId)
    (dates : store.DatesRespected) : next.DatesRespected ↔
      store.DateAllowed content.author content.timestamp ∧ ∀ author date, store.HasSigned author date →
        author.userId = content.userId → date ≤ content.timestamp := by
  simp only [DatesRespected, hasSigned_revokeUser done, dateAllowed_revokeUser done]
  constructor
  · intro all
    refine ⟨?_, fun author date signed is => ?_⟩
    · have own := all content.author _ (.inr ⟨rfl, rfl⟩)
      rwa [if_neg foreign] at own
    · have before := all author date (.inl signed)
      rwa [if_pos is] at before
  · rintro ⟨own, before⟩ author date (signed | ⟨rfl, rfl⟩)
    · split
      · next is => exact before author date signed is
      · exact dates author date signed
    · rwa [if_neg foreign]

end Revocation

end Dates

/-- Nobody is registered. -/
structure Vacant (store : OrganizationStore) : Prop where
  users : ∀ userId, store.users.get? userId = none
  devices : ∀ id, store.device? id = none

theorem Vacant.sound (vacant : store.Vacant) : store.Sound root := by
  refine ⟨fun userId user found => ?_, fun id device found => ?_, fun userId user found => ?_, fun _ => 0,
    fun id device author found => ?_⟩
  · cases (vacant.users userId).symm.trans found
  · cases (vacant.devices id).symm.trans found
  · cases (vacant.users userId).symm.trans found
  · cases (vacant.devices id).symm.trans found

theorem Vacant.datesRespected (vacant : store.Vacant) : store.DatesRespected := by
  rintro author date (⟨found, -⟩ | ⟨found, -⟩ | ⟨found, -, -⟩)
  · cases (vacant.users _).symm.trans found
  · cases (vacant.devices _).symm.trans found
  · cases (vacant.users _).symm.trans found

end OrganizationStore

namespace UserBackend

variable {backend served : UserBackend} {now : DateTime}

/-- An organization has been bootstrapped with a root key. -/
def RootKey (backend : UserBackend) (id : OrganizationID) (root : VerifyKey) : Prop :=
  ∃ organization, backend.organization.organizations.get? id = some organization ∧
    organization.rootVerifyKey = some root

/-- The stores are sound under the root keys, and vacant without one. -/
structure Sound (backend : UserBackend) : Prop where
  named : ∀ id organization, backend.organization.organizations.get? id = some organization →
    organization.organizationId = id
  vacant : ∀ id, (∀ root, ¬ backend.RootKey id root) → (backend.user.store id).Vacant
  stores : ∀ id root, backend.RootKey id root → (backend.user.store id).Sound root

/-- The client accepts every bundle that the backend serves of an organization with a root key. -/
def EveryUserVerifies (backend : UserBackend) : Prop :=
  ∀ id root, backend.RootKey id root → (backend.user.store id).Verifies root

/-- No new certificate is dated after the recorded revocation of its author, and a revocation is not dated
before anything that the revoked user has signed. -/
def RespectsDates (backend : UserBackend) : UserRequest → Prop
  | .userCreate answer msg => ∀ content, msg.userCertificate.payload = some content →
      (backend.user.store answer.organizationId).DateAllowed answer.deviceId content.timestamp
  | .deviceCreate answer msg => ∀ content, msg.deviceCertificate.payload = some content →
      (backend.user.store answer.organizationId).DateAllowed answer.deviceId content.timestamp
  | .userRevoke answer certificate => ∀ content, certificate.payload = some content →
      (backend.user.store answer.organizationId).DateAllowed answer.deviceId content.timestamp ∧
      ∀ author date, (backend.user.store answer.organizationId).HasSigned author date →
        author.userId = content.userId → date ≤ content.timestamp
  | _ => True

theorem Sound.everyUserVerifies_iff (sound : backend.Sound) : backend.EveryUserVerifies ↔
    ∀ id root, backend.RootKey id root → (backend.user.store id).DatesRespected :=
  forall₂_congr fun id root => forall_congr' fun isRoot => (sound.stores id root isRoot).verifies_iff

/-- Whoever is connected signs with a key that the store backs. -/
theorem Connected.backs {answer : HandshakeAuthenticatedAnswer} {user : UserRecord} {device : Device}
    {key : VerifyKey} (connected : backend.Connected answer now user device key) {root : VerifyKey}
    (sound : (backend.user.store answer.organizationId).Sound root) {subject : UserID}
    (entitled : answer.deviceId.userId ≠ subject → user.profile = .admin) :
    (backend.user.store answer.organizationId).Backs root (some answer.deviceId) key subject := by
  obtain ⟨signer, verifyKey, certified, -⟩ := (sound.devices _ device connected.isDevice).certified
  obtain rfl := certified.verifyKey_eq connected.isKey
  exact .inr ⟨answer.deviceId, device, signer, rfl, connected.isDevice, certified,
    fun foreign => ⟨user, connected.isUser, entitled foreign⟩⟩

/-- A request of a connected device changes the store of its organization only. -/
theorem Sound.replaces (sound : backend.Sound) {id : OrganizationID} {store : OrganizationStore}
    (stores : backend.Replaces served id store) {answer : HandshakeAuthenticatedAnswer}
    {user : UserRecord} {device : Device} {key : VerifyKey} (isId : answer.organizationId = id)
    (connected : backend.Connected answer now user device key)
    (soundStore : ∀ root, backend.RootKey id root → store.Sound root) : served.Sound := by
  obtain ⟨organizations, stores⟩ := stores
  have keys (other : OrganizationID) (root : VerifyKey) : served.RootKey other root ↔
      backend.RootKey other root := by
    rw [RootKey, RootKey, organizations]
  refine ⟨?_, fun other none => ?_, fun other root isRoot => ?_⟩
  · rw [organizations]
    exact sound.named
  · rw [stores]
    split
    · next same =>
      obtain ⟨organization, found, root⟩ := connected.organization
      exact absurd ((keys other answer.rvk).mpr ⟨organization, same ▸ isId ▸ found, root⟩) (none answer.rvk)
    · exact sound.vacant other fun root is => none root ((keys other root).mpr is)
  · rw [stores]
    split
    · next same => exact soundStore root (same ▸ (keys other root).mp isRoot)
    · exact sound.stores other root ((keys other root).mp isRoot)

theorem everyUserVerifies_iff_of_replaces (sound : served.Sound) {id : OrganizationID}
    {store : OrganizationStore} (stores : backend.Replaces served id store) {root : VerifyKey}
    (isRoot : backend.RootKey id root)
    (before : ∀ id root, backend.RootKey id root → (backend.user.store id).DatesRespected) :
    served.EveryUserVerifies ↔ store.DatesRespected := by
  rw [sound.everyUserVerifies_iff]
  obtain ⟨organizations, stores⟩ := stores
  simp only [stores, RootKey, organizations]
  constructor
  · intro all
    have here := all id root isRoot
    rwa [if_pos rfl] at here
  · intro here other otherRoot isOther
    split
    · exact here
    · exact before other otherRoot isOther

/-- An organization that is bootstrapped was vacant. -/
theorem Sound.vacant_of_fresh (sound : backend.Sound) {id : OrganizationID} {organization : Organization}
    (found : backend.organization.organizations.get? id = some organization)
    (fresh : organization.rootVerifyKey = none) : (backend.user.store id).Vacant := by
  refine sound.vacant id ?_
  rintro root ⟨other, isOther, isRoot⟩
  cases found.symm.trans isOther
  cases fresh.symm.trans isRoot

/-- The root keys after an organization was entered. -/
theorem rootKey_insert {id : OrganizationID} {organization : Organization}
    (entered : served.organization.organizations = backend.organization.organizations.insert id organization)
    (other : OrganizationID) (root : VerifyKey) : served.RootKey other root ↔
      if other = id then organization.rootVerifyKey = some root else backend.RootKey other root := by
  rw [RootKey, entered]
  simp only [Dict.get?_insert]
  split
  · simp
  · exact Iff.rfl

theorem Accepted.sound {request : UserRequest} (accepted : backend.Accepted now request served)
    (sound : backend.Sound) : served.Sound := by
  cases accepted with
  | @organizationCreate id _ _ _ fresh created same =>
    have keys := rootKey_insert created
    refine ⟨fun other organization found => ?_, fun other none => ?_, fun other root isRoot => ?_⟩
    · rw [created, Dict.get?_insert] at found
      split at found
      · next itself =>
        cases found
        exact itself.symm
      · exact sound.named other organization found
    · rw [same]
      refine sound.vacant other fun root isRoot => none root ((keys other root).mpr ?_)
      split
      · next itself =>
        obtain ⟨organization, found, known⟩ := isRoot
        cases (fresh organization (itself ▸ found)).symm.trans known
      · exact isRoot
    · have isRoot := (keys other root).mp isRoot
      split at isRoot
      · cases isRoot
      · rw [same]
        exact sound.stores other root isRoot
  | @organizationBootstrap id msg _ organization user device store found fresh bootstrapped admin accepted
      created stores =>
    have vacant := sound.vacant_of_fresh found fresh
    obtain rfl := sound.named id organization found
    have keys := rootKey_insert bootstrapped
    refine ⟨fun other known isKnown => ?_, fun other none => ?_, fun other root isRoot => ?_⟩
    · rw [bootstrapped, Dict.get?_insert] at isKnown
      split at isKnown
      · next itself =>
        cases isKnown
        exact itself.symm
      · exact sound.named other known isKnown
    · rw [stores]
      split
      · next itself => exact absurd ((keys other msg.rootVerifyKey).mpr (if_pos itself ▸ rfl)) (none _)
      · next foreign =>
        exact sound.vacant other fun root isRoot => none root
          ((keys other root).mpr (by rwa [if_neg foreign]))
    · have isRoot := (keys other root).mp isRoot
      rw [stores]
      split at isRoot
      · next itself =>
        rw [if_pos itself]
        cases isRoot
        exact vacant.sound.createUser created accepted (.inl ⟨rfl, rfl⟩)
      · next foreign =>
        rw [if_neg foreign]
        exact sound.stores other root isRoot
  | userCreate connected admin accepted created stores =>
    refine sound.replaces stores rfl connected fun root isRoot => ?_
    have before := sound.stores _ root isRoot
    exact before.createUser created accepted (connected.backs before fun _ => admin)
  | deviceCreate connected payload date certifier owner certified created stores =>
    refine sound.replaces stores rfl connected fun root isRoot => ?_
    have before := sound.stores _ root isRoot
    refine before.createDevice created certified ?_
    rw [certifier]
    exact connected.backs before fun foreign => absurd owner.symm foreign
  | userRevoke connected admin authored foreign revoked stores =>
    refine sound.replaces stores rfl connected fun root isRoot => ?_
    have before := sound.stores _ root isRoot
    rw [← authored] at revoked foreign
    refine before.revokeUser revoked (fun same => foreign same.symm) ?_
    rw [authored]
    exact connected.backs before fun _ => admin

theorem Accepted.everyUserVerifies_iff {request : UserRequest}
    (accepted : backend.Accepted now request served) (sound : backend.Sound)
    (verifies : backend.EveryUserVerifies) : served.EveryUserVerifies ↔ backend.RespectsDates request := by
  have soundNext := accepted.sound sound
  have before := sound.everyUserVerifies_iff.mp verifies
  cases accepted with
  | @organizationCreate id _ _ _ fresh created same =>
    refine iff_of_true (soundNext.everyUserVerifies_iff.mpr fun other root isRoot => ?_) trivial
    have isRoot := (rootKey_insert created other root).mp isRoot
    split at isRoot
    · cases isRoot
    · rw [same]
      exact before other root isRoot
  | @organizationBootstrap id msg _ organization user device store found fresh bootstrapped admin accepted
      created stores =>
    have vacant := sound.vacant_of_fresh found fresh
    obtain rfl := sound.named id organization found
    refine iff_of_true (soundNext.everyUserVerifies_iff.mpr fun other root isRoot => ?_) trivial
    have isRoot := (rootKey_insert bootstrapped other root).mp isRoot
    rw [stores]
    split
    · have soundVacant : (backend.user.store organization.organizationId).Sound root := vacant.sound
      exact (OrganizationStore.datesRespected_createUser_iff soundVacant created accepted
        vacant.datesRespected).mpr (by simp)
    · next foreign =>
      rw [if_neg foreign] at isRoot
      exact before other root isRoot
  | @userCreate answer msg _ _ _ _ user _ _ connected admin accepted created stores =>
    have isRoot : backend.RootKey answer.organizationId answer.rvk := connected.organization
    rw [everyUserVerifies_iff_of_replaces soundNext stores isRoot before,
      OrganizationStore.datesRespected_createUser_iff (sound.stores _ _ isRoot) created accepted
        (before _ _ isRoot)]
    obtain ⟨content, payload, -, -, date⟩ := accepted.declared
    constructor
    · intro allowed other isOther
      cases payload.symm.trans isOther
      rw [date]
      exact allowed _ rfl
    · rintro respects _ ⟨⟩
      rw [← date]
      exact respects content payload
  | @deviceCreate answer msg _ _ _ _ _ device content _ connected payload date certifier owner certified created
      stores =>
    have isRoot : backend.RootKey answer.organizationId answer.rvk := connected.organization
    rw [everyUserVerifies_iff_of_replaces soundNext stores isRoot before,
      OrganizationStore.datesRespected_createDevice_iff created (before _ _ isRoot), certifier]
    constructor
    · intro allowed other isOther
      cases payload.symm.trans isOther
      rw [date]
      exact allowed _ rfl
    · rintro respects _ ⟨⟩
      rw [← date]
      exact respects content payload
  | @userRevoke answer _ _ _ _ content _ connected admin authored foreign revoked stores =>
    have isRoot : backend.RootKey answer.organizationId answer.rvk := connected.organization
    rw [← authored] at revoked
    rw [everyUserVerifies_iff_of_replaces soundNext stores isRoot before,
      OrganizationStore.datesRespected_revokeUser_iff revoked
        (fun same => foreign (same.symm.trans (congrArg DeviceID.userId authored)))
          (before _ _ isRoot), authored]
    constructor
    · rintro allowed other ⟨⟩
      exact allowed
    · exact fun respects => respects content rfl

theorem sound_init (start : DateTime) : Sound { clock := start } := by
  refine ⟨nofun, fun id _ => ⟨fun _ => rfl, fun _ => rfl⟩, ?_⟩
  rintro id root ⟨organization, found, -⟩
  cases found

end UserBackend

/-- In every state that a run of accepted requests goes through, every registered user verifies on a client
with an empty cache, exactly if the run never dates a certificate after the revocation of its author, be it
that the certificate or that the revocation comes later. -/
theorem served_users_verify_iff (start : DateTime) (events : List (DateTime × UserRequest)) :
    Along UserBackend.step? (fun _ _ next => next.EveryUserVerifies) { clock := start } events ↔
      Along UserBackend.step? (fun backend event _ => backend.RespectsDates event.2) { clock := start }
        events := by
  have agree (backend : UserBackend) (event : DateTime × UserRequest) (next : UserBackend)
      (holds : backend.Sound ∧ backend.EveryUserVerifies) (step : backend.step? event = some next) :
      next.EveryUserVerifies ↔ backend.RespectsDates event.2 := by
    obtain ⟨served, -, accepted, rfl⟩ := UserBackend.step?_spec step
    exact accepted.everyUserVerifies_iff holds.1 holds.2
  refine along_congr (fun backend => backend.Sound ∧ backend.EveryUserVerifies) agree ?_
    ⟨UserBackend.sound_init start, ?_⟩ events
  · intro backend event next holds step respects
    refine ⟨?_, (agree backend event next holds step).mpr respects⟩
    obtain ⟨served, -, accepted, rfl⟩ := UserBackend.step?_spec step
    have sound := accepted.sound holds.1
    exact ⟨sound.named, sound.vacant, sound.stores⟩
  · rintro id root ⟨organization, found, -⟩
    cases found

section Example

private def bobLaptop : DeviceID := ⟨"bob", "laptop"⟩

/-- The clock of Bob is ten minutes ahead when he creates Carol; Alice revokes him right afterwards. -/
private def clockAhead : List (DateTime × UserRequest) :=
  let alice := newcomer 0 none 0 "alice" "alice@example.com" .admin 1
  [(0, .organizationCreate "org" "token" none),
    (0, .organizationBootstrap "org" ⟨"token", ⟨0⟩, alice.userCertificate, alice.deviceCertificate,
      none, none⟩),
    (1, .userCreate fromAlice (newcomer 1 (some alicesLaptop) 1 "bob" "bob@example.com" .admin 2)),
    (2, .userCreate { fromAlice with deviceId := bobLaptop }
      (newcomer 2 (some bobLaptop) 600000000 "carol" "carol@example.com" .standard 3)),
    (3, .userRevoke fromAlice ⟨⟨1⟩, some ⟨alicesLaptop, 3, "bob"⟩⟩)]

/-- Carol's certificate is dated after the revocation of Bob, who was active when he signed it. -/
theorem created_before_revocation_refused :
    ∃ final, run? UserBackend.step? { clock := 0 } clockAhead = some final ∧ ¬ final.EveryUserVerifies := by
  refine ⟨_, rfl, fun verifies => ?_⟩
  obtain ⟨bundle, given, accepts⟩ := verifies "org" ⟨0⟩ ⟨_, rfl, rfl⟩ "carol" _ false rfl
  cases given
  obtain ⟨loaded, context, isLoaded, -⟩ := accepts _ (.refl _) (.refl _) (.refl _) 0 0 none (.inl rfl)
  cases isLoaded

end Example

end Guardata
