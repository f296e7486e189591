import Guardata.Model.UserRequests
import Guardata.Proofs.UserComponent

/-! # What the requests that create and revoke users have checked

A record is certified if its certificates, the full one and the redacted one, say what the record says and
carry the signature of one key. For each request there is one statement of what holds when it is accepted:
who sent it, the records that it makes and what becomes of the store of its organization.
-/

namespace Guardata

/-- What the trustchain looks at of the certificates of a user. -/
def UserRecord.content (user : UserRecord) : UserCertificateContent :=
  ⟨user.userCertifier, user.createdOn, user.userId, user.profile⟩

def UserRecord.Certified (user : UserRecord) (key : VerifyKey) : Prop :=
  ∀ redacted, (user.certificate redacted).map (·.toUserCertificateContent) = ⟨key, some user.content⟩

/-- What the trustchain looks at of the certificates of a device with some key. -/
def Device.content (device : Device) (verifyKey : VerifyKey) : DeviceCertificateContent :=
  ⟨device.deviceCertifier, device.createdOn, device.deviceId, verifyKey⟩

def Device.Certified (device : Device) (key verifyKey : VerifyKey) : Prop :=
  ∀ redacted, (device.certificate redacted).map (·.toDeviceCertificateContent) =
    ⟨key, some (device.content verifyKey)⟩

theorem Device.Certified.verifyKey_eq {device : Device} {key verifyKey found : VerifyKey}
    (certified : device.Certified key verifyKey) (known : device.verifyKey = .ok found) :
    verifyKey = found := by
  have full := certified false
  simp only [Device.verifyKey, Except.map_eq_ok_iff, Signed.unsecureLoad_eq_ok_iff] at known
  obtain ⟨content, payload, rfl⟩ := known
  simp only [Device.certificate, Bool.false_eq_true, ↓reduceIte, Signed.map, payload, Option.map_some,
    Signed.mk.injEq, Option.some.injEq] at full
  rw [full.2]
  rfl

theorem UserRecord.Certified.key_eq {user : UserRecord} {key other : VerifyKey} (first : user.Certified key)
    (second : user.Certified other) : key = other :=
  congrArg Signed.signer ((first true).symm.trans (second true))

theorem Device.Certified.keys_eq {device : Device} {key other verifyKey otherKey : VerifyKey}
    (first : device.Certified key verifyKey) (second : device.Certified other otherKey) :
    key = other ∧ verifyKey = otherKey := by
  have same := (first true).symm.trans (second true)
  simp only [Signed.mk.injEq, Option.some.injEq, Device.content, DeviceCertificateContent.mk.injEq,
    true_and] at same
  exact same

/-- The records of a new user and its first device, from certificates that `author` signed with a key. -/
structure AcceptedUser (key : VerifyKey) (author : Option DeviceID)
    (certificate : Signed FullUserCertificateContent) (user : UserRecord) (device : Device) : Prop where
  declared : ∃ content, certificate.payload = some content ∧ content.userId = user.userId ∧
    content.humanHandle = user.humanHandle ∧ content.timestamp = user.createdOn
  certifier : user.userCertifier = author
  deviceCertifier : device.deviceCertifier = author
  owner : device.deviceId.userId = user.userId
  createdOn : device.createdOn = user.createdOn
  revokedOn : user.revokedOn = none
  revokedUserCertificate : user.revokedUserCertificate = none
  revokedUserCertifier : user.revokedUserCertifier = none
  certified : user.Certified key
  deviceCertified : ∃ verifyKey, device.Certified key verifyKey

section Certificates

variable {key : VerifyKey} {author : Option DeviceID}

theorem verifyUserCertificate_eq_ok_iff {certificate : Signed FullUserCertificateContent}
    {content : FullUserCertificateContent} :
    verifyUserCertificate key author certificate = .ok content ↔
      certificate.signer = key ∧ certificate.payload = some content ∧ content.author = author := by
  rw [verifyUserCertificate, Except.mapError_eq_ok_iff, Signed.verifyAndLoad_eq_ok_iff]

theorem verifyDeviceCertificate_eq_ok_iff {certificate : Signed FullDeviceCertificateContent}
    {content : FullDeviceCertificateContent} :
    verifyDeviceCertificate key author certificate = .ok content ↔
      certificate.signer = key ∧ certificate.payload = some content ∧ content.author = author := by
  rw [verifyDeviceCertificate, Except.mapError_eq_ok_iff, Signed.verifyAndLoad_eq_ok_iff]

theorem checkRedactedUser_spec {redacted full : FullUserCertificateContent} {done : Unit}
    (accepted : checkRedactedUser redacted full = .ok done) :
    redacted.toUserCertificateContent = full.toUserCertificateContent := by
  simp only [checkRedactedUser, Except.bind_eq_ok_iff, Except.require_eq_ok_iff] at accepted
  obtain ⟨-, same, -⟩ := accepted
  exact congrArg (·.toUserCertificateContent) same

theorem checkRedactedDevice_spec {redacted full : FullDeviceCertificateContent} {done : Unit}
    (accepted : checkRedactedDevice redacted full = .ok done) :
    redacted.toDeviceCertificateContent = full.toDeviceCertificateContent := by
  simp only [checkRedactedDevice, Except.bind_eq_ok_iff, Except.require_eq_ok_iff] at accepted
  obtain ⟨-, same, -⟩ := accepted
  exact congrArg (·.toDeviceCertificateContent) same

theorem certified_newUser {content other : FullUserCertificateContent}
    {certificate redacted : Signed FullUserCertificateContent}
    (full : verifyUserCertificate key author certificate = .ok content)
    (second : verifyUserCertificate key author redacted = .ok other)
    (same : other.toUserCertificateContent = content.toUserCertificateContent) :
    (newUser content certificate redacted).Certified key := by
  obtain ⟨signer, payload, -⟩ := verifyUserCertificate_eq_ok_iff.mp full
  obtain ⟨otherSigner, otherPayload, -⟩ := verifyUserCertificate_eq_ok_iff.mp second
  intro which
  cases which
  · simp [UserRecord.certificate, newUser, Signed.map, signer, payload, UserRecord.content]
  · simp [UserRecord.certificate, newUser, Signed.map, otherSigner, otherPayload, same, UserRecord.content]

theorem certified_newDevice {content other : FullDeviceCertificateContent}
    {certificate redacted : Signed FullDeviceCertificateContent}
    (full : verifyDeviceCertificate key author certificate = .ok content)
    (second : verifyDeviceCertificate key author redacted = .ok other)
    (same : other.toDeviceCertificateContent = content.toDeviceCertificateContent) :
    (newDevice content certificate redacted).Certified key content.verifyKey := by
  obtain ⟨signer, payload, -⟩ := verifyDeviceCertificate_eq_ok_iff.mp full
  obtain ⟨otherSigner, otherPayload, -⟩ := verifyDeviceCertificate_eq_ok_iff.mp second
  intro which
  cases which
  · simp [Device.certificate, newDevice, Signed.map, signer, payload, Device.content]
  · simp [Device.certificate, newDevice, Signed.map, otherSigner, otherPayload, same, Device.content]

theorem acceptedUser_of_verified {content other : FullUserCertificateContent}
    {deviceContent otherDevice : FullDeviceCertificateContent}
    {certificate redacted : Signed FullUserCertificateContent}
    {deviceCertificate redactedDevice : Signed FullDeviceCertificateContent}
    (verified : verifyUserCertificate key author certificate = .ok content)
    (deviceVerified : verifyDeviceCertificate key author deviceCertificate = .ok deviceContent)
    (otherVerified : verifyUserCertificate key author redacted = .ok other)
    (same : other.toUserCertificateContent = content.toUserCertificateContent)
    (otherDeviceVerified : verifyDeviceCertificate key author redactedDevice = .ok otherDevice)
    (sameDevice : otherDevice.toDeviceCertificateContent = deviceContent.toDeviceCertificateContent)
    (sameDate : content.timestamp = deviceContent.timestamp)
    (owner : content.userId = deviceContent.deviceId.userId) :
    AcceptedUser key author certificate (newUser content certificate redacted)
      (newDevice deviceContent deviceCertificate redactedDevice) := by
  obtain ⟨-, payload, authored⟩ := verifyUserCertificate_eq_ok_iff.mp verified
  obtain ⟨-, -, deviceAuthored⟩ := verifyDeviceCertificate_eq_ok_iff.mp deviceVerified
  exact {
    declared := ⟨content, payload, rfl, rfl, rfl⟩
    certifier := authored
    deviceCertifier := deviceAuthored
    owner := owner.symm
    createdOn := sameDate.symm
    revokedOn := rfl
    revokedUserCertificate := rfl
    revokedUserCertifier := rfl
    certified := certified_newUser verified otherVerified same
    deviceCertified := ⟨_, certified_newDevice deviceVerified otherDeviceVerified sameDevice⟩ }

/-- Without a redacted certificate, the full one stands for it. -/
theorem optional_spec {α β γ ε : Type} {verify : α → Except ε β} {check : β → Except ε Unit} (part : β → γ)
    {option : Option α} {certificate : α} {content : β} {loaded : Option β} {done : PUnit}
    (full : verify certificate = .ok content) (read : option.mapM verify = .ok loaded)
    (checked : loaded.forM check = .ok done)
    (spec : ∀ other, check other = .ok () → part other = part content) :
    ∃ other, verify (option.getD certificate) = .ok other ∧ part other = part content := by
  cases option with
  | none => exact ⟨content, full, rfl⟩
  | some redacted =>
    cases verified : verify redacted with
    | error err => simp [Option.mapM_some, verified, Functor.map, Except.map] at read
    | ok other =>
      have same : some other = loaded := by simpa [Option.mapM_some, verified, Functor.map,
        Except.map] using read
      subst same
      exact ⟨other, verified, spec other checked⟩

end Certificates

namespace MemoryUserComponent

variable {component next : MemoryUserComponent} {ctx : ClientContext} {now : DateTime}

theorem createUser_spec {organizationId : OrganizationID} {user : UserRecord} {device : Device}
    (created : component.createUser organizationId user device = .ok next) :
    ∃ store, (component.store organizationId).createUser user device = .ok store ∧
      ∀ other, next.store other = if other = organizationId then store else component.store other :=
  within_spec created

theorem apiUserCreate_spec {msg : UserCreateReq}
    (accepted : component.apiUserCreate ctx msg now = .ok next) : ctx.profile = .admin ∧
      ∃ user device, AcceptedUser ctx.verifyKey (some ctx.deviceId) msg.userCertificate user device ∧
        component.createUser ctx.organizationId user device = .ok next := by
  simp only [apiUserCreate, Except.bind_eq_ok_iff, Except.require_eq_ok_iff, exists_const,
    Except.mapError_eq_ok_iff] at accepted
  obtain ⟨admin, deviceContent, deviceVerified, content, verified, redacted, redactedVerified,
    redactedDevice, redactedDeviceVerified, sameDate, -, owner, done, same, done', sameDevice, created⟩ :=
    accepted
  exact ⟨admin, _, _, acceptedUser_of_verified verified deviceVerified redactedVerified
    (checkRedactedUser_spec same) redactedDeviceVerified (checkRedactedDevice_spec sameDevice) sameDate
    owner, created⟩

theorem createDevice_spec {organizationId : OrganizationID} {device : Device}
    (created : component.createDevice organizationId device = .ok next) :
    ∃ store, (component.store organizationId).createDevice device = .ok store ∧
      ∀ other, next.store other = if other = organizationId then store else component.store other :=
  within_spec created

theorem apiDeviceCreate_spec {msg : DeviceCreateReq}
    (accepted : component.apiDeviceCreate ctx msg now = .ok next) :
    ∃ device content, msg.deviceCertificate.payload = some content ∧ content.timestamp = device.createdOn ∧
      device.deviceCertifier = some ctx.deviceId ∧ device.deviceId.userId = ctx.deviceId.userId ∧
      (∃ verifyKey, device.Certified ctx.verifyKey verifyKey) ∧
      component.createDevice ctx.organizationId device = .ok next := by
  simp only [apiDeviceCreate, Except.bind_eq_ok_iff, Except.require_eq_ok_iff, exists_const,
    Except.mapError_eq_ok_iff] at accepted
  obtain ⟨content, verified, redacted, redactedVerified, -, owner, done, same, created⟩ := accepted
  obtain ⟨-, payload, authored⟩ := verifyDeviceCertificate_eq_ok_iff.mp verified
  obtain ⟨other, otherVerified, sameContent⟩ := optional_spec (·.toDeviceCertificateContent) verified
    redactedVerified same fun _ => checkRedactedDevice_spec
  exact ⟨_, content, payload, rfl, authored, owner,
    ⟨_, certified_newDevice verified otherVerified sameContent⟩, created⟩

theorem apiUserRevoke_spec {certificate : Signed RevokedUserCertificateContent}
    (accepted : component.apiUserRevoke ctx certificate now = .ok next) : ctx.profile = .admin ∧
      ∃ content, certificate = ⟨ctx.verifyKey, some content⟩ ∧ content.author = ctx.deviceId ∧
        content.userId ≠ ctx.deviceId.userId ∧ ∃ store,
          (component.store ctx.organizationId).revokeUser content.userId certificate ctx.deviceId
            (some content.timestamp) now = .ok store ∧
          ∀ other, next.store other =
            if other = ctx.organizationId then store else component.store other := by
  simp only [apiUserRevoke, Except.bind_eq_ok_iff, Except.require_eq_ok_iff, exists_const,
    Except.mapError_eq_ok_iff, Signed.verifyAndLoad_eq_ok_iff, Option.some.injEq] at accepted
  obtain ⟨admin, content, ⟨signer, payload, authored⟩, -, foreign, revoked⟩ := accepted
  rw [authored] at revoked
  refine ⟨admin, content, ?_, authored, foreign, within_spec revoked⟩
  rw [← signer, ← payload]

end MemoryUserComponent

namespace UserBackend

variable {backend next : UserBackend} {now : DateTime}

/-- Who is at the other end of a connection. -/
structure Connected (backend : UserBackend) (answer : HandshakeAuthenticatedAnswer) (now : DateTime)
    (user : UserRecord) (device : Device) (key : VerifyKey) : Prop where
  organization : ∃ organization,
    backend.organization.organizations.get? answer.organizationId = some organization ∧
    organization.rootVerifyKey = some answer.rvk
  isUser : (backend.user.store answer.organizationId).users.get? answer.deviceId.userId = some user
  isDevice : (backend.user.store answer.organizationId).device? answer.deviceId = some device
  active : user.isRevoked now = false
  isKey : device.verifyKey = .ok key

theorem processAuthenticatedAnswer_spec {answer : HandshakeAuthenticatedAnswer} {ctx : ClientContext}
    (opened : backend.processAuthenticatedAnswer answer now = .ok ctx) :
    ∃ user device key, backend.Connected answer now user device key ∧
      ctx = ⟨answer.organizationId, answer.deviceId, user.profile, key⟩ := by
  simp only [processAuthenticatedAnswer, Except.bind_eq_ok_iff, Except.require_eq_ok_iff, exists_const,
    Except.mapError_eq_ok_iff, Except.pure_eq_ok_iff, MemoryOrganizationComponent.get, Option.elim_eq_ok_iff,
    OrganizationStore.getUser_eq_ok_iff, OrganizationStore.getDevice_eq_ok_iff, Bool.not_eq_true] at opened
  obtain ⟨organization, found, user, isUser, device, isDevice, root, -, active, key, known, rfl⟩ := opened
  exact ⟨user, device, key, ⟨⟨organization, found, root⟩, isUser, isDevice, active, known⟩, rfl⟩

theorem apiOrganizationBootstrap_spec {id : OrganizationID} {msg : OrganizationBootstrapReq}
    (accepted : backend.apiOrganizationBootstrap id msg now = .ok next) :
    ∃ organization user device, backend.organization.organizations.get? id = some organization ∧
      organization.rootVerifyKey = none ∧ user.profile = .admin ∧
      AcceptedUser msg.rootVerifyKey none msg.userCertificate user device ∧
      next.organization.organizations = backend.organization.organizations.insert organization.organizationId
        { organization with rootVerifyKey := some msg.rootVerifyKey } ∧
      next.clock = backend.clock ∧ backend.user.createUser id user device = .ok next.user := by
  simp only [apiOrganizationBootstrap, bootstrap, Except.bind_eq_ok_iff, Except.require_eq_ok_iff,
    exists_const, Except.mapError_eq_ok_iff, Except.pure_eq_ok_iff, MemoryOrganizationComponent.get,
    Option.elim_eq_ok_iff, Organization.isBootstrapped, Bool.not_eq_true, Option.isSome_eq_false_iff,
    Option.isNone_iff_eq_none] at accepted
  obtain ⟨content, verified, deviceContent, deviceVerified, redacted, redactedVerified, redactedDevice,
    redactedDeviceVerified, admin, sameDate, owner, -, done, same, done', sameDevice, -, organization, found,
    fresh, -, component, created, rfl⟩ := accepted
  obtain ⟨other, otherVerified, sameContent⟩ := optional_spec (·.toUserCertificateContent) verified
    redactedVerified same fun _ => checkRedactedUser_spec
  obtain ⟨otherDevice, otherDeviceVerified, sameDeviceContent⟩ := optional_spec
    (·.toDeviceCertificateContent) deviceVerified redactedDeviceVerified sameDevice
    fun _ => checkRedactedDevice_spec
  exact ⟨organization, _, _, found, fresh, admin, acceptedUser_of_verified verified deviceVerified
    otherVerified sameContent otherDeviceVerified sameDeviceContent sameDate owner, rfl, rfl, created⟩

/-- The store of one organization is replaced, the others stay. -/
def Replaces (backend next : UserBackend) (organizationId : OrganizationID) (store : OrganizationStore) :
    Prop :=
  next.organization = backend.organization ∧
    ∀ other, next.user.store other = if other = organizationId then store else backend.user.store other

/-- What an accepted request has checked and what it does. -/
inductive Accepted (backend : UserBackend) (now : DateTime) : UserRequest → UserBackend → Prop
  | organizationCreate {id : OrganizationID} {bootstrapToken : String} {expirationDate : Option DateTime}
      {next : UserBackend}
      (fresh : ∀ organization, backend.organization.organizations.get? id = some organization →
        organization.rootVerifyKey = none)
      (created : next.organization.organizations = backend.organization.organizations.insert id
        { organizationId := id, bootstrapToken := bootstrapToken, expirationDate := expirationDate })
      (same : next.user = backend.user) :
      Accepted backend now (.organizationCreate id bootstrapToken expirationDate) next
  | organizationBootstrap {id : OrganizationID} {msg : OrganizationBootstrapReq} {next : UserBackend}
      {organization : Organization} {user : UserRecord} {device : Device} {store : OrganizationStore}
      (found : backend.organization.organizations.get? id = some organization)
      (fresh : organization.rootVerifyKey = none)
      (bootstrapped : next.organization.organizations =
        backend.organization.organizations.insert organization.organizationId
          { organization with rootVerifyKey := some msg.rootVerifyKey })
      (admin : user.profile = .admin)
      (accepted : AcceptedUser msg.rootVerifyKey none msg.userCertificate user device)
      (created : (backend.user.store id).createUser user device = .ok store)
      (stores : ∀ other, next.user.store other = if other = id then store else backend.user.store other) :
      Accepted backend now (.organizationBootstrap id msg) next
  | userCreate {answer : HandshakeAuthenticatedAnswer} {msg : UserCreateReq} {next : UserBackend}
      {author : UserRecord} {authorDevice : Device} {key : VerifyKey} {user : UserRecord} {device : Device}
      {store : OrganizationStore} (connected : backend.Connected answer now author authorDevice key)
      (admin : author.profile = .admin)
      (accepted : AcceptedUser key (some answer.deviceId) msg.userCertificate user device)
      (created : (backend.user.store answer.organizationId).createUser user device = .ok store)
      (stores : backend.Replaces next answer.organizationId store) :
      Accepted backend now (.userCreate answer msg) next
  | deviceCreate {answer : HandshakeAuthenticatedAnswer} {msg : DeviceCreateReq} {next : UserBackend}
      {author : UserRecord} {authorDevice : Device} {key verifyKey : VerifyKey} {device : Device}
      {content : FullDeviceCertificateContent} {store : OrganizationStore}
      (connected : backend.Connected answer now author authorDevice key)
      (payload : msg.deviceCertificate.payload = some content) (date : content.timestamp = device.createdOn)
      (certifier : device.deviceCertifier = some answer.deviceId)
      (owner : device.deviceId.userId = answer.deviceId.userId)
      (certified : device.Certified key verifyKey)
      (created : (backend.user.store answer.organizationId).createDevice device = .ok store)
      (stores : backend.Replaces next answer.organizationId store) :
      Accepted backend now (.deviceCreate answer msg) next
  | userRevoke {answer : HandshakeAuthenticatedAnswer} {next : UserBackend} {author : UserRecord}
      {authorDevice : Device} {key : VerifyKey} {content : RevokedUserCertificateContent}
      {store : OrganizationStore} (connected : backend.Connected answer now author authorDevice key)
      (admin : author.profile = .admin) (authored : content.author = answer.deviceId)
      (foreign : content.userId ≠ answer.deviceId.userId)
      (revoked : (backend.user.store answer.organizationId).revokeUser content.userId ⟨key, some content⟩
        answer.deviceId (some content.timestamp) now = .ok store)
      (stores : backend.Replaces next answer.organizationId store) :
      Accepted backend now (.userRevoke answer ⟨key, some content⟩) next

theorem serve_spec {request : UserRequest} (served : backend.serve now request = .ok next) :
    backend.Accepted now request next := by
  cases request with
  | organizationCreate id bootstrapToken expirationDate =>
    simp only [serve, MemoryOrganizationComponent.create, Except.bind_eq_ok_iff, Except.require_eq_ok_iff,
      exists_const, Except.pure_eq_ok_iff] at served
    obtain ⟨organization, ⟨fresh, rfl⟩, rfl⟩ := served
    refine .organizationCreate (fun organization found => ?_) rfl rfl
    simpa [found, Organization.isBootstrapped] using fresh
  | organizationBootstrap id msg =>
    obtain ⟨organization, user, device, found, fresh, admin, accepted, bootstrapped, -, created⟩ :=
      apiOrganizationBootstrap_spec served
    obtain ⟨store, created, stores⟩ := MemoryUserComponent.createUser_spec created
    exact .organizationBootstrap found fresh bootstrapped admin accepted created stores
  | userCreate answer msg =>
    simp only [serve, Except.bind_eq_ok_iff, Except.pure_eq_ok_iff] at served
    obtain ⟨ctx, opened, component, done, rfl⟩ := served
    obtain ⟨author, authorDevice, key, connected, rfl⟩ := processAuthenticatedAnswer_spec opened
    obtain ⟨admin, user, device, accepted, created⟩ := MemoryUserComponent.apiUserCreate_spec done
    obtain ⟨store, created, stores⟩ := MemoryUserComponent.createUser_spec created
    exact .userCreate connected admin accepted created ⟨rfl, stores⟩
  | deviceCreate answer msg =>
    simp only [serve, Except.bind_eq_ok_iff, Except.pure_eq_ok_iff] at served
    obtain ⟨ctx, opened, component, done, rfl⟩ := served
    obtain ⟨author, authorDevice, key, connected, rfl⟩ := processAuthenticatedAnswer_spec opened
    obtain ⟨device, content, payload, date, certifier, owner, ⟨verifyKey, certified⟩, created⟩ :=
      MemoryUserComponent.apiDeviceCreate_spec done
    obtain ⟨store, created, stores⟩ := MemoryUserComponent.createDevice_spec created
    exact .deviceCreate connected payload date certifier owner certified created ⟨rfl, stores⟩
  | userRevoke answer certificate =>
    simp only [serve, Except.bind_eq_ok_iff, Except.pure_eq_ok_iff] at served
    obtain ⟨ctx, opened, component, done, rfl⟩ := served
    obtain ⟨author, authorDevice, key, connected, rfl⟩ := processAuthenticatedAnswer_spec opened
    obtain ⟨admin, content, rfl, authored, foreign, store, revoked, stores⟩ :=
      MemoryUserComponent.apiUserRevoke_spec done
    exact .userRevoke connected admin authored foreign revoked ⟨rfl, stores⟩

/-- A step is an accepted request, after which the clock stands at its time. -/
theorem step?_spec {event : DateTime × UserRequest} (step : backend.step? event = some next) :
    ∃ served, backend.clock ≤ event.1 ∧ backend.Accepted event.1 event.2 served ∧
      next = { served with clock := event.1 } := by
  unfold step? at step
  split at step
  · next later =>
    obtain ⟨served, accepted, rfl⟩ := Option.map_eq_some_iff.mp step
    exact ⟨served, later, serve_spec (Except.toOption_eq_some_iff.mp accepted), rfl⟩
  · cases step

end UserBackend

section Example

def alicesLaptop : DeviceID := ⟨"alice", "laptop"⟩

/-- The certificates of a user and its first device, redacted ones included. -/
def newcomer (signer : ℕ) (author : Option DeviceID) (date : DateTime) (userId : UserID)
    (email : String) (profile : UserProfile) (key : ℕ) : UserCreateReq where
  userCertificate := ⟨⟨signer⟩, some ⟨⟨author, date, userId, profile⟩, some ⟨email, userId⟩, ⟨key⟩⟩⟩
  redactedUserCertificate := ⟨⟨signer⟩, some ⟨⟨author, date, userId, profile⟩, none, ⟨key⟩⟩⟩
  deviceCertificate := ⟨⟨signer⟩, some ⟨⟨author, date, ⟨userId, "laptop"⟩, ⟨key⟩⟩, none⟩⟩
  redactedDeviceCertificate := ⟨⟨signer⟩, some ⟨⟨author, date, ⟨userId, "laptop"⟩, ⟨key⟩⟩, none⟩⟩

def fromAlice : HandshakeAuthenticatedAnswer :=
  { organizationId := "org", deviceId := alicesLaptop, rvk := ⟨0⟩, answer := ⟨⟨1⟩, []⟩ }

end Example

end Guardata
