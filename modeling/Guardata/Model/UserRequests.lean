import Guardata.Machine.Run
import Guardata.Model.Handshake
import Guardata.Model.UserComponent

/-! # Requests that create and revoke users

An organization is created by the administration and bootstrapped by its first user, whose certificates the
root key signs. From then on admins create and revoke users, and every user creates devices of its own. The
backend verifies the certificates of a request with the key of the device that sent it, and wants them dated
close to its own clock.

A request comes over a connection that was opened at that moment, so that its author is not revoked on
reception. The clock of the backend does not run backwards.
-/

namespace Guardata

structure Organization where
  organizationId : OrganizationID
  bootstrapToken : String
  expirationDate : Option DateTime := none
  rootVerifyKey : Option VerifyKey := none
deriving DecidableEq

def Organization.isBootstrapped (organization : Organization) : Bool := organization.rootVerifyKey.isSome

/-- The replies that refuse a request, the first ones already when the connection is opened. -/
inductive UserRefusal where
  | badIdentity
  | rvkMismatch
  | organizationExpired
  | revokedDevice
  | notAllowed (reason : String)
  | invalidCertification (err : DataError)
  | invalidTimestamp (reason : String)
  | invalidData (reason : String)
  | badUserId (reason : String)
  | alreadyExists (reason : Option String)
  | alreadyRevoked (reason : String)
  | alreadyBootstrapped
  | notFound
  | uncaught (err : UserError)
  | undecodable (err : DataError)
deriving DecidableEq, Repr

structure MemoryOrganizationComponent where
  organizations : Dict OrganizationID Organization := ∅

namespace MemoryOrganizationComponent

/-- An organization that is not bootstrapped yet may be overwritten. -/
def create (component : MemoryOrganizationComponent) (id : OrganizationID) (bootstrapToken : String)
    (expirationDate : Option DateTime) : Except UserRefusal MemoryOrganizationComponent := do
  .require (¬ (component.organizations.get? id).any (·.isBootstrapped)) (.alreadyExists none)
  return ⟨component.organizations.insert id
    { organizationId := id, bootstrapToken := bootstrapToken, expirationDate := expirationDate }⟩

def get (component : MemoryOrganizationComponent) (id : OrganizationID) : Except UserRefusal Organization :=
  (component.organizations.get? id).elim (.error .notFound) .ok

end MemoryOrganizationComponent

/-- The certificates of a new user and its first device, in full and redacted. -/
structure UserCreateReq where
  userCertificate : Signed FullUserCertificateContent
  deviceCertificate : Signed FullDeviceCertificateContent
  redactedUserCertificate : Signed FullUserCertificateContent
  redactedDeviceCertificate : Signed FullDeviceCertificateContent

/-- No redacted certificate is given as an empty one. -/
structure DeviceCreateReq where
  deviceCertificate : Signed FullDeviceCertificateContent
  redactedDeviceCertificate : Option (Signed FullDeviceCertificateContent)

/-- Old clients do not send redacted certificates. -/
structure OrganizationBootstrapReq where
  bootstrapToken : String
  rootVerifyKey : VerifyKey
  userCertificate : Signed FullUserCertificateContent
  deviceCertificate : Signed FullDeviceCertificateContent
  redactedUserCertificate : Option (Signed FullUserCertificateContent)
  redactedDeviceCertificate : Option (Signed FullDeviceCertificateContent)

section Certificates

def verifyUserCertificate (key : VerifyKey) (author : Option DeviceID)
    (certificate : Signed FullUserCertificateContent) : Except UserRefusal FullUserCertificateContent :=
  (certificate.verifyAndLoad (·.author) key author).mapError .invalidCertification

def verifyDeviceCertificate (key : VerifyKey) (author : Option DeviceID)
    (certificate : Signed FullDeviceCertificateContent) :
    Except UserRefusal FullDeviceCertificateContent :=
  (certificate.verifyAndLoad (·.author) key author).mapError .invalidCertification

/-- A redacted certificate says the same as the full one, without the human handle. -/
def checkRedactedUser (redacted full : FullUserCertificateContent) : Except UserRefusal Unit := do
  .require ({ redacted with humanHandle := full.humanHandle } = full)
    (.invalidData "Redacted User certificate differs from User certificate.")
  .require (redacted.humanHandle = none)
    (.invalidData "Redacted User certificate must not contain a human_handle field.")

/-- A redacted certificate says the same as the full one, without the device label. -/
def checkRedactedDevice (redacted full : FullDeviceCertificateContent) : Except UserRefusal Unit := do
  .require ({ redacted with deviceLabel := full.deviceLabel } = full)
    (.invalidData "Redacted Device certificate differs from Device certificate.")
  .require (redacted.deviceLabel.getD "" = "")
    (.invalidData "Redacted Device certificate must not contain a device_label field.")

/-- The user of accepted certificates. -/
def newUser (content : FullUserCertificateContent)
    (certificate redacted : Signed FullUserCertificateContent) :
    UserRecord where
  profile := content.profile
  revokedOn := none
  userId := content.userId
  humanHandle := content.humanHandle
  userCertificate := certificate
  redactedUserCertificate := redacted
  userCertifier := content.author
  createdOn := content.timestamp

/-- The device of accepted certificates. -/
def newDevice (content : FullDeviceCertificateContent)
    (certificate redacted : Signed FullDeviceCertificateContent) : Device where
  deviceId := content.deviceId
  deviceLabel := content.deviceLabel
  deviceCertificate := certificate
  redactedDeviceCertificate := redacted
  deviceCertifier := content.author
  createdOn := content.timestamp

end Certificates

namespace MemoryUserComponent

def apiUserCreate (component : MemoryUserComponent) (ctx : ClientContext) (msg : UserCreateReq)
    (now : DateTime) : Except UserRefusal MemoryUserComponent := do
  .require (ctx.profile = .admin) (.notAllowed s!"User `{ctx.deviceId.userId}` is not admin")
  let device ← verifyDeviceCertificate ctx.verifyKey (some ctx.deviceId) msg.deviceCertificate
  let user ← verifyUserCertificate ctx.verifyKey (some ctx.deviceId) msg.userCertificate
  let redactedUser ← verifyUserCertificate ctx.verifyKey (some ctx.deviceId) msg.redactedUserCertificate
  let redactedDevice ←
    verifyDeviceCertificate ctx.verifyKey (some ctx.deviceId) msg.redactedDeviceCertificate
  .require (user.timestamp = device.timestamp)
    (.invalidData "Device and User certificates must have the same timestamp.")
  .require (timestampsInTheBallpark user.timestamp now)
    (.invalidTimestamp "Invalid timestamp in certificate.")
  .require (user.userId = device.deviceId.userId)
    (.invalidData "Device and User must have the same user ID.")
  checkRedactedUser redactedUser user
  checkRedactedDevice redactedDevice device
  (component.createUser ctx.organizationId (newUser user msg.userCertificate msg.redactedUserCertificate)
    (newDevice device msg.deviceCertificate msg.redactedDeviceCertificate)).mapError fun
      | .alreadyExists reason => .alreadyExists (some reason)
      | err => .uncaught err

def apiUserRevoke (component : MemoryUserComponent) (ctx : ClientContext)
    (revokedUserCertificate : Signed RevokedUserCertificateContent) (now : DateTime) :
    Except UserRefusal MemoryUserComponent := do
  .require (ctx.profile = .admin) (.notAllowed s!"User `{ctx.deviceId.userId}` is not admin")
  let data ← (revokedUserCertificate.verifyAndLoad (fun data => some data.author) ctx.verifyKey
    (some ctx.deviceId)).mapError .invalidCertification
  .require (timestampsInTheBallpark data.timestamp now)
    (.invalidTimestamp "Invalid timestamp in certification.")
  .require (data.userId ≠ ctx.deviceId.userId) (.notAllowed "Cannot do self-revocation")
  (component.revokeUser ctx.organizationId data.userId revokedUserCertificate data.author
    (some data.timestamp) now).mapError fun
      | .notFound _ | .userNotFound _ | .deviceNotFound _ => .notFound
      | .alreadyRevoked => .alreadyRevoked s!"User `{data.userId}` already revoked"
      | err => .uncaught err

def apiDeviceCreate (component : MemoryUserComponent) (ctx : ClientContext) (msg : DeviceCreateReq)
    (now : DateTime) : Except UserRefusal MemoryUserComponent := do
  let data ← verifyDeviceCertificate ctx.verifyKey (some ctx.deviceId) msg.deviceCertificate
  let redactedData ← msg.redactedDeviceCertificate.mapM
    (verifyDeviceCertificate ctx.verifyKey (some ctx.deviceId))
  .require (timestampsInTheBallpark data.timestamp now)
    (.invalidTimestamp "Invalid timestamp in certification.")
  .require (data.deviceId.userId = ctx.deviceId.userId)
    (.badUserId "Device must be handled by it own user.")
  redactedData.forM (checkRedactedDevice · data)
  (component.createDevice ctx.organizationId (newDevice data msg.deviceCertificate
    (msg.redactedDeviceCertificate.getD msg.deviceCertificate))).mapError fun
      | .alreadyExists reason => .alreadyExists (some reason)
      | err => .uncaught err

end MemoryUserComponent

/-- The backend with its clock. -/
structure UserBackend where
  organization : MemoryOrganizationComponent := {}
  user : MemoryUserComponent := {}
  clock : DateTime

/-- The requests; those of a device come with the answer to the challenge of its connection. -/
inductive UserRequest where
  | organizationCreate (id : OrganizationID) (bootstrapToken : String) (expirationDate : Option DateTime)
  | organizationBootstrap (id : OrganizationID) (msg : OrganizationBootstrapReq)
  | userCreate (answer : HandshakeAuthenticatedAnswer) (msg : UserCreateReq)
  | deviceCreate (answer : HandshakeAuthenticatedAnswer) (msg : DeviceCreateReq)
  | userRevoke (answer : HandshakeAuthenticatedAnswer)
      (revokedUserCertificate : Signed RevokedUserCertificateContent)

namespace UserBackend

/-- `MemoryOrganizationComponent.bootstrap`. The error of the first creation is not caught. -/
def bootstrap (backend : UserBackend) (id : OrganizationID) (user : UserRecord) (firstDevice : Device)
    (bootstrapToken : String) (rootVerifyKey : VerifyKey) : Except UserRefusal UserBackend := do
  let organization ← backend.organization.get id
  .require (¬ organization.isBootstrapped) .alreadyBootstrapped
  .require (organization.bootstrapToken = bootstrapToken) .notFound
  let component ← (backend.user.createUser id user firstDevice).mapError .uncaught
  let bootstrapped := { organization with rootVerifyKey := some rootVerifyKey }
  return { backend with
    user := component
    organization := ⟨backend.organization.organizations.insert organization.organizationId bootstrapped⟩ }

def apiOrganizationBootstrap (backend : UserBackend) (id : OrganizationID) (msg : OrganizationBootstrapReq)
    (now : DateTime) : Except UserRefusal UserBackend := do
  let user ← verifyUserCertificate msg.rootVerifyKey none msg.userCertificate
  let device ← verifyDeviceCertificate msg.rootVerifyKey none msg.deviceCertificate
  let redactedUser ← msg.redactedUserCertificate.mapM (verifyUserCertificate msg.rootVerifyKey none)
  let redactedDevice ← msg.redactedDeviceCertificate.mapM (verifyDeviceCertificate msg.rootVerifyKey none)
  .require (user.profile = .admin) (.invalidData "Bootstrapping user must have admin profile.")
  .require (user.timestamp = device.timestamp)
    (.invalidData "Device and user certificates must have the same timestamp.")
  .require (user.userId = device.deviceId.userId)
    (.invalidData "Device and user must have the same user ID.")
  .require (timestampsInTheBallpark user.timestamp now)
    (.invalidTimestamp "Invalid timestamp in certification.")
  redactedUser.forM (checkRedactedUser · user)
  redactedDevice.forM (checkRedactedDevice · device)
  .require (redactedUser.isSome = redactedDevice.isSome)
    (.invalidData "Redacted user&device certificate muste be provided together")
  backend.bootstrap id
    (newUser user msg.userCertificate (msg.redactedUserCertificate.getD msg.userCertificate))
    (newDevice device msg.deviceCertificate (msg.redactedDeviceCertificate.getD msg.deviceCertificate))
    msg.bootstrapToken msg.rootVerifyKey

/-- `_do_process_authenticated_answer`: the context of the connection, if it is accepted. -/
def processAuthenticatedAnswer (backend : UserBackend) (answer : HandshakeAuthenticatedAnswer)
    (now : DateTime) : Except UserRefusal ClientContext := do
  let organization ← (backend.organization.get answer.organizationId).mapError fun _ => .badIdentity
  let store := backend.user.store answer.organizationId
  let user ← (store.getUser answer.deviceId.userId).mapError fun _ => .badIdentity
  let device ← (store.getDevice answer.deviceId).mapError fun _ => .badIdentity
  .require (organization.rootVerifyKey = some answer.rvk) .rvkMismatch
  .require (¬ organization.expirationDate.any (· ≤ now)) .organizationExpired
  .require (¬ user.isRevoked now) .revokedDevice
  let verifyKey ← device.verifyKey.mapError .undecodable
  return ⟨answer.organizationId, answer.deviceId, user.profile, verifyKey⟩

def serve (backend : UserBackend) (now : DateTime) : UserRequest → Except UserRefusal UserBackend
  | .organizationCreate id bootstrapToken expirationDate => do
      let organization ← backend.organization.create id bootstrapToken expirationDate
      return { backend with organization := organization }
  | .organizationBootstrap id msg => backend.apiOrganizationBootstrap id msg now
  | .userCreate answer msg => do
      let ctx ← backend.processAuthenticatedAnswer answer now
      let user ← backend.user.apiUserCreate ctx msg now
      return { backend with user := user }
  | .deviceCreate answer msg => do
      let ctx ← backend.processAuthenticatedAnswer answer now
      let user ← backend.user.apiDeviceCreate ctx msg now
      return { backend with user := user }
  | .userRevoke answer revokedUserCertificate => do
      let ctx ← backend.processAuthenticatedAnswer answer now
      let user ← backend.user.apiUserRevoke ctx revokedUserCertificate now
      return { backend with user := user }

/-- One accepted request at a later or the same time. -/
def step? (backend : UserBackend) (event : DateTime × UserRequest) : Option UserBackend :=
  if backend.clock ≤ event.1 then
    (backend.serve event.1 event.2).toOption.map fun next => { next with clock := event.1 }
  else none

end UserBackend

end Guardata
