import Guardata.Model.Realm
import Guardata.Model.SignedClasses

/-! # The users and devices of an organization

The memory component keeps, for every organization, its users, their devices, and an index of the human
handles in use. Users are never removed. A revocation is recorded with the date that it declares itself
and releases the handle of the user.

Whoever asks for a user gets its certificates together with a trustchain: the certificates of all the
devices and users whose signatures these certificates rest on, and of the revocations of these users. The
source collects them in sets, whose order is not specified; here they are listed in the order of discovery.
Invitations are left out.
-/

namespace Guardata

def HumanHandle.toString (handle : HumanHandle) : String := s!"{handle.label} <{handle.email}>"

structure Device where
  deviceId : DeviceID
  deviceLabel : Option String
  deviceCertificate : Signed FullDeviceCertificateContent
  redactedDeviceCertificate : Signed FullDeviceCertificateContent
  deviceCertifier : Option DeviceID
  createdOn : DateTime
deriving DecidableEq

namespace Device

/-- `verify_key`: what the certificate says, which was verified when it was received. -/
def verifyKey (device : Device) : Except DataError VerifyKey :=
  device.deviceCertificate.unsecureLoad.map (·.verifyKey)

def certificate (device : Device) (redacted : Bool) : Signed FullDeviceCertificateContent :=
  if redacted then device.redactedDeviceCertificate else device.deviceCertificate

end Device

/-- A user with all its fields; the realm component looks at the first ones only. -/
structure UserRecord extends User where
  userId : UserID
  humanHandle : Option HumanHandle
  userCertificate : Signed FullUserCertificateContent
  redactedUserCertificate : Signed FullUserCertificateContent
  userCertifier : Option DeviceID
  createdOn : DateTime
  revokedUserCertificate : Option (Signed RevokedUserCertificateContent) := none
  revokedUserCertifier : Option DeviceID := none
deriving DecidableEq

namespace UserRecord

def certificate (user : UserRecord) (redacted : Bool) : Signed FullUserCertificateContent :=
  if redacted then user.redactedUserCertificate else user.userCertificate

def isRevoked (user : UserRecord) (now : DateTime) : Bool := user.revokedOn.any (· ≤ now)

end UserRecord

/-- What the trustchain looks at of the certificates of users. -/
def userPart (certif : Signed FullUserCertificateContent) : Signed UserCertificateContent :=
  certif.map (·.toUserCertificateContent)

def devicePart (certif : Signed FullDeviceCertificateContent) : Signed DeviceCertificateContent :=
  certif.map (·.toDeviceCertificateContent)

/-- `UserNotFoundError` comes with the id that was looked for, or with a text. -/
inductive UserError where
  | notFound (reason : String)
  | userNotFound (userId : UserID)
  | deviceNotFound (deviceId : DeviceID)
  | alreadyExists (reason : String)
  | alreadyRevoked
  | keyError (handle : HumanHandle)
  | recursionBound
deriving DecidableEq, Repr

/-- Handles compare by their email, so the index is keyed by it, with the handle that was inserted. -/
structure OrganizationStore where
  humanHandleToUserId : Dict String (HumanHandle × UserID) := ∅
  users : Dict UserID UserRecord := ∅
  devices : Dict UserID (Dict DeviceName Device) := ∅

structure Trustchain where
  devices : List (Signed FullDeviceCertificateContent) := []
  users : List (Signed FullUserCertificateContent) := []
  revokedUsers : List (Signed RevokedUserCertificateContent) := []

/-- The sets that `_get_trustchain` fills. -/
structure ExtractedCreators extends Trustchain where
  inTrustchain : List DeviceID := []

structure GetUserAndDevicesResult where
  userCertificate : Signed FullUserCertificateContent
  revokedUserCertificate : Option (Signed RevokedUserCertificateContent)
  deviceCertificates : List (Signed FullDeviceCertificateContent)
  trustchain : Trustchain

namespace OrganizationStore

def getUser (store : OrganizationStore) (userId : UserID) : Except UserError UserRecord :=
  (store.users.get? userId).elim (.error (.userNotFound userId)) .ok

/-- The devices of a user, none by default. -/
def userDevices (store : OrganizationStore) (userId : UserID) : Dict DeviceName Device :=
  (store.devices.get? userId).getD ∅

def getDevice (store : OrganizationStore) (deviceId : DeviceID) : Except UserError Device :=
  ((store.userDevices deviceId.userId).get? deviceId.deviceName).elim (.error (.deviceNotFound deviceId)) .ok

def setDevice (store : OrganizationStore) (device : Device) : OrganizationStore :=
  let userDevices := store.userDevices device.deviceId.userId
  { store with
    devices := store.devices.insert device.deviceId.userId
      (userDevices.insert device.deviceId.deviceName device) }

/-- A handle that a user who was not revoked has is refused. -/
def checkHumanHandle (store : OrganizationStore) : Option HumanHandle → Except UserError Unit
  | none => .ok ()
  | some handle => .require (store.humanHandleToUserId.get? handle.email = none)
      (.alreadyExists s!"Human handle `{handle.toString}` already corresponds to a non-revoked user")

def claimHumanHandle (store : OrganizationStore) (userId : UserID) : Option HumanHandle → OrganizationStore
  | none => store
  | some handle => { store with
      humanHandleToUserId := store.humanHandleToUserId.insert handle.email (handle, userId) }

/-- `del`, which wants the handle to be there. -/
def releaseHumanHandle (store : OrganizationStore) :
    Option HumanHandle → Except UserError OrganizationStore
  | none => .ok store
  | some handle => do
      .require (store.humanHandleToUserId.contains handle.email) (.keyError handle)
      return { store with humanHandleToUserId := store.humanHandleToUserId.erase handle.email }

def createUser (store : OrganizationStore) (user : UserRecord) (firstDevice : Device) :
    Except UserError OrganizationStore := do
  .require (store.users.get? user.userId = none) (.alreadyExists s!"User `{user.userId}` already exists")
  store.checkHumanHandle user.humanHandle
  let store := { store with users := store.users.insert user.userId user }
  return (store.setDevice firstDevice).claimHumanHandle user.userId user.humanHandle

def createDevice (store : OrganizationStore) (device : Device) : Except UserError OrganizationStore := do
  let deviceId := device.deviceId
  .require (store.users.contains deviceId.userId) (.notFound s!"User `{deviceId.userId}` doesn't exists")
  .require ((store.userDevices deviceId.userId).get? deviceId.deviceName = none)
    (.alreadyExists s!"Device `{deviceId.userId}@{deviceId.deviceName}` already exists")
  return store.setDevice device

/-- Without a date, the revocation is dated now. -/
def revokeUser (store : OrganizationStore) (userId : UserID)
    (revokedUserCertificate : Signed RevokedUserCertificateContent) (revokedUserCertifier : DeviceID)
    (revokedOn : Option DateTime) (now : DateTime) : Except UserError OrganizationStore := do
  let user ← store.getUser userId
  .require (user.revokedOn = none) .alreadyRevoked
  let revoked := { user with
    revokedOn := some (revokedOn.getD now)
    revokedUserCertificate := some revokedUserCertificate
    revokedUserCertifier := some revokedUserCertifier }
  { store with users := store.users.insert userId revoked }.releaseHumanHandle user.humanHandle

end OrganizationStore

/-- Add the certificates of a device and of its user. -/
def ExtractedCreators.add (extracted : ExtractedCreators) (redacted : Bool) (deviceId : DeviceID)
    (user : UserRecord) (device : Device) : ExtractedCreators where
  inTrustchain := deviceId :: extracted.inTrustchain
  devices := extracted.devices.insert (device.certificate redacted)
  users := extracted.users.insert (user.certificate redacted)
  revokedUsers := match user.revokedUserCertificate with
    | none => extracted.revokedUsers
    | some revoked => extracted.revokedUsers.insert revoked

namespace OrganizationStore

/-- `_recursive_extract_creators`, at most so many creators deep. -/
def recursiveExtractCreators (store : OrganizationStore) (redacted : Bool) :
    ℕ → Option DeviceID → ExtractedCreators → Except UserError ExtractedCreators
  | _, none, extracted => .ok extracted
  | 0, some _, _ => .error .recursionBound
  | bound + 1, some deviceId, extracted =>
      if deviceId ∈ extracted.inTrustchain then .ok extracted
      else do
        let user ← store.getUser deviceId.userId
        let device ← store.getDevice deviceId
        let extracted := extracted.add redacted deviceId user device
        let extracted ← store.recursiveExtractCreators redacted bound device.deviceCertifier extracted
        let extracted ← store.recursiveExtractCreators redacted bound user.revokedUserCertifier extracted
        store.recursiveExtractCreators redacted bound user.userCertifier extracted

/-- All the devices, by their owners. -/
def deviceIds (store : OrganizationStore) : List DeviceID :=
  store.devices.items.flatMap fun entry => entry.2.keys.map fun name => ⟨entry.1, name⟩

/-- `_get_trustchain`, with room for every device once. -/
def getTrustchain (store : OrganizationStore) (devicesIds : List (Option DeviceID)) (redacted : Bool) :
    Except UserError Trustchain := do
  let extracted ← devicesIds.foldlM (fun extracted deviceId =>
    store.recursiveExtractCreators redacted (store.deviceIds.length + 1) deviceId extracted) {}
  return extracted.toTrustchain

def getUserWithDevicesAndTrustchain (store : OrganizationStore) (userId : UserID) (redacted : Bool) :
    Except UserError GetUserAndDevicesResult := do
  let user ← store.getUser userId
  let userDevices := (store.userDevices userId).values
  let trustchain ← store.getTrustchain
    (user.userCertifier :: user.revokedUserCertifier :: userDevices.map (·.deviceCertifier)) redacted
  return {
    userCertificate := user.certificate redacted
    revokedUserCertificate := user.revokedUserCertificate
    deviceCertificates := userDevices.map (·.certificate redacted)
    trustchain := trustchain }

end OrganizationStore

/-- The organizations that nothing is known of have no users. -/
structure MemoryUserComponent where
  organizations : Dict OrganizationID OrganizationStore := ∅

namespace MemoryUserComponent

def store (component : MemoryUserComponent) (organizationId : OrganizationID) : OrganizationStore :=
  (component.organizations.get? organizationId).getD {}

/-- Do something in one organization. -/
def within (component : MemoryUserComponent) (organizationId : OrganizationID)
    (change : OrganizationStore → Except UserError OrganizationStore) :
    Except UserError MemoryUserComponent := do
  let store ← change (component.store organizationId)
  return { organizations := component.organizations.insert organizationId store }

def createUser (component : MemoryUserComponent) (organizationId : OrganizationID) (user : UserRecord)
    (firstDevice : Device) : Except UserError MemoryUserComponent :=
  component.within organizationId (·.createUser user firstDevice)

def createDevice (component : MemoryUserComponent) (organizationId : OrganizationID) (device : Device) :
    Except UserError MemoryUserComponent :=
  component.within organizationId (·.createDevice device)

def revokeUser (component : MemoryUserComponent) (organizationId : OrganizationID) (userId : UserID)
    (revokedUserCertificate : Signed RevokedUserCertificateContent) (revokedUserCertifier : DeviceID)
    (revokedOn : Option DateTime) (now : DateTime) : Except UserError MemoryUserComponent :=
  component.within organizationId
    (·.revokeUser userId revokedUserCertificate revokedUserCertifier revokedOn now)

def getUserWithDevicesAndTrustchain (component : MemoryUserComponent) (organizationId : OrganizationID)
    (userId : UserID) (redacted : Bool) : Except UserError GetUserAndDevicesResult :=
  (component.store organizationId).getUserWithDevicesAndTrustchain userId redacted

end MemoryUserComponent

end Guardata
