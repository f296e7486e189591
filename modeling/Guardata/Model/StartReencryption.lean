import Guardata.Model.UserRequests

/-! # Starting a re-encryption

The client encrypts the new key of a workspace for each of its participants, and the backend starts the
re-encryption if the recipients are the participants that it computes itself. Otherwise the client retrieves
the participants again and retries, as often as it takes.

The client looks up the devices that signed the role certificates of the workspace, and the users that have
a role. Every look-up goes through the caches of the remote devices manager. What the caches hold after a
look-up that raises is left out, since the loop ends there. Connections do not fail here, the messages
themselves and their events are left out, and each clock stands still during a round.
-/

namespace Guardata

namespace MemoryUserComponent

/-- The users as the realm component sees them. -/
def userTable (component : MemoryUserComponent) : UserTable := fun organizationId userId =>
  ((component.store organizationId).users.get? userId).map (·.toUser)

/-- `api_user_get`. An outsider is served the redacted certificates. -/
def apiUserGet (component : MemoryUserComponent) (ctx : ClientContext) (userId : UserID) :
    Except UserError GetUserAndDevicesResult :=
  component.getUserWithDevicesAndTrustchain ctx.organizationId userId (ctx.profile = .outsider)

end MemoryUserComponent

/-- What a request about the maintenance of a realm is answered with. An exception that the API does not expect
ends the connection. -/
inductive MaintenanceStatus where
  | ok
  | notFound
  | notAllowed
  | badEncryptionRevision
  | participantsMismatch
  | inMaintenance
  | maintenanceError
  | uncaught
deriving DecidableEq, Repr

namespace MaintenanceStatus

/-- The exceptions that `api_realm_start_reencryption_maintenance` expects. -/
def ofStart : RealmError → MaintenanceStatus
  | .access => .notAllowed
  | .notFound _ => .notFound
  | .encryptionRevision _ => .badEncryptionRevision
  | .participantsMismatch _ => .participantsMismatch
  | .maintenance _ => .maintenanceError
  | .inMaintenance _ => .inMaintenance
  | _ => .uncaught

variable {ε α : Type} {status : ε → MaintenanceStatus}

/-- The status of a reply, given those of the errors. -/
def ofReply (status : ε → MaintenanceStatus) : Except ε α → MaintenanceStatus
  | .ok _ => .ok
  | .error error => status error

theorem ofReply_require (cond : Prop) [Decidable cond] (error : ε) (next : Unit → Except ε α) :
    ofReply status (Except.require cond error >>= next) =
      if cond then ofReply status (next ()) else status error := by
  by_cases holds : cond <;> simp only [Except.require, holds, if_true, if_false] <;> rfl

end MaintenanceStatus

/-- The status of the reply to a start. -/
inductive StartStatus where
  | badTimestamp
  | answered (status : MaintenanceStatus)
deriving DecidableEq, Repr

def MemoryRealmComponent.apiRealmStartReencryptionMaintenance (component : MemoryRealmComponent)
    (users : UserTable) (ctx : ClientContext) (realmId : UUID) (encryptionRevision : ℕ)
    (recipients : List UserID) (timestamp now : DateTime) : MemoryRealmComponent × StartStatus :=
  if timestampsInTheBallpark timestamp now then
    let reply := component.startReencryptionMaintenance users ctx.organizationId ctx.deviceId realmId
      encryptionRevision recipients timestamp now
    (reply.toOption.getD component, .answered (.ofReply .ofStart reply))
  else (component, .badTimestamp)

/-- The users and the realms of the backend. -/
structure MemoryBackend where
  users : UserBackend
  realms : MemoryRealmComponent := {}

/-- The requests; those about realms come with the answer to the challenge of the connection. -/
inductive MemoryRequest where
  | user (request : UserRequest)
  | realmCreate (answer : HandshakeAuthenticatedAnswer) (certificate : Signed RealmRoleCertificateContent)
  | realmUpdateRoles (answer : HandshakeAuthenticatedAnswer)
      (certificate : Signed RealmRoleCertificateContent)
  | realmStartReencryption (answer : HandshakeAuthenticatedAnswer) (realmId : UUID)
      (encryptionRevision : ℕ) (recipients : List UserID) (timestamp : DateTime)
  | realmFinishReencryption (answer : HandshakeAuthenticatedAnswer) (realmId : UUID)
      (encryptionRevision : ℕ) (isFinishedHook : Bool)

namespace MemoryBackend

/-- The realms after a request of a connection. -/
def serveRealm (backend : MemoryBackend) (ctx : ClientContext) (now : DateTime) :
    MemoryRequest → Option MemoryRealmComponent
  | .user _ => none
  | .realmCreate _ certificate => (backend.realms.apiRealmCreate ctx certificate now).toOption
  | .realmUpdateRoles _ certificate =>
      (backend.realms.apiRealmUpdateRoles backend.users.user.userTable ctx certificate now).toOption
  | .realmStartReencryption _ realmId encryptionRevision recipients timestamp =>
      some (backend.realms.apiRealmStartReencryptionMaintenance backend.users.user.userTable ctx realmId
        encryptionRevision recipients timestamp now).1
  | .realmFinishReencryption _ realmId encryptionRevision isFinishedHook =>
      (backend.realms.finishReencryptionMaintenance ctx.organizationId ctx.deviceId realmId
        encryptionRevision isFinishedHook).toOption

/-- A request of a connection at a later or the same time. -/
def stepRealm? (backend : MemoryBackend) (answer : HandshakeAuthenticatedAnswer) (now : DateTime)
    (request : MemoryRequest) : Option MemoryBackend := do
  guard (backend.users.clock ≤ now)
  let ctx ← (backend.users.processAuthenticatedAnswer answer now).toOption
  let realms ← backend.serveRealm ctx now request
  return ⟨{ backend.users with clock := now }, realms⟩

def step? (backend : MemoryBackend) (event : DateTime × MemoryRequest) : Option MemoryBackend :=
  match event.2 with
  | .user request => (backend.users.step? (event.1, request)).map fun users =>
      { backend with users := users }
  | .realmCreate answer _ | .realmUpdateRoles answer _ | .realmStartReencryption answer _ _ _ _
  | .realmFinishReencryption answer _ _ _ => backend.stepRealm? answer event.1 event.2

end MemoryBackend

/-- The reply of the backend to `user_get`. -/
abbrev UserGet := UserID → Except UserError GetUserAndDevicesResult

inductive RemoteDevicesManagerError where
  | userNotFound (userId : UserID)
  | failedToFetch (userId : UserID) (err : UserError)
  | deviceNotFound (deviceId : DeviceID)
  | invalidTrustchain (err : TrustchainError)
deriving DecidableEq, Repr

/-- Fetch users and devices from the backend, verify their trustchain and keep a cache of them for a limited
duration. -/
structure RemoteDevicesManager extends TrustchainContext

namespace RemoteDevicesManager

def getUserAndDevices (manager : RemoteDevicesManager) (userGet : UserGet) (userId : UserID)
    (now : DateTime) : Except RemoteDevicesManagerError (VerifiedUserAndDevices × RemoteDevicesManager) := do
  let rep ← (userGet userId).mapError fun
    | .notFound _ | .userNotFound _ | .deviceNotFound _ => .userNotFound userId
    | err => .failedToFetch userId err
  let trustchain : TrustchainCertificates := ⟨rep.trustchain.users.map userPart, rep.trustchain.revokedUsers,
    rep.trustchain.devices.map devicePart⟩
  let (loaded, context) ← (manager.loadUserAndDevices trustchain (userPart rep.userCertificate)
    rep.revokedUserCertificate (rep.deviceCertificates.map devicePart) (some userId) now).mapError
      .invalidTrustchain
  return (loaded, ⟨context⟩)

/-- A cached user comes with its cached revocation, or without one: nothing is fetched. -/
def getUser (manager : RemoteDevicesManager) (userGet : UserGet) (userId : UserID) (now : DateTime) :
    Except RemoteDevicesManagerError
      ((UserCertificateContent × Option RevokedUserCertificateContent) × RemoteDevicesManager) :=
  match getCached manager.cacheValidity manager.usersCache now userId with
  | some user =>
      .ok ((user, getCached manager.cacheValidity manager.revokedUsersCache now userId), manager)
  | none => do
      let (loaded, manager) ← manager.getUserAndDevices userGet userId now
      return ((loaded.user, loaded.revokedUser), manager)

def getDevice (manager : RemoteDevicesManager) (userGet : UserGet) (deviceId : DeviceID) (now : DateTime) :
    Except RemoteDevicesManagerError (DeviceCertificateContent × RemoteDevicesManager) :=
  match getCached manager.cacheValidity manager.devicesCache now deviceId with
  | some device => .ok (device, manager)
  | none => do
      let (loaded, manager) ← manager.getUserAndDevices userGet deviceId.userId now
      match loaded.devices.find? (·.deviceId = deviceId) with
      | some device => return (device, manager)
      | none => .error (.deviceNotFound deviceId)

end RemoteDevicesManager

/-- Why the participants of a workspace could not be retrieved. -/
inductive LookUpError where
  | devices (err : RemoteDevicesManagerError)
  | roles (err : FSError)
deriving DecidableEq, Repr

namespace RemoteDevicesManager

/-- Look up the author of one role certificate, verify it and apply it. -/
def verifyRoleCertificate (userGet : UserGet) (now : DateTime)
    (current : Dict UserID RealmRole × RemoteDevicesManager)
    (unsecure : RealmRoleCertificateContent × Signed RealmRoleCertificateContent) :
    Except LookUpError (Dict UserID RealmRole × RemoteDevicesManager) := do
  let (currentRoles, manager) := current
  let certif := unsecure.1
  let (author, manager) ← (manager.getDevice userGet certif.author now).mapError .devices
  let _ ← (RealmRoleCertificateContent.verifyAndLoad unsecure.2 author.verifyKey author.deviceId).mapError
    fun err => .roles (.invalidRoleCertificates err)
  .require (currentRoles.get? certif.author.userId ∈ rolesNeededToSign currentRoles author.deviceId certif)
    (.roles (.noRightToGive certif.author certif.role certif.userId certif.timestamp))
  return (applyCertificate currentRoles certif, manager)

def loadRealmCurrentRoles (manager : RemoteDevicesManager) (userGet : UserGet)
    (reply : Except RealmRefusal (List (Signed RealmRoleCertificateContent))) (now : DateTime) :
    Except LookUpError (Dict UserID RealmRole × RemoteDevicesManager) := do
  let certificates ← reply.mapError fun
    | .notAllowed _ => .roles (.workspaceNoReadAccess "Cannot get workspace roles: no read access")
    | refusal => .roles (.cannotRetrieveRoles refusal)
  let loaded ← certificates.mapM fun raw =>
    (raw.unsecureLoad.mapError fun err => .roles (.invalidRoleCertificates err)).map fun certif =>
      (certif, raw)
  (loaded.sortedBy (·.1.timestamp)).foldlM (verifyRoleCertificate userGet now) (∅, manager)

/-- The users without a revocation, in the order of the ids. -/
def retrieveUsers (userGet : UserGet) (now : DateTime) : RemoteDevicesManager → List UserID →
    Except LookUpError (List UserCertificateContent × RemoteDevicesManager)
  | manager, [] => .ok ([], manager)
  | manager, userId :: rest => do
      let ((user, revokedUser), manager) ← (manager.getUser userGet userId now).mapError .devices
      let (users, manager) ← retrieveUsers userGet now manager rest
      return (if revokedUser.isNone then user :: users else users, manager)

def retrieveParticipants (manager : RemoteDevicesManager) (userGet : UserGet)
    (reply : Except RealmRefusal (List (Signed RealmRoleCertificateContent))) (now : DateTime) :
    Except LookUpError (List UserCertificateContent × RemoteDevicesManager) := do
  let (roles, manager) ← manager.loadRealmCurrentRoles userGet reply now
  retrieveUsers userGet now manager roles.keys

end RemoteDevicesManager

inductive StartReencryptionError where
  | lookUp (err : LookUpError)
  | workspaceInMaintenance
  | workspaceNoAccess
  | cannotStartMaintenance (status : StartStatus)
deriving DecidableEq, Repr

/-- `_send_start_reencryption_cmd`: what the client makes of the status. -/
def sendStartReencryptionCmd : StartStatus → Except StartReencryptionError Bool
  | .answered .participantsMismatch => .ok false
  | .answered .inMaintenance => .error .workspaceInMaintenance
  | .answered .notAllowed => .error .workspaceNoAccess
  | .answered .ok => .ok true
  | status => .error (.cannotStartMaintenance status)

/-- A call to `workspace_start_reencryption`: the connection, the workspace, its encryption revision for the
caller, and the date of the call, which all requests carry. -/
structure StartCall where
  ctx : ClientContext
  workspaceId : UUID
  encryptionRevision : ℕ
  timestamp : DateTime

/-- The dates on both clocks in one round of the loop. -/
structure RoundDates where
  client : DateTime
  backend : DateTime

/-- How far the loop has got. -/
inductive StartProgress where
  | retrying (manager : RemoteDevicesManager)
  | started (participants : List UserCertificateContent) (realms : MemoryRealmComponent)
  | raised (err : StartReencryptionError)

/-- A participants mismatch is the one refusal after which the loop goes on. -/
def StartProgress.ofReply (participants : List UserCertificateContent) (manager : RemoteDevicesManager)
    (reply : MemoryRealmComponent × StartStatus) : StartProgress :=
  match sendStartReencryptionCmd reply.2 with
  | .error err => .raised err
  | .ok false => .retrying manager
  | .ok true => .started participants reply.1

namespace MemoryBackend

variable (backend : MemoryBackend) (call : StartCall)

/-- `_retrieve_participants` against a backend. -/
def retrieveParticipants (manager : RemoteDevicesManager) (now : DateTime) :
    Except LookUpError (List UserCertificateContent × RemoteDevicesManager) :=
  manager.retrieveParticipants (backend.users.user.apiUserGet call.ctx)
    (backend.realms.apiRealmGetRoleCertificates call.ctx call.workspaceId none) now

/-- One round of the loop. -/
def startRound (dates : RoundDates) (manager : RemoteDevicesManager) : StartProgress :=
  match backend.retrieveParticipants call manager dates.client with
  | .error err => .raised (.lookUp err)
  | .ok (participants, manager) =>
      .ofReply participants manager (backend.realms.apiRealmStartReencryptionMaintenance
        backend.users.user.userTable call.ctx call.workspaceId (call.encryptionRevision + 1)
        (participants.map (·.userId)) call.timestamp dates.backend)

/-- The loop after so many rounds. -/
def startRounds (clock : ℕ → RoundDates) (manager : RemoteDevicesManager) : ℕ → StartProgress
  | 0 => .retrying manager
  | rounds + 1 =>
      match startRounds clock manager rounds with
      | .retrying manager => backend.startRound call (clock rounds) manager
      | stopped => stopped

end MemoryBackend

end Guardata
