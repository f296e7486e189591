import Guardata.Model.SignedData
import Guardata.ToMathlib.Dict
import Guardata.ToMathlib.SortedBy

/-! # The realm component of the memory backend

A realm keeps every role it ever granted, in the order of reception, and recomputes the current
roles on demand. Two views of the current roles exist side by side in the source: `Realm.roles`
folds the grants in the order of their declared dates, `getCurrentRoles` in the order of
reception. Both are kept as they are.

A request either raises one of the named errors and leaves the component as it was, or returns
the new component. The user component is a table from ids to users; the answer of the vlob
component's hook is an argument of `finishReencryptionMaintenance`.
-/

namespace Guardata

/-- The fields of a registered user that the realm component reads. -/
structure User where
  profile : UserProfile
  revokedOn : Option DateTime
deriving DecidableEq, Repr

abbrev UserTable := OrganizationID → UserID → Option User

inductive MaintenanceType where
  | garbageCollection
  | reencryption
deriving DecidableEq, Repr

structure RealmStatus where
  maintenanceType : Option MaintenanceType
  maintenanceStartedOn : Option DateTime
  maintenanceStartedBy : Option DeviceID
  encryptionRevision : ℕ
deriving DecidableEq, Repr

def RealmStatus.inMaintenance (status : RealmStatus) : Bool := status.maintenanceType.isSome

structure RealmGrantedRole where
  certificate : Signed RealmRoleCertificateContent
  realmId : UUID
  userId : UserID
  role : Option RealmRole
  grantedBy : DeviceID
  grantedOn : DateTime
deriving DecidableEq, Repr

structure Realm where
  status : RealmStatus := ⟨none, none, none, 1⟩
  checkpoint : ℕ := 0
  grantedRoles : List RealmGrantedRole := []
deriving DecidableEq

inductive RealmError where
  | assertion
  | access
  | incompatibleProfile (reason : String)
  | notFound (reason : String)
  | userNotFound (userId : UserID)
  | alreadyExists
  | roleAlreadyGranted
  | encryptionRevision (reason : String)
  | participantsMismatch (reason : String)
  | maintenance (reason : String)
  | inMaintenance (reason : String)
  | notInMaintenance (reason : String)
deriving DecidableEq, Repr

/-- One grant applied to a table of current roles. -/
def applyGrant (roles : Dict UserID RealmRole) (grant : RealmGrantedRole) : Dict UserID RealmRole :=
  match grant.role with
  | none => roles.erase grant.userId
  | some role => roles.insert grant.userId role

/-- The current roles, by the declared dates of the grants. -/
def Realm.roles (realm : Realm) : Dict UserID RealmRole :=
  (realm.grantedRoles.sortedBy (·.grantedOn)).foldl applyGrant ∅

def ownerOnly : List (Option RealmRole) := [some .owner]
def ownerOrManager : List (Option RealmRole) := [some .owner, some .manager]

/-- The roles that entitle an author to replace one role of a user by another. -/
def neededRoles (existing new : Option RealmRole) : List (Option RealmRole) :=
  if existing ∈ ownerOrManager ∨ new ∈ ownerOrManager then ownerOnly else ownerOrManager

structure MemoryRealmComponent where
  realms : Dict (OrganizationID × UUID) Realm := ∅

namespace MemoryRealmComponent

def getRealm (component : MemoryRealmComponent) (organizationId : OrganizationID) (realmId : UUID) :
    Except RealmError Realm :=
  match component.realms.get? (organizationId, realmId) with
  | some realm => .ok realm
  | none => .error (.notFound s!"Realm `{realmId}` doesn't exist")

def setRealm (component : MemoryRealmComponent) (organizationId : OrganizationID) (realmId : UUID)
    (realm : Realm) : MemoryRealmComponent :=
  { component with realms := component.realms.insert (organizationId, realmId) realm }

def create (component : MemoryRealmComponent) (organizationId : OrganizationID)
    (selfGrantedRole : RealmGrantedRole) : Except RealmError MemoryRealmComponent := do
  .require (selfGrantedRole.grantedBy.userId = selfGrantedRole.userId) .assertion
  .require (selfGrantedRole.role = some .owner) .assertion
  .require (component.realms.get? (organizationId, selfGrantedRole.realmId) = none) .alreadyExists
  return component.setRealm organizationId selfGrantedRole.realmId
    { grantedRoles := [selfGrantedRole] }

/-- The current roles, by the order in which the grants were received. -/
def getCurrentRoles (component : MemoryRealmComponent) (organizationId : OrganizationID)
    (realmId : UUID) : Except RealmError (Dict UserID RealmRole) := do
  let realm ← component.getRealm organizationId realmId
  return realm.grantedRoles.foldl applyGrant ∅

def getRoleCertificates (component : MemoryRealmComponent) (organizationId : OrganizationID)
    (author : DeviceID) (realmId : UUID) (since : Option DateTime) :
    Except RealmError (List (Signed RealmRoleCertificateContent)) := do
  let realm ← component.getRealm organizationId realmId
  .require (realm.roles.contains author.userId) .access
  match since with
  | some date => return (realm.grantedRoles.filter (·.grantedOn > date)).map (·.certificate)
  | none => return realm.grantedRoles.map (·.certificate)

/-- Everything `update_roles` checks about the realm once it was found. -/
def checkUpdateRoles (realm : Realm) (newRole : RealmGrantedRole) : Except RealmError Unit := do
  .require (¬ realm.status.inMaintenance) (.inMaintenance "Data realm is currently under maintenance")
  let existingUserRole := realm.roles.get? newRole.userId
  let authorRole := realm.roles.get? newRole.grantedBy.userId
  .require (authorRole ∈ neededRoles existingUserRole newRole.role) .access
  .require (existingUserRole ≠ newRole.role) .roleAlreadyGranted

def updateRoles (component : MemoryRealmComponent) (users : UserTable)
    (organizationId : OrganizationID) (newRole : RealmGrantedRole) :
    Except RealmError MemoryRealmComponent := do
  .require (newRole.grantedBy.userId ≠ newRole.userId) .assertion
  let user ← match users organizationId newRole.userId with
    | some user => .ok user
    | none => .error (.notFound s!"User `{newRole.userId}` doesn't exist")
  .require (¬ (user.profile = .outsider ∧ newRole.role ∈ [some RealmRole.manager, some .owner]))
    (.incompatibleProfile "User with OUTSIDER profile cannot be MANAGER or OWNER")
  let realm ← component.getRealm organizationId newRole.realmId
  checkUpdateRoles realm newRole
  return component.setRealm organizationId newRole.realmId
    { realm with grantedRoles := realm.grantedRoles ++ [newRole] }

/-- The participants that a re-encryption has to notify: those that are not revoked yet. -/
def notRevokedRoles (users : UserTable) (organizationId : OrganizationID) (now : DateTime) :
    List UserID → Except RealmError (List UserID)
  | [] => .ok []
  | userId :: rest => do
      let user ← match users organizationId userId with
        | some user => .ok user
        | none => .error (.userNotFound userId)
      let others ← notRevokedRoles users organizationId now rest
      return if user.revokedOn.all (· > now) then userId :: others else others

def startReencryptionMaintenance (component : MemoryRealmComponent) (users : UserTable)
    (organizationId : OrganizationID) (author : DeviceID) (realmId : UUID) (encryptionRevision : ℕ)
    (recipients : List UserID) (timestamp now : DateTime) :
    Except RealmError MemoryRealmComponent := do
  let realm ← component.getRealm organizationId realmId
  .require (realm.roles.get? author.userId = some .owner) .access
  .require (¬ realm.status.inMaintenance) (.inMaintenance s!"Realm `{realmId}` alrealy in maintenance")
  .require (encryptionRevision = realm.status.encryptionRevision + 1)
    (.encryptionRevision "Invalid encryption revision")
  let participants ← notRevokedRoles users organizationId now realm.roles.keys
  .require (recipients ⊆ participants ∧ participants ⊆ recipients)
    (.participantsMismatch "Realm participants and message recipients mismatch")
  return component.setRealm organizationId realmId
    { realm with status := ⟨some .reencryption, some timestamp, some author, encryptionRevision⟩ }

def finishReencryptionMaintenance (component : MemoryRealmComponent)
    (organizationId : OrganizationID) (author : DeviceID) (realmId : UUID) (encryptionRevision : ℕ)
    (isFinishedHook : Bool) : Except RealmError MemoryRealmComponent := do
  let realm ← component.getRealm organizationId realmId
  .require (realm.roles.get? author.userId = some .owner) .access
  .require realm.status.inMaintenance (.notInMaintenance s!"Realm `{realmId}` not under maintenance")
  .require (encryptionRevision = realm.status.encryptionRevision)
    (.encryptionRevision "Invalid encryption revision")
  .require isFinishedHook (.maintenance "Reencryption operations are not over")
  return component.setRealm organizationId realmId
    { realm with status := ⟨none, none, none, encryptionRevision⟩ }

end MemoryRealmComponent

/-- What the backend knows about the authenticated connection a request came through. -/
structure ClientContext where
  organizationId : OrganizationID
  deviceId : DeviceID
  profile : UserProfile
  verifyKey : VerifyKey

/-- The replies that refuse a realm request. -/
inductive RealmRefusal where
  | notAllowed (reason : Option String)
  | invalidCertification (reason : Option DataError)
  | invalidData (reason : String)
  | notFound (reason : String)
  | alreadyExists
  | alreadyGranted
  | incompatibleProfile (reason : String)
  | inMaintenance
  | uncaught (err : RealmError)
deriving DecidableEq, Repr

namespace MemoryRealmComponent

/-- The certificate of a request, if its signature, author and date are acceptable. -/
def loadRoleCertificate (ctx : ClientContext) (certificate : Signed RealmRoleCertificateContent)
    (now : DateTime) : Except RealmRefusal RealmGrantedRole := do
  let data ← (RealmRoleCertificateContent.verifyAndLoad certificate ctx.verifyKey ctx.deviceId).mapError
    fun err => .invalidCertification (some err)
  .require (timestampsInTheBallpark data.timestamp now) (.invalidCertification none)
  return ⟨certificate, data.realmId, data.userId, data.role, data.author, data.timestamp⟩

def apiRealmCreate (component : MemoryRealmComponent) (ctx : ClientContext)
    (certificate : Signed RealmRoleCertificateContent) (now : DateTime) :
    Except RealmRefusal MemoryRealmComponent := do
  .require (ctx.profile ≠ .outsider) (.notAllowed (some "Outsider user cannot create realm"))
  let grantedRole ← loadRoleCertificate ctx certificate now
  .require (grantedRole.grantedBy.userId = grantedRole.userId)
    (.invalidData "Initial realm role certificate must be self-signed.")
  .require (grantedRole.role = some .owner)
    (.invalidData "Initial realm role certificate must set OWNER role.")
  (component.create ctx.organizationId grantedRole).mapError fun
    | .notFound reason => .notFound reason
    | .alreadyExists => .alreadyExists
    | err => .uncaught err

def apiRealmUpdateRoles (component : MemoryRealmComponent) (users : UserTable) (ctx : ClientContext)
    (certificate : Signed RealmRoleCertificateContent) (now : DateTime) :
    Except RealmRefusal MemoryRealmComponent := do
  let grantedRole ← loadRoleCertificate ctx certificate now
  .require (grantedRole.grantedBy.userId ≠ grantedRole.userId)
    (.invalidData "Realm role certificate cannot be self-signed.")
  (component.updateRoles users ctx.organizationId grantedRole).mapError fun
    | .roleAlreadyGranted => .alreadyGranted
    | .access => .notAllowed none
    | .incompatibleProfile reason => .incompatibleProfile reason
    | .notFound reason => .notFound reason
    | .inMaintenance _ => .inMaintenance
    | err => .uncaught err

def apiRealmGetRoleCertificates (component : MemoryRealmComponent) (ctx : ClientContext)
    (realmId : UUID) (since : Option DateTime) :
    Except RealmRefusal (List (Signed RealmRoleCertificateContent)) :=
  (component.getRoleCertificates ctx.organizationId ctx.deviceId realmId since).mapError fun
    | .access => .notAllowed none
    | .notFound reason => .notFound reason
    | err => .uncaught err

end MemoryRealmComponent

end Guardata
