import Guardata.Model.Realm

/-! # The vlob component of the memory backend

A vlob is the list of the versions that clients uploaded for one entry, each with its blob, author
and declared date. The backend never looks into a blob. Writing is checked against the role that
the author has in the realm at reception; the declared date has to be near the server's clock and
not before the date of the previous version of the same vlob, and nothing else is asked of it.
-/

namespace Guardata

/-- One uploaded version. -/
structure VlobVersion (β : Type) where
  blob : β
  author : DeviceID
  timestamp : DateTime
deriving DecidableEq, Repr

structure Vlob (β : Type) where
  realmId : UUID
  data : List (VlobVersion β)
deriving DecidableEq, Repr

def Vlob.currentVersion {β : Type} (vlob : Vlob β) : ℕ := vlob.data.length

/-- The last change of every vlob of a realm: its author, the checkpoint and the version. -/
structure Changes where
  checkpoint : ℕ := 0
  changes : Dict UUID (DeviceID × ℕ × ℕ) := ∅

inductive VlobError where
  | access
  | version
  | timestamp (timestamp lastVersionTimestamp : DateTime)
  | notFound (reason : String)
  | alreadyExists
  | encryptionRevision
  | inMaintenance (reason : String)
  | notInMaintenance (reason : String)
deriving DecidableEq, Repr

structure MemoryVlobComponent (β : Type) where
  vlobs : Dict (OrganizationID × UUID) (Vlob β) := ∅
  perRealmChanges : Dict (OrganizationID × UUID) Changes := ∅

def canReadRoles : List (Option RealmRole) :=
  [some .owner, some .manager, some .contributor, some .reader]
def canWriteRoles : List (Option RealmRole) := [some .owner, some .manager, some .contributor]

namespace MemoryVlobComponent

variable {β : Type}

def getVlob (component : MemoryVlobComponent β) (organizationId : OrganizationID) (vlobId : UUID) :
    Except VlobError (Vlob β) :=
  match component.vlobs.get? (organizationId, vlobId) with
  | some vlob => .ok vlob
  | none => .error (.notFound s!"Vlob `{vlobId}` doesn't exist")

/-- The maintenance part of `_check_realm_access`; an expectation of `none` checks nothing. -/
def checkMaintenance (realmId : UUID) (realm : Realm) : Option Bool → Except VlobError Unit
  | some false => .require (¬ realm.status.inMaintenance)
      (.inMaintenance s!"Realm `{realmId}` is currently under maintenance")
  | some true => .require realm.status.inMaintenance
      (.notInMaintenance s!"Realm `{realmId}` not under maintenance")
  | none => .ok ()

def checkRealmAccess (realms : MemoryRealmComponent) (organizationId : OrganizationID) (realmId : UUID)
    (userId : UserID) (encryptionRevision : Option ℕ) (allowedRoles : List (Option RealmRole))
    (expectedMaintenance : Option Bool) : Except VlobError Unit := do
  let realm ← (realms.getRealm organizationId realmId).mapError fun _ =>
    .notFound s!"Realm `{realmId}` doesn't exist"
  .require (realm.roles.get? userId ∈ allowedRoles) .access
  checkMaintenance realmId realm expectedMaintenance
  .require (encryptionRevision ∈ [none, some realm.status.encryptionRevision]) .encryptionRevision

def checkRealmReadAccess (realms : MemoryRealmComponent) (organizationId : OrganizationID)
    (realmId : UUID) (userId : UserID) (encryptionRevision : Option ℕ) : Except VlobError Unit :=
  checkRealmAccess realms organizationId realmId userId encryptionRevision canReadRoles (some false)

def checkRealmWriteAccess (realms : MemoryRealmComponent) (organizationId : OrganizationID)
    (realmId : UUID) (userId : UserID) (encryptionRevision : Option ℕ) : Except VlobError Unit :=
  checkRealmAccess realms organizationId realmId userId encryptionRevision canWriteRoles (some false)

def updateChanges (component : MemoryVlobComponent β) (organizationId : OrganizationID)
    (author : DeviceID) (realmId srcId : UUID) (srcVersion : ℕ) : MemoryVlobComponent β :=
  let changes := (component.perRealmChanges.get? (organizationId, realmId)).getD {}
  let checkpoint := changes.checkpoint + 1
  { component with
    perRealmChanges := component.perRealmChanges.insert (organizationId, realmId)
      ⟨checkpoint, changes.changes.insert srcId (author, checkpoint, srcVersion)⟩ }

def create (component : MemoryVlobComponent β) (realms : MemoryRealmComponent)
    (organizationId : OrganizationID) (author : DeviceID) (realmId : UUID) (encryptionRevision : ℕ)
    (vlobId : UUID) (timestamp : DateTime) (blob : β) : Except VlobError (MemoryVlobComponent β) := do
  checkRealmWriteAccess realms organizationId realmId author.userId (some encryptionRevision)
  .require (component.vlobs.get? (organizationId, vlobId) = none) .alreadyExists
  let stored : MemoryVlobComponent β := { component with
    vlobs := component.vlobs.insert (organizationId, vlobId) ⟨realmId, [⟨blob, author, timestamp⟩]⟩ }
  return stored.updateChanges organizationId author realmId vlobId 1

/-- The last version dated no later, counted from one; the source scans from the newest down. -/
def lastVersionAt (data : List (VlobVersion β)) (timestamp : DateTime) : Except VlobError ℕ :=
  match data.reverse.findIdx? (·.timestamp ≤ timestamp) with
  | some index => .ok (data.length - index)
  | none => .error .version

/-- The version at a number. Number zero reads the newest one, as the index `-1` does. -/
def versionAt? (data : List (VlobVersion β)) : ℕ → Option (VlobVersion β)
  | 0 => data.getLast?
  | index + 1 => data[index]?

/-- The number of the version that `read` is asked for. -/
def chooseVersion (vlob : Vlob β) : Option ℕ → Option DateTime → Except VlobError ℕ
  | some version, _ => .ok version
  | none, none => .ok vlob.currentVersion
  | none, some timestamp => lastVersionAt vlob.data timestamp

def read (component : MemoryVlobComponent β) (realms : MemoryRealmComponent)
    (organizationId : OrganizationID) (author : DeviceID) (encryptionRevision : ℕ) (vlobId : UUID)
    (version : Option ℕ) (timestamp : Option DateTime) : Except VlobError (ℕ × VlobVersion β) := do
  let vlob ← component.getVlob organizationId vlobId
  checkRealmReadAccess realms organizationId vlob.realmId author.userId (some encryptionRevision)
  let number ← chooseVersion vlob version timestamp
  match versionAt? vlob.data number with
  | some data => return (number, data)
  | none => throw .version

def update (component : MemoryVlobComponent β) (realms : MemoryRealmComponent)
    (organizationId : OrganizationID) (author : DeviceID) (encryptionRevision : ℕ) (vlobId : UUID)
    (version : ℕ) (timestamp : DateTime) (blob : β) : Except VlobError (MemoryVlobComponent β) := do
  let vlob ← component.getVlob organizationId vlobId
  checkRealmWriteAccess realms organizationId vlob.realmId author.userId (some encryptionRevision)
  .require ((version : ℤ) - 1 = vlob.currentVersion) .version
  let last := (versionAt? vlob.data vlob.currentVersion).map (·.timestamp)
  .require (last.all (· ≤ timestamp)) (.timestamp timestamp (last.getD timestamp))
  let stored : MemoryVlobComponent β := { component with
    vlobs := component.vlobs.insert (organizationId, vlobId)
      { vlob with data := vlob.data ++ [⟨blob, author, timestamp⟩] } }
  return stored.updateChanges organizationId author vlob.realmId vlobId version

/-- The checkpoint of the realm, and the vlobs that have changed since an earlier one. -/
def pollChanges (component : MemoryVlobComponent β) (realms : MemoryRealmComponent)
    (organizationId : OrganizationID) (author : DeviceID) (realmId : UUID) (checkpoint : ℕ) :
    Except VlobError (ℕ × Dict UUID ℕ) := do
  checkRealmReadAccess realms organizationId realmId author.userId none
  let changes := (component.perRealmChanges.get? (organizationId, realmId)).getD {}
  let changesSinceCheckpoint := changes.changes.filter fun _ change => checkpoint < change.2.1
  return (changes.checkpoint, changesSinceCheckpoint.mapValues fun change => change.2.2)

def listVersions (component : MemoryVlobComponent β) (realms : MemoryRealmComponent)
    (organizationId : OrganizationID) (author : DeviceID) (vlobId : UUID) :
    Except VlobError (Dict ℕ (DateTime × DeviceID)) := do
  let vlob ← component.getVlob organizationId vlobId
  checkRealmReadAccess realms organizationId vlob.realmId author.userId none
  return .ofList (vlob.data.zipIdx.map fun entry => (entry.2 + 1, (entry.1.timestamp, entry.1.author)))

end MemoryVlobComponent

/-- The replies that refuse a vlob request. -/
inductive VlobRefusal where
  | badTimestamp
  | alreadyExists
  | notFound (reason : String)
  | notAllowed
  | badVersion
  | badEncryptionRevision
  | inMaintenance
  | invalidMsgFormat
  | uncaught (err : VlobError)
deriving DecidableEq, Repr

namespace MemoryVlobComponent

variable {β : Type}

def apiVlobCreate (component : MemoryVlobComponent β) (realms : MemoryRealmComponent)
    (ctx : ClientContext) (realmId : UUID) (encryptionRevision : ℕ) (vlobId : UUID)
    (timestamp : DateTime) (blob : β) (now : DateTime) : Except VlobRefusal (MemoryVlobComponent β) := do
  .require (timestampsInTheBallpark timestamp now) .badTimestamp
  (component.create realms ctx.organizationId ctx.deviceId realmId encryptionRevision vlobId timestamp
    blob).mapError fun
    | .alreadyExists => .alreadyExists
    | .access => .notAllowed
    | .encryptionRevision => .badEncryptionRevision
    | .inMaintenance _ => .inMaintenance
    | err => .uncaught err

def apiVlobRead (component : MemoryVlobComponent β) (realms : MemoryRealmComponent)
    (ctx : ClientContext) (encryptionRevision : ℕ) (vlobId : UUID) (version : Option ℕ)
    (timestamp : Option DateTime) : Except VlobRefusal (ℕ × VlobVersion β) := do
  .require (∀ number ∈ version, 1 ≤ number) .invalidMsgFormat
  (component.read realms ctx.organizationId ctx.deviceId encryptionRevision vlobId version
    timestamp).mapError fun
    | .notFound reason => .notFound reason
    | .access => .notAllowed
    | .version => .badVersion
    | .timestamp _ _ => .badTimestamp
    | .encryptionRevision => .badEncryptionRevision
    | .inMaintenance _ => .inMaintenance
    | err => .uncaught err

def apiVlobUpdate (component : MemoryVlobComponent β) (realms : MemoryRealmComponent)
    (ctx : ClientContext) (encryptionRevision : ℕ) (vlobId : UUID) (version : ℕ)
    (timestamp : DateTime) (blob : β) (now : DateTime) : Except VlobRefusal (MemoryVlobComponent β) := do
  .require (1 ≤ version) .invalidMsgFormat
  .require (timestampsInTheBallpark timestamp now) .badTimestamp
  (component.update realms ctx.organizationId ctx.deviceId encryptionRevision vlobId version timestamp
    blob).mapError fun
    | .notFound reason => .notFound reason
    | .access => .notAllowed
    | .version => .badVersion
    | .timestamp _ _ => .badTimestamp
    | .encryptionRevision => .badEncryptionRevision
    | .inMaintenance _ => .inMaintenance
    | err => .uncaught err

end MemoryVlobComponent

end Guardata
