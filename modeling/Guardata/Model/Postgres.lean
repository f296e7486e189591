import Guardata.Model.Reencryption

/-! # The PostgreSQL backend

The tables behind realms and vlobs, and the queries on them, read as operations on sets of rows under the
declared constraints. A query runs in a transaction: what raises leaves the tables as they were. A list of
rows stands for a set; where SQL leaves the order open (`LIMIT` without `ORDER BY`, equal dates), the queries
take it as it is.

The organization and the users are referred to by their own ids. Left out are the queries that only read, the
columns that no query here reads, the messages, the signals and `realm_vlob_update`.
-/

namespace Guardata

/-- What a query can raise. -/
inductive PgError where
  | realm (error : RealmError)
  | vlob (error : VlobError)
  | assertion
  | uniqueViolation
  | notNullViolation
deriving DecidableEq, Repr

/-- A row of `realm`, with the columns of its status. -/
structure RealmRow where
  id : ℕ
  organization : OrganizationID
  realmId : UUID
  status : RealmStatus
deriving DecidableEq, Repr

def RealmRow.changeStatus (realm : ℕ) (change : RealmStatus → RealmStatus) (row : RealmRow) : RealmRow :=
  if row.id = realm then { row with status := change row.status } else row

/-- A row of `realm_user_role`. -/
structure RealmUserRoleRow where
  realm : ℕ
  user : UserID
  role : Option RealmRole
  certifiedOn : DateTime
deriving DecidableEq, Repr

/-- A row of `vlob_encryption_revision`. -/
structure VlobEncryptionRevisionRow where
  id : ℕ
  realm : ℕ
  encryptionRevision : ℕ
deriving DecidableEq, Repr

/-- A row of `vlob_atom`. -/
structure VlobAtomRow (β : Type) where
  organization : OrganizationID
  vlobEncryptionRevision : ℕ
  vlobId : UUID
  version : ℕ
  blob : β
  author : DeviceID
  createdOn : DateTime
deriving DecidableEq, Repr

/-- The tables, with the next number of their sequences. -/
structure PgTables (β : Type) where
  realm : List RealmRow := []
  realmUserRole : List RealmUserRoleRow := []
  vlobEncryptionRevision : List VlobEncryptionRevisionRow := []
  vlobAtom : List (VlobAtomRow β) := []
  sequence : ℕ := 1

namespace PgTables

variable {β : Type} (tables : PgTables β)

section Select

def qRealm (organizationId : OrganizationID) (realmId : UUID) : Option RealmRow :=
  tables.realm.find? fun row => row.organization = organizationId ∧ row.realmId = realmId

def qRealmInternalId (organizationId : OrganizationID) (realmId : UUID) : Option ℕ :=
  (tables.qRealm organizationId realmId).map (·.id)

def qVlobEncryptionRevisionInternalId (organizationId : OrganizationID) (realmId : UUID)
    (encryptionRevision : ℕ) : Option ℕ :=
  (tables.vlobEncryptionRevision.find? fun row =>
    some row.realm = tables.qRealmInternalId organizationId realmId ∧
      row.encryptionRevision = encryptionRevision).map (·.id)

/-- `WHERE vlob_encryption_revision = …`, which selects nothing if the right-hand side is `NULL`. -/
def atomsOf (revision : Option ℕ) : List (VlobAtomRow β) :=
  tables.vlobAtom.filter fun row => some row.vlobEncryptionRevision = revision

/-- The role that a user was granted last in a realm, by the dates of the certificates. -/
def currentRealmRole (realm : ℕ) (user : UserID) : Option RealmRole :=
  ((tables.realmUserRole.filter fun row => row.realm = realm ∧ row.user = user).sortedBy
    (·.certifiedOn)).getLast?.bind (·.role)

def getRealmStatus (organizationId : OrganizationID) (realmId : UUID) : Except RealmError RealmRow :=
  match tables.qRealm organizationId realmId with
  | some row => .ok row
  | none => .error (.notFound s!"Realm `{realmId}` doesn't exist")

end Select

section Write

/-- `UPDATE realm SET … WHERE _id = …`. -/
def updateStatus (realm : ℕ) (change : RealmStatus → RealmStatus) : PgTables β :=
  { tables with realm := tables.realm.map (RealmRow.changeStatus realm change) }

def insertVlobEncryptionRevision (realm encryptionRevision : ℕ) : Except PgError (PgTables β) := do
  .require (∀ row ∈ tables.vlobEncryptionRevision,
    ¬(row.realm = realm ∧ row.encryptionRevision = encryptionRevision)) .uniqueViolation
  return { tables with
    vlobEncryptionRevision :=
      tables.vlobEncryptionRevision ++ [⟨tables.sequence, realm, encryptionRevision⟩]
    sequence := tables.sequence + 1 }

def insertVlobAtom (organization : OrganizationID) (revision : Option ℕ) (vlobId : UUID) (version : ℕ)
    (blob : β) (author : DeviceID) (createdOn : DateTime) : Except PgError (PgTables β) := do
  let revision ← revision.elim (.error .notNullViolation) .ok
  .require (∀ row ∈ tables.vlobAtom, ¬(row.vlobEncryptionRevision = revision ∧ row.vlobId = vlobId ∧
    row.version = version)) .uniqueViolation
  return { tables with
    vlobAtom := tables.vlobAtom ++ [⟨organization, revision, vlobId, version, blob, author, createdOn⟩] }

/-- An insert with `ON CONFLICT DO NOTHING`. -/
def insertOrNothing (row : VlobAtomRow β) : PgTables β :=
  if ∃ other ∈ tables.vlobAtom, other.vlobEncryptionRevision = row.vlobEncryptionRevision ∧
      other.vlobId = row.vlobId ∧ other.version = row.version then tables
  else { tables with vlobAtom := tables.vlobAtom ++ [row] }

end Write

end PgTables

namespace RealmQueries

variable {β : Type} (tables : PgTables β) (users : UserTable)

def queryCreate (organizationId : OrganizationID) (selfGrantedRole : RealmGrantedRole) :
    Except PgError (PgTables β) := do
  .require (selfGrantedRole.grantedBy.userId = selfGrantedRole.userId) .assertion
  .require (selfGrantedRole.role = some .owner) .assertion
  .require (tables.qRealm organizationId selfGrantedRole.realmId = none) (.realm .alreadyExists)
  let id := tables.sequence
  let created : PgTables β := { tables with
    realm := tables.realm ++ [⟨id, organizationId, selfGrantedRole.realmId, ⟨none, none, none, 1⟩⟩]
    realmUserRole := tables.realmUserRole ++
      [⟨id, selfGrantedRole.userId, some .owner, selfGrantedRole.grantedOn⟩]
    sequence := id + 1 }
  created.insertVlobEncryptionRevision id 1

def queryUpdateRoles (organizationId : OrganizationID) (newRole : RealmGrantedRole) :
    Except PgError (PgTables β) := do
  .require (newRole.grantedBy.userId ≠ newRole.userId) (.realm .access)
  let user ← (users organizationId newRole.userId).elim
    (.error (.realm (.notFound s!"User `{newRole.userId}` doesn't exist"))) .ok
  .require (¬(user.profile = .outsider ∧ newRole.role ∈ [some RealmRole.manager, some .owner]))
    (.realm (.incompatibleProfile "User with OUTSIDER profile cannot be MANAGER or OWNER"))
  let realm ← (tables.getRealmStatus organizationId newRole.realmId).mapError .realm
  .require (¬realm.status.inMaintenance) (.realm (.inMaintenance "Data realm is currently under maintenance"))
  .require (users organizationId newRole.grantedBy.userId).isSome .assertion
  let authorRole := tables.currentRealmRole realm.id newRole.grantedBy.userId
  let existingUserRole := tables.currentRealmRole realm.id newRole.userId
  .require (authorRole ∈ neededRoles existingUserRole newRole.role) (.realm .access)
  .require (existingUserRole ≠ newRole.role) (.realm .roleAlreadyGranted)
  return { tables with
    realmUserRole := tables.realmUserRole ++ [⟨realm.id, newRole.userId, newRole.role, newRole.grantedOn⟩] }

/-- `_cook_role` of `_get_realm_role_for_not_revoked`. -/
def cookRole (organizationId : OrganizationID) (realm : ℕ) (now : DateTime) (user : UserID) :
    Option RealmRole :=
  if (users organizationId user).any fun row => row.revokedOn.any (· ≤ now) then none
  else tables.currentRealmRole realm user

/-- The users of `_get_realm_role_for_not_revoked`, when it is not asked for some of them. -/
def notRevokedParticipants (organizationId : OrganizationID) (realm : ℕ) (now : DateTime) : List UserID :=
  ((tables.realmUserRole.filter (·.realm = realm)).map (·.user)).dedup.filter fun user =>
    (cookRole tables users organizationId realm now user).isSome

def queryStartReencryptionMaintenance (organizationId : OrganizationID) (author : DeviceID) (realmId : UUID)
    (encryptionRevision : ℕ) (recipients : List UserID) (timestamp now : DateTime) :
    Except PgError (PgTables β) := do
  let realm ← (tables.getRealmStatus organizationId realmId).mapError .realm
  .require (¬realm.status.inMaintenance)
    (.realm (.inMaintenance s!"Realm `{realmId}` alrealy in maintenance"))
  .require (encryptionRevision = realm.status.encryptionRevision + 1)
    (.realm (.encryptionRevision "Invalid encryption revision"))
  .require (cookRole tables users organizationId realm.id now author.userId = some .owner) (.realm .access)
  let participants := notRevokedParticipants tables users organizationId realm.id now
  .require (recipients ⊆ participants ∧ participants ⊆ recipients)
    (.realm (.participantsMismatch "Realm participants and message recipients mismatch"))
  let started := tables.updateStatus realm.id fun _ =>
    ⟨some .reencryption, some timestamp, some author, encryptionRevision⟩
  started.insertVlobEncryptionRevision realm.id encryptionRevision

/-- `_query_finish_reencryption_maintenance_get_info`: the revisions that have versions, with their
number. -/
def finishInfo (organizationId : OrganizationID) (realmId : UUID) (encryptionRevision : ℕ) : List (ℕ × ℕ) :=
  [encryptionRevision - 1, encryptionRevision].filterMap fun revision =>
    let atoms := tables.atomsOf
      (tables.qVlobEncryptionRevisionInternalId organizationId realmId revision)
    if atoms.isEmpty then none else some (revision, atoms.length)

def queryFinishReencryptionMaintenance (organizationId : OrganizationID) (author : DeviceID)
    (realmId : UUID) (encryptionRevision : ℕ) (now : DateTime) : Except PgError (PgTables β) := do
  let realm ← (tables.getRealmStatus organizationId realmId).mapError .realm
  .require (users organizationId author.userId).isSome
    (.realm (.notFound s!"User `{author.userId}` doesn't exist"))
  .require (cookRole tables users organizationId realm.id now author.userId = some .owner) (.realm .access)
  .require realm.status.inMaintenance (.realm (.notInMaintenance s!"Realm `{realmId}` not under maintenance"))
  .require (encryptionRevision = realm.status.encryptionRevision)
    (.realm (.encryptionRevision "Invalid encryption revision"))
  match finishInfo tables organizationId realmId encryptionRevision with
  | [previous, current] => do
      .require (previous.1 = encryptionRevision - 1 ∧ current.1 = encryptionRevision) .assertion
      .require (previous.2 ≥ current.2) .assertion
      .require (previous.2 = current.2) (.realm (.maintenance "Reencryption operations are not over"))
      return tables.updateStatus realm.id fun status => ⟨none, none, none, status.encryptionRevision⟩
  | _ => throw (.realm (.maintenance "Reencryption operations are not over"))

end RealmQueries

namespace VlobQueries

variable {β : Type} (tables : PgTables β) (users : UserTable)

section Access

def checkRealm (organizationId : OrganizationID) (realmId : UUID) (encryptionRevision : Option ℕ)
    (expectedMaintenance : Bool) : Except PgError Unit := do
  let realm ← (tables.getRealmStatus organizationId realmId).mapError fun _ =>
    .vlob (.notFound s!"Realm `{realmId}` doesn't exist")
  .require (realm.status.inMaintenance = expectedMaintenance)
    (.vlob (if expectedMaintenance then .notInMaintenance s!"Realm `{realmId}` not under maintenance"
      else .inMaintenance "Data realm is currently under maintenance"))
  .require (encryptionRevision ∈ [none, some realm.status.encryptionRevision]) (.vlob .encryptionRevision)

def checkRealmAccess (organizationId : OrganizationID) (realmId : UUID) (author : DeviceID)
    (allowedRoles : List (Option RealmRole)) : Except PgError Unit := do
  .require (users organizationId author.userId).isSome
    (.vlob (.notFound s!"User `{author.userId}` doesn't exist"))
  .require ((tables.qRealmInternalId organizationId realmId).bind (tables.currentRealmRole · author.userId) ∈
    allowedRoles) (.vlob .access)

def checkRealmAndWriteAccess (organizationId : OrganizationID) (author : DeviceID) (realmId : UUID)
    (encryptionRevision : ℕ) : Except PgError Unit := do
  checkRealm tables organizationId realmId (some encryptionRevision) false
  checkRealmAccess tables users organizationId realmId author canWriteRoles

def checkRealmAndMaintenanceAccess (organizationId : OrganizationID) (author : DeviceID) (realmId : UUID)
    (encryptionRevision : ℕ) : Except PgError Unit := do
  checkRealm tables organizationId realmId (some encryptionRevision) true
  checkRealmAccess tables users organizationId realmId author [some .owner]

/-- The realm of a row, over the two joins. -/
def realmOfAtom (row : VlobAtomRow β) : Option RealmRow := do
  let revision ← tables.vlobEncryptionRevision.find? (·.id = row.vlobEncryptionRevision)
  tables.realm.find? (·.id = revision.realm)

def getRealmIdFromVlobId (organizationId : OrganizationID) (vlobId : UUID) : Except PgError UUID :=
  let atom := tables.vlobAtom.find? fun row => row.organization = organizationId ∧ row.vlobId = vlobId
  ((atom.bind (realmOfAtom tables)).map (·.realmId)).elim
    (.error (.vlob (.notFound s!"Vlob `{vlobId}` doesn't exist"))) .ok

end Access

section Write

def queryCreate (organizationId : OrganizationID) (author : DeviceID) (realmId : UUID)
    (encryptionRevision : ℕ) (vlobId : UUID) (timestamp : DateTime) (blob : β) :
    Except PgError (PgTables β) := do
  checkRealmAndWriteAccess tables users organizationId author realmId encryptionRevision
  (tables.insertVlobAtom organizationId
    (tables.qVlobEncryptionRevisionInternalId organizationId realmId encryptionRevision) vlobId 1 blob author
    timestamp).mapError fun
    | .uniqueViolation => .vlob .alreadyExists
    | error => error

/-- The rows of a vlob, of all its revisions. -/
def atomsOfVlob (organizationId : OrganizationID) (vlobId : UUID) : List (VlobAtomRow β) :=
  tables.vlobAtom.filter fun row => row.organization = organizationId ∧ row.vlobId = vlobId

def queryUpdate (organizationId : OrganizationID) (author : DeviceID) (encryptionRevision : ℕ)
    (vlobId : UUID) (version : ℕ) (timestamp : DateTime) (blob : β) : Except PgError (PgTables β) := do
  let realmId ← getRealmIdFromVlobId tables organizationId vlobId
  checkRealmAndWriteAccess tables users organizationId author realmId encryptionRevision
  let previous ← ((atomsOfVlob tables organizationId vlobId).sortedBy (·.version)).getLast?.elim
    (.error (.vlob (.notFound s!"Vlob `{vlobId}` doesn't exist"))) .ok
  .require ((previous.version : ℤ) = version - 1) (.vlob .version)
  .require (previous.createdOn ≤ timestamp) (.vlob (.timestamp timestamp previous.createdOn))
  (tables.insertVlobAtom organizationId
    (tables.qVlobEncryptionRevisionInternalId organizationId realmId encryptionRevision) vlobId version blob
    author timestamp).mapError fun
    | .uniqueViolation => .vlob .version
    | error => error

end Write

section Maintenance

/-- The loop body of the save: a row for every version of that number that a vlob of that id has at
any revision. -/
def copyAtoms (organizationId : OrganizationID) (revision : Option ℕ) (item : BatchItem β) :
    Except PgError (PgTables β) :=
  let (vlobId, version, blob) := item
  ((atomsOfVlob tables organizationId vlobId).filter (·.version = version)).foldlM (fun tables row =>
    revision.elim (.error .notNullViolation) fun revision =>
      .ok (tables.insertOrNothing { row with vlobEncryptionRevision := revision, blob := blob })) tables

def queryMaintenanceSaveReencryptionBatch (organizationId : OrganizationID) (author : DeviceID)
    (realmId : UUID) (encryptionRevision : ℕ) (batch : List (BatchItem β)) :
    Except PgError (PgTables β × ℕ × ℕ) := do
  checkRealmAndMaintenanceAccess tables users organizationId author realmId encryptionRevision
  let revision := tables.qVlobEncryptionRevisionInternalId organizationId realmId encryptionRevision
  let previous := tables.qVlobEncryptionRevisionInternalId organizationId realmId (encryptionRevision - 1)
  let saved ← batch.foldlM (copyAtoms · organizationId revision) tables
  return (saved, (saved.atomsOf previous).length, (saved.atomsOf revision).length)

end Maintenance

end VlobQueries

inductive PgRequest (β : Type) where
  | realmCreate (organizationId : OrganizationID) (grant : RealmGrantedRole)
  | updateRoles (organizationId : OrganizationID) (grant : RealmGrantedRole)
  | vlobCreate (organizationId : OrganizationID) (author : DeviceID) (realmId : UUID)
      (encryptionRevision : ℕ) (vlobId : UUID) (timestamp : DateTime) (blob : β)
  | vlobUpdate (organizationId : OrganizationID) (author : DeviceID) (encryptionRevision : ℕ)
      (vlobId : UUID) (version : ℕ) (timestamp : DateTime) (blob : β)
  | start (organizationId : OrganizationID) (author : DeviceID) (realmId : UUID) (encryptionRevision : ℕ)
      (recipients : List UserID) (timestamp now : DateTime)
  | saveBatch (organizationId : OrganizationID) (author : DeviceID) (realmId : UUID)
      (encryptionRevision : ℕ) (batch : List (BatchItem β))
  | finish (organizationId : OrganizationID) (author : DeviceID) (realmId : UUID)
      (encryptionRevision : ℕ) (now : DateTime)

/-- A request that is accepted, with the users of its time. -/
def PgTables.step? {β : Type} (tables : PgTables β) : UserTable × PgRequest β → Option (PgTables β)
  | (_, .realmCreate organizationId grant) => (RealmQueries.queryCreate tables organizationId grant).toOption
  | (users, .updateRoles organizationId grant) =>
      (RealmQueries.queryUpdateRoles tables users organizationId grant).toOption
  | (users, .vlobCreate organizationId author realmId encryptionRevision vlobId timestamp blob) =>
      (VlobQueries.queryCreate tables users organizationId author realmId encryptionRevision vlobId timestamp
        blob).toOption
  | (users, .vlobUpdate organizationId author encryptionRevision vlobId version timestamp blob) =>
      (VlobQueries.queryUpdate tables users organizationId author encryptionRevision vlobId version timestamp
        blob).toOption
  | (users, .start organizationId author realmId encryptionRevision recipients timestamp now) =>
      (RealmQueries.queryStartReencryptionMaintenance tables users organizationId author realmId
        encryptionRevision recipients timestamp now).toOption
  | (users, .saveBatch organizationId author realmId encryptionRevision batch) =>
      (VlobQueries.queryMaintenanceSaveReencryptionBatch tables users organizationId author realmId
        encryptionRevision batch).toOption.map (·.1)
  | (users, .finish organizationId author realmId encryptionRevision now) =>
      (RealmQueries.queryFinishReencryptionMaintenance tables users organizationId author realmId
        encryptionRevision now).toOption

end Guardata
