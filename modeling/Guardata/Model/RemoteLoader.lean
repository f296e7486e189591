import Guardata.Model.Vlob

/-! # The remote loader of a client

A client trusts no reply of the backend. It replays the role certificates of a workspace in the
order of their declared dates and checks that every author had the right to grant, and it accepts
a manifest only if its author could write at the declared date of the manifest. The certificates
are cached together with the date at which the client's own clock stood when they were asked for.

Replies of the backend are arguments. A cache survives a load that raises, so loading returns the
loader beside its outcome.
-/

namespace Guardata

/-- What the client reads of a verified device certificate. -/
structure RemoteDevice where
  deviceId : DeviceID
  verifyKey : VerifyKey
deriving DecidableEq, Repr

/-- The registered devices of an organization with their keys. -/
abbrev DeviceDirectory := DeviceID → Option VerifyKey

inductive FSError where
  | deviceNotFound (deviceId : DeviceID)
  | workspaceNoReadAccess (reason : String)
  | cannotRetrieveRoles (refusal : RealmRefusal)
  | invalidRoleCertificates (err : DataError)
  | noRightToGive (author : DeviceID) (role : Option RealmRole) (userId : UserID) (timestamp : DateTime)
  | versionAndTimestamp (version : ℕ) (timestamp : DateTime) (entryId : UUID)
  | remoteManifestNotFound (entryId : UUID)
  | remoteManifestNotFoundBadVersion (entryId : UUID)
  | remoteManifestNotFoundBadTimestamp (entryId : UUID)
  | badEncryptionRevision (reason : String)
  | workspaceInMaintenance (reason : String)
  | cannotFetchVlob (entryId : UUID) (refusal : VlobRefusal)
  | invalidVersion (entryId : UUID) (expected : Option ℕ) (got : ℕ)
  | invalidExpectedTimestamp (entryId : UUID) (expected : Option DateTime) (got : DateTime)
  | cannotDecryptVlob (err : DataError)
  | noAccessRightAtThatTime (author : DeviceID) (timestamp : DateTime)
  | noWriteRightAtThatTime (author : DeviceID) (timestamp : DateTime)
deriving DecidableEq, Repr

/-- `RemoteDevicesManager.get_device` over the devices whose trustchain is valid. -/
def getDevice (directory : DeviceDirectory) (deviceId : DeviceID) : Except FSError RemoteDevice :=
  match directory deviceId with
  | some verifyKey => .ok ⟨deviceId, verifyKey⟩
  | none => .error (.deviceNotFound deviceId)

/-- One certificate applied to a table of current roles. -/
def applyCertificate (currentRoles : Dict UserID RealmRole) (certif : RealmRoleCertificateContent) :
    Dict UserID RealmRole :=
  match certif.role with
  | none => currentRoles.erase certif.userId
  | some role => currentRoles.insert certif.userId role

/-- The roles with which an author may sign a certificate. The first user signs for itself. -/
def rolesNeededToSign (currentRoles : Dict UserID RealmRole) (author : DeviceID)
    (certif : RealmRoleCertificateContent) : List (Option RealmRole) :=
  if currentRoles.items = [] ∧ certif.userId = author.userId then [none]
  else neededRoles (currentRoles.get? certif.userId) certif.role

/-- Verify one certificate and apply it. -/
def verifyRoleCertificate (directory : DeviceDirectory) (currentRoles : Dict UserID RealmRole)
    (unsecure : RealmRoleCertificateContent × Signed RealmRoleCertificateContent) :
    Except FSError (Dict UserID RealmRole) := do
  let certif := unsecure.1
  let author ← getDevice directory certif.author
  let _ ← (RealmRoleCertificateContent.verifyAndLoad unsecure.2 author.verifyKey author.deviceId).mapError
    .invalidRoleCertificates
  .require (currentRoles.get? certif.author.userId ∈ rolesNeededToSign currentRoles author.deviceId certif)
    (.noRightToGive certif.author certif.role certif.userId certif.timestamp)
  return applyCertificate currentRoles certif

/-- `_load_realm_role_certificates`: the certificates by date, and the roles they lead to. -/
def loadRealmRoleCertificates (directory : DeviceDirectory)
    (reply : Except RealmRefusal (List (Signed RealmRoleCertificateContent))) :
    Except FSError (List RealmRoleCertificateContent × Dict UserID RealmRole) := do
  let certificates ← reply.mapError fun
    | .notAllowed _ => .workspaceNoReadAccess "Cannot get workspace roles: no read access"
    | refusal => .cannotRetrieveRoles refusal
  let loaded ← certificates.mapM fun raw =>
    (raw.unsecureLoad.mapError FSError.invalidRoleCertificates).map fun certif => (certif, raw)
  let unsecureCertifs := loaded.sortedBy (·.1.timestamp)
  let currentRoles ← unsecureCertifs.foldlM (verifyRoleCertificate directory) ∅
  return (unsecureCertifs.map Prod.fst, currentRoles)

structure RemoteLoader where
  deviceId : DeviceID
  workspaceId : UUID
  /-- The certificates and the local date of the request that brought them. -/
  realmRoleCertificatesCache : Option (List RealmRoleCertificateContent × DateTime) := none

/-- The role that the newest certificate about the user dated no later gives. -/
def roleAt (certifs : List RealmRoleCertificateContent) (userId : UserID) (timestamp : DateTime) :
    Option RealmRole :=
  (certifs.reverse.find? fun certif => certif.userId = userId ∧ certif.timestamp ≤ timestamp).bind (·.role)

namespace RemoteLoader

/-- The cached certificates, unless they are too old to speak about the date. -/
def cachedCertificates? (loader : RemoteLoader) (timestamp : DateTime) :
    Option (List RealmRoleCertificateContent) :=
  match loader.realmRoleCertificatesCache with
  | some (certifs, cacheTimestamp) =>
      if certifs = [] ∨ cacheTimestamp ≤ timestamp then none else some certifs
  | none => none

/-- `_get_user_realm_role_at`; `load` is what loading the certificates now leads to. -/
def getUserRealmRoleAt (loader : RemoteLoader)
    (load : Except FSError (List RealmRoleCertificateContent × Dict UserID RealmRole)) (now : DateTime)
    (userId : UserID) (timestamp : DateTime) : Except FSError (Option RealmRole) × RemoteLoader :=
  match loader.cachedCertificates? timestamp with
  | some certifs => (.ok (roleAt certifs userId timestamp), loader)
  | none =>
      match load with
      | .error err => (.error err, loader)
      | .ok (certifs, _) => (.ok (roleAt certifs userId timestamp),
          { loader with realmRoleCertificatesCache := some (certifs, now) })

end RemoteLoader

/-- The two checks on the role that an author had at the date of its manifest. -/
def checkAuthorRole (author : DeviceID) (timestamp : DateTime) :
    Option RealmRole → Except FSError Unit
  | none => .error (.noAccessRightAtThatTime author timestamp)
  | some .reader => .error (.noWriteRightAtThatTime author timestamp)
  | some _ => .ok ()

section Manifest

variable {γ : Type}

/-- What the backend stores and serves for a manifest. -/
abbrev ManifestBlob (γ : Type) := Ciphered (Signed (RemoteManifest γ))

/-- What the client knows about the encryption of a workspace. -/
structure WorkspaceEntry where
  key : SecretKey
  encryptionRevision : ℕ
deriving DecidableEq, Repr

/-- The first part of `load_manifest`, from the reply of `vlob_read` to the verified manifest. -/
def verifyManifest (directory : DeviceDirectory) (entry : WorkspaceEntry) (entryId : UUID)
    (version : Option ℕ) (expectedBackendTimestamp : Option DateTime)
    (reply : Except VlobRefusal (ℕ × VlobVersion (ManifestBlob γ))) :
    Except FSError (RemoteManifest γ × VlobVersion (ManifestBlob γ)) := do
  let (expectedVersion, data) ← reply.mapError fun
    | .notFound _ => .remoteManifestNotFound entryId
    | .notAllowed => .workspaceNoReadAccess "Cannot load manifest: no read access"
    | .badVersion => .remoteManifestNotFoundBadVersion entryId
    | .badTimestamp => .remoteManifestNotFoundBadTimestamp entryId
    | .badEncryptionRevision =>
        .badEncryptionRevision s!"Cannot fetch vlob {entryId}: Bad encryption revision provided"
    | .inMaintenance =>
        .workspaceInMaintenance "Cannot download vlob while the workspace is in maintenance"
    | refusal => .cannotFetchVlob entryId refusal
  .require (version ∈ [none, some expectedVersion]) (.invalidVersion entryId version expectedVersion)
  .require (expectedBackendTimestamp ∈ [none, some data.timestamp])
    (.invalidExpectedTimestamp entryId expectedBackendTimestamp data.timestamp)
  let author ← getDevice directory data.author
  let manifest ← (RemoteManifest.decryptVerifyAndLoad data.blob entry.key author.verifyKey data.author
    data.timestamp entryId expectedVersion).mapError .cannotDecryptVlob
  return (manifest, data)

/-- `load_manifest`, given the replies to its two requests. -/
def RemoteLoader.loadManifest (loader : RemoteLoader) (directory : DeviceDirectory)
    (entry : WorkspaceEntry) (entryId : UUID) (version : Option ℕ)
    (timestamp expectedBackendTimestamp : Option DateTime)
    (vlobRead : Option ℕ → Option DateTime → Except VlobRefusal (ℕ × VlobVersion (ManifestBlob γ)))
    (roleCertificates : Except RealmRefusal (List (Signed RealmRoleCertificateContent)))
    (now : DateTime) : Except FSError (RemoteManifest γ) × RemoteLoader :=
  match version, timestamp with
  | some version, some timestamp => (.error (.versionAndTimestamp version timestamp entryId), loader)
  | _, _ =>
    match verifyManifest directory entry entryId version expectedBackendTimestamp
        (vlobRead version timestamp) with
    | .error err => (.error err, loader)
    | .ok (manifest, data) =>
      let (outcome, loader) := loader.getUserRealmRoleAt
        (loadRealmRoleCertificates directory roleCertificates) now data.author.userId data.timestamp
      (outcome.bind fun role => (checkAuthorRole data.author data.timestamp role).map fun _ => manifest,
        loader)

end Manifest

end Guardata
