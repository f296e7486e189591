import Guardata.Model.SignedData
import Guardata.ToMathlib.Dict

/-! # The trustchain of an organization

A client is handed user, device and revocation certificates and verifies them up to the root key
of the organization. All contents are first read unverified into flat tables. A certificate is
then accepted if the device that signed it is, recursively, and if the tables say that the user of
this device is an admin, or that it signs a device of its own user. Only the chain of devices is
watched for loops.

With an entry in the cache, the content is taken from there and not verified again. Verification
returns the content that stands in the table already, so writing it back, as the source does,
changes nothing. The recursion carries a bound that the loop detection never lets it reach.
-/

namespace Guardata

structure UserCertificateContent where
  author : Option DeviceID
  timestamp : DateTime
  userId : UserID
  profile : UserProfile
deriving DecidableEq, Repr

/-- A revocation is never signed by the root key. -/
structure RevokedUserCertificateContent where
  author : DeviceID
  timestamp : DateTime
  userId : UserID
deriving DecidableEq, Repr

structure DeviceCertificateContent where
  author : Option DeviceID
  timestamp : DateTime
  deviceId : DeviceID
  verifyKey : VerifyKey
deriving DecidableEq, Repr

/-- What the verification reads of a certificate of any kind. -/
class CertificateContent (α : Type) where
  author : α → Option DeviceID
  timestamp : α → DateTime
  /-- The user that the certificate is about. -/
  verifiedUserId : α → UserID

instance : CertificateContent UserCertificateContent := ⟨(·.author), (·.timestamp), (·.userId)⟩
instance : CertificateContent RevokedUserCertificateContent :=
  ⟨fun content => some content.author, (·.timestamp), (·.userId)⟩
instance : CertificateContent DeviceCertificateContent :=
  ⟨(·.author), (·.timestamp), (·.deviceId.userId)⟩

/-- One link of a chain of signatures, as it is shown in an error. -/
inductive ChainLink where
  | device (deviceId : DeviceID)
  | creation (userId : UserID)
  | revocation (userId : UserID)
  | rootKey
deriving DecidableEq, Repr

inductive TrustchainError where
  | unreadable (err : DataError)
  | invalidCertificate (path : List ChainLink) (err : DataError)
  | missingUser (path : List ChainLink) (userId : UserID)
  | notAdmin (path : List ChainLink) (userId : UserID)
  | posteriorToRevocation (path : List ChainLink) (timestamp revokedOn : DateTime)
  | signatureLoop (path : List ChainLink)
  | missingDevice (path : List ChainLink) (deviceId : DeviceID)
  | selfSignedUser (userId : UserID)
  | selfSignedRevocation (userId : UserID)
  | unexpectedUser (expected got : UserID)
  | unexpectedDevice (expected : UserID) (got : DeviceID)
  | indexError
  | recursionBound
deriving DecidableEq, Repr

structure CertifState (α : Type) where
  certif : Signed α
  content : α
  verified : Bool

/-- The flat tables of one load. -/
structure TrustchainStates where
  users : Dict UserID (CertifState UserCertificateContent)
  revokedUsers : Dict UserID (CertifState RevokedUserCertificateContent)
  devices : Dict DeviceID (CertifState DeviceCertificateContent)

/-- Verified contents with the date at which they were verified. -/
abbrev CertificateCache (κ α : Type) := Dict κ (DateTime × α)

structure TrustchainContext where
  rootVerifyKey : VerifyKey
  cacheValidity : ℤ
  usersCache : CertificateCache UserID UserCertificateContent := ∅
  devicesCache : CertificateCache DeviceID DeviceCertificateContent := ∅
  revokedUsersCache : CertificateCache UserID RevokedUserCertificateContent := ∅

section Tables

variable {κ α : Type} [DecidableEq κ]

/-- `get_user`, `get_device` and `get_revoked_user`: a cached content that is still valid. The
validity is given in seconds. -/
def getCached (cacheValidity : ℤ) (cache : CertificateCache κ α) (now : DateTime) (id : κ) : Option α :=
  match cache.get? id with
  | some (cachedOn, verified) => if now - cachedOn < cacheValidity * 1000000 then some verified else none
  | none => none

/-- Read one certificate into a table. -/
def loadState (idOf : α → κ) (cached : κ → Option α) (states : Dict κ (CertifState α))
    (certif : Signed α) : Except TrustchainError (Dict κ (CertifState α)) := do
  let unverified ← certif.unsecureLoad.mapError .unreadable
  match cached (idOf unverified) with
  | some verified => return states.insert (idOf verified) ⟨certif, verified, true⟩
  | none => return states.insert (idOf unverified) ⟨certif, unverified, false⟩

/-- Read certificates into a table; the last one about an id stays. -/
def loadStates (idOf : α → κ) (cached : κ → Option α) (certifs : List (Signed α)) :
    Except TrustchainError (Dict κ (CertifState α)) :=
  certifs.foldlM (loadState idOf cached) ∅

/-- Add what was verified to a cache. -/
def populateCache (idOf : α → κ) (now : DateTime) (states : List (CertifState α))
    (cache : CertificateCache κ α) : CertificateCache κ α :=
  states.foldl (fun cache state =>
    if state.verified then cache else cache.insert (idOf state.content) (now, state.content)) cache

end Tables

section Verify

variable {α : Type} [CertificateContent α]

open CertificateContent

def verifyCreatedByRoot (rootVerifyKey : VerifyKey) (certif : Signed α) (signChain : List ChainLink) :
    Except TrustchainError α :=
  (certif.verifyAndLoad author rootVerifyKey none).mapError
    (.invalidCertificate (signChain ++ [.rootKey]))

/-- The author is an admin or signs one of its own devices. -/
def checkAuthorProfile (states : TrustchainStates) (authorDevice : DeviceCertificateContent)
    (authorId : DeviceID) (verified : α) (path : List ChainLink) : Except TrustchainError Unit :=
  if authorDevice.deviceId.userId = verifiedUserId verified then .ok ()
  else
    match states.users.get? authorId.userId with
    | none => .error (.missingUser path authorId.userId)
    | some authorUser =>
        .require (authorUser.content.profile = .admin) (.notAdmin path authorUser.content.userId)

/-- The author was not revoked before it signed. -/
def checkAuthorNotRevoked (states : TrustchainStates) (authorId : DeviceID) (verified : α)
    (path : List ChainLink) : Except TrustchainError Unit :=
  match states.revokedUsers.get? authorId.userId with
  | none => .ok ()
  | some revoked => .require (timestamp verified ≤ revoked.content.timestamp)
      (.posteriorToRevocation path (timestamp verified) revoked.content.timestamp)

def verifyCreatedByDevice (states : TrustchainStates)
    (recursiveVerifyDevice : DeviceID → List ChainLink → Except TrustchainError DeviceCertificateContent)
    (certif : Signed α) (authorId : DeviceID) (signChain : List ChainLink) :
    Except TrustchainError α := do
  let authorDevice ← recursiveVerifyDevice authorId signChain
  let path := signChain ++ [.device authorId]
  let verified ← (certif.verifyAndLoad author authorDevice.verifyKey (some authorDevice.deviceId)).mapError
    (.invalidCertificate path)
  checkAuthorProfile states authorDevice authorId verified path
  checkAuthorNotRevoked states authorId verified path
  return verified

end Verify

/-- `_recursive_verify_device`, at most so many signatures deep. -/
def recursiveVerifyDevice (rootVerifyKey : VerifyKey) (states : TrustchainStates) :
    ℕ → DeviceID → List ChainLink → Except TrustchainError DeviceCertificateContent
  | 0, _, _ => .error .recursionBound
  | bound + 1, deviceId, signedChildren =>
      if .device deviceId ∈ signedChildren then
        .error (.signatureLoop (signedChildren ++ [.device deviceId]))
      else
        match states.devices.get? deviceId with
        | none => .error (.missingDevice (signedChildren ++ [.device deviceId]) deviceId)
        | some state =>
          match state.content.author with
          | none => verifyCreatedByRoot rootVerifyKey state.certif (signedChildren ++ [.device deviceId])
          | some author => verifyCreatedByDevice states (recursiveVerifyDevice rootVerifyKey states bound)
              state.certif author (signedChildren ++ [.device deviceId])

/-- `_recursive_verify_device` with room for every device once. -/
def verifyDevice (rootVerifyKey : VerifyKey) (states : TrustchainStates) :
    DeviceID → List ChainLink → Except TrustchainError DeviceCertificateContent :=
  recursiveVerifyDevice rootVerifyKey states (states.devices.items.length + 1)

def verifyUser (rootVerifyKey : VerifyKey) (states : TrustchainStates)
    (unverified : UserCertificateContent) (certif : Signed UserCertificateContent) :
    Except TrustchainError UserCertificateContent :=
  match unverified.author with
  | none => verifyCreatedByRoot rootVerifyKey certif [.creation unverified.userId]
  | some author =>
      if author.userId = unverified.userId then .error (.selfSignedUser unverified.userId)
      else verifyCreatedByDevice states (verifyDevice rootVerifyKey states) certif author
        [.creation unverified.userId]

def verifyRevokedUser (rootVerifyKey : VerifyKey) (states : TrustchainStates)
    (unverified : RevokedUserCertificateContent) (certif : Signed RevokedUserCertificateContent) :
    Except TrustchainError RevokedUserCertificateContent :=
  if unverified.author.userId = unverified.userId then .error (.selfSignedRevocation unverified.userId)
  else verifyCreatedByDevice states (verifyDevice rootVerifyKey states) certif unverified.author
    [.revocation unverified.userId]

/-- The contents of a table, once those that need it are verified. -/
def verifyStates {α : Type} (verify : CertifState α → Except TrustchainError α)
    (states : List (CertifState α)) : Except TrustchainError (List (CertifState α)) :=
  states.mapM fun state =>
    if state.verified then .ok state
    else (verify state).map fun content => { state with content := content }

structure VerifiedTrustchain where
  users : List UserCertificateContent
  revokedUsers : List RevokedUserCertificateContent
  devices : List DeviceCertificateContent
deriving DecidableEq, Repr

namespace TrustchainContext

/-- The tables that a load starts from. -/
def loadTables (context : TrustchainContext) (users : List (Signed UserCertificateContent))
    (revokedUsers : List (Signed RevokedUserCertificateContent))
    (devices : List (Signed DeviceCertificateContent)) (now : DateTime) :
    Except TrustchainError TrustchainStates := do
  let devices ← loadStates (·.deviceId) (getCached context.cacheValidity context.devicesCache now) devices
  let users ← loadStates (·.userId) (getCached context.cacheValidity context.usersCache now) users
  let revokedUsers ← loadStates (·.userId)
    (getCached context.cacheValidity context.revokedUsersCache now) revokedUsers
  return ⟨users, revokedUsers, devices⟩

/-- `load_trustchain`: the verified contents, and the context with its caches populated. -/
def loadTrustchain (context : TrustchainContext) (users : List (Signed UserCertificateContent))
    (revokedUsers : List (Signed RevokedUserCertificateContent))
    (devices : List (Signed DeviceCertificateContent)) (now : DateTime) :
    Except TrustchainError (VerifiedTrustchain × TrustchainContext) := do
  let states ← context.loadTables users revokedUsers devices now
  let devices ← verifyStates
    (fun state => verifyDevice context.rootVerifyKey states state.content.deviceId []) states.devices.values
  let users ← verifyStates
    (fun state => verifyUser context.rootVerifyKey states state.content state.certif) states.users.values
  let revokedUsers ← verifyStates
    (fun state => verifyRevokedUser context.rootVerifyKey states state.content state.certif)
    states.revokedUsers.values
  return (⟨users.map (·.content), revokedUsers.map (·.content), devices.map (·.content)⟩,
    { context with
      devicesCache := populateCache (·.deviceId) now devices context.devicesCache
      usersCache := populateCache (·.userId) now users context.usersCache
      revokedUsersCache := populateCache (·.userId) now revokedUsers context.revokedUsersCache })

end TrustchainContext

/-- The trustchain that the backend sends along. -/
structure TrustchainCertificates where
  users : List (Signed UserCertificateContent)
  revokedUsers : List (Signed RevokedUserCertificateContent)
  devices : List (Signed DeviceCertificateContent)

structure VerifiedUserAndDevices where
  user : UserCertificateContent
  revokedUser : Option RevokedUserCertificateContent
  devices : List DeviceCertificateContent
deriving DecidableEq, Repr

/-- Nothing is expected without an id. -/
def checkExpectedUser (expectedUserId : Option UserID) (userId : UserID)
    (err : UserID → TrustchainError) : Except TrustchainError Unit :=
  match expectedUserId with
  | none => .ok ()
  | some expected => .require (userId = expected) (err expected)

/-- The first of the verified contents, which is there if a certificate was given. -/
def firstVerified {α : Type} (contents : List α) : Except TrustchainError α :=
  contents.head?.elim (.error .indexError) .ok

/-- The first of the verified revocations, if one was given. -/
def firstRevoked (revokedUserCertif : Option (Signed RevokedUserCertificateContent))
    (revokedUsers : List RevokedUserCertificateContent) (expectedUserId : Option UserID) :
    Except TrustchainError (Option RevokedUserCertificateContent) :=
  match revokedUserCertif with
  | none => .ok none
  | some _ => do
      let revokedUser ← firstVerified revokedUsers
      checkExpectedUser expectedUserId revokedUser.userId
        fun expected => .unexpectedUser expected revokedUser.userId
      return some revokedUser

namespace TrustchainContext

/-- `load_user_and_devices`: the contents of the certificates about one user, verified with the help of a
trustchain, and the context with its caches populated. -/
def loadUserAndDevices (context : TrustchainContext) (trustchain : TrustchainCertificates)
    (userCertif : Signed UserCertificateContent)
    (revokedUserCertif : Option (Signed RevokedUserCertificateContent))
    (devicesCertifs : List (Signed DeviceCertificateContent)) (expectedUserId : Option UserID)
    (now : DateTime) : Except TrustchainError (VerifiedUserAndDevices × TrustchainContext) := do
  let (verified, context) ← context.loadTrustchain (userCertif :: trustchain.users)
    (revokedUserCertif.toList ++ trustchain.revokedUsers) (devicesCertifs ++ trustchain.devices) now
  let user ← firstVerified verified.users
  checkExpectedUser expectedUserId user.userId fun expected => .unexpectedUser expected user.userId
  let revokedUser ← firstRevoked revokedUserCertif verified.revokedUsers expectedUserId
  let devices := verified.devices.take devicesCertifs.length
  devices.forM fun device => checkExpectedUser expectedUserId device.deviceId.userId
    fun expected => .unexpectedDevice expected device.deviceId
  return (⟨user, revokedUser, devices⟩, context)

end TrustchainContext

end Guardata
