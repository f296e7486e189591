import Guardata.Model.Trustchain
import Guardata.Model.UserManifest

/-! # The need of a re-encryption

A workspace has to be re-encrypted when somebody who had its key has lost the right to read it.
One pass over the role certificates maintains the users with a role and those whose role was
removed since the last encryption; the first of them are then looked up for a revocation. A set is
a list without repetition, in the order in which the source happens to iterate over it.
-/

namespace Guardata

structure ReencryptionNeed where
  userRevoked : List UserID
  roleRevoked : List UserID
  reencryptionAlreadyInProgress : Bool := false
deriving DecidableEq, Repr

def ReencryptionNeed.needReencryption (need : ReencryptionNeed) : Bool :=
  need.roleRevoked ≠ [] || need.userRevoked ≠ [] || need.reencryptionAlreadyInProgress

/-- What ends a request before the backend answers it. -/
inductive BackendFailure where
  | notAvailable
  | connection
deriving DecidableEq, Repr

inductive ReencryptionNeedError where
  | backendOffline
  | cannotRetrieveStatus (workspaceId : EntryID)
  /-- A refusal has none of the fields of a status, and its own status is not looked at. -/
  | missingField (field : String)
  | roles (err : FSError)
  | user (userId : UserID)
deriving DecidableEq, Repr

/-- The two sets that the pass over the certificates maintains. -/
structure RevocationScan where
  hasRole : List UserID := []
  roleRevoked : List UserID := []
deriving DecidableEq, Repr

/-- `set.discard`. -/
def discardUser (userId : UserID) (users : List UserID) : List UserID := users.filter (· ≠ userId)

/-- The body of the loop over the certificates. -/
def RevocationScan.step (encryptedOn : DateTime) (scan : RevocationScan)
    (certif : RealmRoleCertificateContent) : RevocationScan where
  hasRole := match certif.role with
    | none => discardUser certif.userId scan.hasRole
    | some _ => scan.hasRole.insert certif.userId
  roleRevoked := match certif.role with
    | none =>
        if encryptedOn < certif.timestamp then scan.roleRevoked.insert certif.userId
        else scan.roleRevoked
    | some _ => discardUser certif.userId scan.roleRevoked

/-- The body of the loop over the users with a role. -/
def collectRevoked {ε : Type} (getUser : UserID → Except ε (Option RevokedUserCertificateContent))
    (encryptedOn : DateTime) (userRevoked : List UserID) (userId : UserID) : Except ε (List UserID) := do
  let revokedUser ← getUser userId
  return if ∃ revoked ∈ revokedUser, encryptedOn < revoked.timestamp then userRevoked ++ [userId]
    else userRevoked

/-- `get_reencryption_need`. The manifest that is stored locally may be missing; the replies of the
backend and the lookups of users are arguments. -/
def getReencryptionNeed (wentry : UserWorkspaceEntry) (storedPlaceholder : Option Bool)
    (realmStatus : Except BackendFailure (Except RealmRefusal RealmStatus))
    (roleCertificates :
      Except FSError (List RealmRoleCertificateContent × Dict UserID RealmRole))
    (getUser : UserID → Except ReencryptionNeedError (Option RevokedUserCertificateContent)) :
    Except ReencryptionNeedError ReencryptionNeed :=
  if storedPlaceholder = some true then .ok ⟨[], [], false⟩
  else do
    let rep ← realmStatus.mapError fun
      | .notAvailable => .backendOffline
      | .connection => .cannotRetrieveStatus wentry.id
    let status ← rep.mapError fun _ => .missingField "in_maintenance"
    let (certificates, _) ← roleCertificates.mapError .roles
    let scan := certificates.foldl (RevocationScan.step wentry.encryptedOn) {}
    let userRevoked ← scan.hasRole.foldlM (collectRevoked getUser wentry.encryptedOn) []
    return {
      userRevoked
      roleRevoked := scan.roleRevoked
      reencryptionAlreadyInProgress :=
        status.inMaintenance ∧ status.maintenanceType = some .reencryption }

end Guardata
