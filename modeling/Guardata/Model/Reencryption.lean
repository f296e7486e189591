import Mathlib.Data.Prod.Lex
import Guardata.Model.RemoteLoader

/-! # Re-encryption of a realm

While a realm is in maintenance its owners re-encrypt it together: each of them gets a batch of versions
that are left to do, decrypts them with the old key, encrypts them with the new one and saves them. Batches
overlap. What has been saved replaces the versions once nothing is left.

`Changes.reencryption` is a table of its own here. A `Reencryption` keeps the vlobs as they were when it
started, where the source keeps references to them: nothing writes to a realm in maintenance. The system is
the backend with any number of `do_one_batch` that may be abandoned between any two requests, beside
requests of everybody. Reading requests change nothing and are left out, and a request of others that
raises is no step.
-/

namespace Guardata

inductive ReencryptionError where
  | vlob (error : VlobError)
  | realm (error : RealmError)
  | assertion
  | index
deriving DecidableEq, Repr

/-- A version by its vlob and its number, counted from one, with a blob. -/
abbrev BatchItem (β : Type) := UUID × ℕ × β

structure Reencryption (β : Type) where
  realmId : UUID
  originalVlobs : Dict UUID (Vlob β)
  todo : Dict (UUID × ℕ) β
  done : Dict (UUID × ℕ) β := ∅
  total : ℕ

namespace Reencryption

variable {β : Type}

/-- All the versions of some vlobs, in order. -/
def versions (vlobs : Dict UUID (Vlob β)) : List ((UUID × ℕ) × β) :=
  vlobs.items.flatMap fun (vlobId, vlob) =>
    vlob.data.zipIdx.map fun (version, index) => ((vlobId, index + 1), version.blob)

/-- `Reencryption(realm_id, vlobs)`. -/
def new (realmId : UUID) (vlobs : Dict UUID (Vlob β)) : Reencryption β where
  realmId := realmId
  originalVlobs := vlobs
  todo := .ofList (versions vlobs)
  total := (Dict.ofList (versions vlobs)).items.length

variable (reencryption : Reencryption β)

def isFinished : Bool := reencryption.todo.items.isEmpty

def getBatch (size : ℕ) : List (BatchItem β) :=
  let left := reencryption.todo.items.filter fun item => ¬reencryption.done.contains item.1
  (left.map fun item => (item.1.1, item.1.2, item.2)).take size

/-- One round of the loop of `save_batch`. -/
def saveItem (item : BatchItem β) : Except VlobError (Reencryption β) :=
  let (vlobId, version, data) := item
  if reencryption.done.contains (vlobId, version) then .ok reencryption
  else do
    .require (reencryption.todo.contains (vlobId, version)) (.notFound "")
    return { reencryption with
      todo := reencryption.todo.erase (vlobId, version)
      done := reencryption.done.insert (vlobId, version) data }

/-- `save_batch`. What comes before an unknown version has been saved when it raises. -/
def saveBatch (reencryption : Reencryption β) :
    List (BatchItem β) → Reencryption β × Except VlobError (ℕ × ℕ)
  | [] => (reencryption, .ok (reencryption.total, reencryption.done.items.length))
  | item :: rest =>
      match reencryption.saveItem item with
      | .ok saved => saved.saveBatch rest
      | .error error => (reencryption, .error error)

/-- One round of the loop of `get_reencrypted_vlobs`. -/
def appendVersion (vlobs : Dict UUID (Vlob β)) (item : (UUID × ℕ) × β) :
    Except ReencryptionError (Dict UUID (Vlob β)) := do
  let ((vlobId, version), data) := item
  let original ← (reencryption.originalVlobs.get? vlobId).elim (.error (.vlob (.notFound ""))) .ok
  let old ← (MemoryVlobComponent.versionAt? original.data version).elim (.error .index) .ok
  let before := ((vlobs.get? vlobId).map (·.data)).getD []
  let data := before ++ [⟨data, old.author, old.timestamp⟩]
  .require (data.length = version) .assertion
  return vlobs.insert vlobId ⟨((vlobs.get? vlobId).map (·.realmId)).getD reencryption.realmId, data⟩

def getReencryptedVlobs : Except ReencryptionError (Dict UUID (Vlob β)) := do
  .require reencryption.isFinished .assertion
  (reencryption.done.items.sortedBy fun item => toLex item.1).foldlM reencryption.appendVersion ∅

end Reencryption

/-- The realm and the vlob component, with the re-encryptions under way. -/
structure ReencryptionBackend (β : Type) where
  realms : MemoryRealmComponent := {}
  vlobs : MemoryVlobComponent β := {}
  reencryptions : Dict (OrganizationID × UUID) (Reencryption β) := ∅

namespace ReencryptionBackend

variable {β : Type} (backend : ReencryptionBackend β)

def realmVlobs (organizationId : OrganizationID) (realmId : UUID) : Dict UUID (Vlob β) :=
  .ofList (backend.vlobs.vlobs.items.filterMap fun ((orgid, vlobId), vlob) =>
    if orgid = organizationId ∧ vlob.realmId = realmId then some (vlobId, vlob) else none)

/-- `start_reencryption_maintenance` with its hook. -/
def startReencryptionMaintenance (users : UserTable) (organizationId : OrganizationID) (author : DeviceID)
    (realmId : UUID) (encryptionRevision : ℕ) (recipients : List UserID) (timestamp now : DateTime) :
    ReencryptionBackend β × Except ReencryptionError Unit :=
  match backend.realms.startReencryptionMaintenance users organizationId author realmId encryptionRevision
      recipients timestamp now with
  | .error error => (backend, .error (.realm error))
  | .ok realms =>
      if backend.reencryptions.contains (organizationId, realmId) then
        ({ backend with realms := realms }, .error .assertion)
      else
        ({ backend with
          realms := realms
          reencryptions := backend.reencryptions.insert (organizationId, realmId)
            (.new realmId (backend.realmVlobs organizationId realmId)) }, .ok ())

/-- `_maintenance_reencryption_is_finished_hook`, once all is done: put the new vlobs in place. -/
def replaceVlobs (organizationId : OrganizationID) (realmId : UUID) (vlobs : Dict UUID (Vlob β)) :
    ReencryptionBackend β :=
  let entries := vlobs.items.map fun (vlobId, vlob) => ((organizationId, vlobId), vlob)
  { backend with
    vlobs := { backend.vlobs with vlobs := backend.vlobs.vlobs.insertMany entries }
    reencryptions := backend.reencryptions.erase (organizationId, realmId) }

/-- `finish_reencryption_maintenance` with its hook. -/
def finishReencryptionMaintenance (organizationId : OrganizationID) (author : DeviceID) (realmId : UUID)
    (encryptionRevision : ℕ) : Except ReencryptionError (ReencryptionBackend β) := do
  let reencryption := backend.reencryptions.get? (organizationId, realmId)
  let finished := reencryption.all (·.isFinished)
  let realms ← (backend.realms.finishReencryptionMaintenance organizationId author realmId
    encryptionRevision finished).mapError .realm
  let reencryption ← reencryption.elim (.error .assertion) .ok
  let vlobs ← reencryption.getReencryptedVlobs
  return { backend.replaceVlobs organizationId realmId vlobs with realms := realms }

/-- `_check_realm_in_maintenance_access`. -/
def checkRealmInMaintenanceAccess (organizationId : OrganizationID) (realmId : UUID) (userId : UserID)
    (encryptionRevision : ℕ) : Except VlobError Unit :=
  MemoryVlobComponent.checkRealmAccess backend.realms organizationId realmId userId
    (some encryptionRevision) [some .owner] (some true)

/-- What both batch requests begin with. -/
def currentReencryption (organizationId : OrganizationID) (author : DeviceID) (realmId : UUID)
    (encryptionRevision : ℕ) : Except ReencryptionError (Reencryption β) := do
  (backend.checkRealmInMaintenanceAccess organizationId realmId author.userId encryptionRevision).mapError
    .vlob
  (backend.reencryptions.get? (organizationId, realmId)).elim (.error .assertion) .ok

def maintenanceGetReencryptionBatch (organizationId : OrganizationID) (author : DeviceID) (realmId : UUID)
    (encryptionRevision size : ℕ) : Except ReencryptionError (List (BatchItem β)) := do
  let reencryption ← backend.currentReencryption organizationId author realmId encryptionRevision
  return reencryption.getBatch size

def maintenanceSaveReencryptionBatch (organizationId : OrganizationID) (author : DeviceID)
    (realmId : UUID) (encryptionRevision : ℕ) (batch : List (BatchItem β)) :
    ReencryptionBackend β × Except ReencryptionError (ℕ × ℕ) :=
  match backend.currentReencryption organizationId author realmId encryptionRevision with
  | .error error => (backend, .error error)
  | .ok reencryption =>
      let (saved, counts) := reencryption.saveBatch batch
      ({ backend with reencryptions := backend.reencryptions.insert (organizationId, realmId) saved },
        counts.mapError .vlob)

end ReencryptionBackend

/-- Symmetric encryption, with what it draws at random as an argument. -/
structure Cipher (Plain β : Type) where
  encrypt : SecretKey → ℕ → Plain → β
  decrypt : SecretKey → β → Option Plain

/-- `ReencryptionJob` of a device. -/
structure ReencryptionJob where
  organizationId : OrganizationID
  deviceId : DeviceID
  workspaceId : UUID
  newWorkspaceEntry : WorkspaceEntry
  oldWorkspaceEntry : WorkspaceEntry
deriving DecidableEq, Repr

namespace ReencryptionJob

variable {Plain β : Type} (cipher : Cipher Plain β) (job : ReencryptionJob)

/-- Re-encrypt a batch, none if something in it does not decrypt. -/
def reencrypt (nonces : UUID → ℕ → ℕ) (batch : List (BatchItem β)) : Option (List (BatchItem β)) :=
  batch.mapM fun (vlobId, version, blob) => do
    let cleartext ← cipher.decrypt job.oldWorkspaceEntry.key blob
    return (vlobId, version,
      cipher.encrypt job.newWorkspaceEntry.key (nonces vlobId version) cleartext)

end ReencryptionJob

/-- How far a `do_one_batch` has got: it holds a batch, or has saved the last one. -/
inductive BatchStage (β : Type) where
  | fetched (batch : List (BatchItem β))
  | finishing

structure BatchRun (β : Type) where
  job : ReencryptionJob
  stage : BatchStage β

structure ReencryptionSystem (β : Type) where
  backend : ReencryptionBackend β
  runs : ℕ → Option (BatchRun β) := fun _ => none

inductive ReencryptionEvent (β : Type) where
  | realmCreate (organizationId : OrganizationID) (grant : RealmGrantedRole)
  | updateRoles (users : UserTable) (organizationId : OrganizationID) (grant : RealmGrantedRole)
  | vlobCreate (organizationId : OrganizationID) (author : DeviceID) (realmId : UUID)
      (encryptionRevision : ℕ) (vlobId : UUID) (timestamp : DateTime) (blob : β)
  | vlobUpdate (organizationId : OrganizationID) (author : DeviceID) (encryptionRevision : ℕ)
      (vlobId : UUID) (version : ℕ) (timestamp : DateTime) (blob : β)
  | start (users : UserTable) (organizationId : OrganizationID) (author : DeviceID) (realmId : UUID)
      (encryptionRevision : ℕ) (recipients : List UserID) (timestamp now : DateTime)
  | finish (organizationId : OrganizationID) (author : DeviceID) (realmId : UUID)
      (encryptionRevision : ℕ)
  /-- The requests of `do_one_batch`, in the run with a number. -/
  | getBatch (run : ℕ) (organizationId : OrganizationID) (author : DeviceID) (realmId : UUID)
      (encryptionRevision size : ℕ)
  | saveBatch (run : ℕ) (nonces : UUID → ℕ → ℕ)
  | finishBatch (run : ℕ)
  | abandon (run : ℕ)

namespace ReencryptionSystem

variable {Plain β : Type} (cipher : Cipher Plain β)
  (keys : OrganizationID × UUID → ℕ → SecretKey) (system : ReencryptionSystem β)

def setRun (run : ℕ) (progress : Option (BatchRun β)) : ReencryptionSystem β :=
  { system with runs := Function.update system.runs run progress }

/-- The job of an owner for an encryption revision, with the keys of the workspace. -/
def jobFor (organizationId : OrganizationID) (author : DeviceID) (realmId : UUID)
    (encryptionRevision : ℕ) : ReencryptionJob where
  organizationId := organizationId
  deviceId := author
  workspaceId := realmId
  newWorkspaceEntry := ⟨keys (organizationId, realmId) encryptionRevision, encryptionRevision⟩
  oldWorkspaceEntry := ⟨keys (organizationId, realmId) (encryptionRevision - 1), encryptionRevision - 1⟩

/-- The first request of `do_one_batch`; a refusal ends the run. -/
def getBatch (run : ℕ) (job : ReencryptionJob) (size : ℕ) : ReencryptionSystem β :=
  match system.backend.maintenanceGetReencryptionBatch job.organizationId job.deviceId job.workspaceId
      job.newWorkspaceEntry.encryptionRevision size with
  | .error _ => system.setRun run none
  | .ok batch => system.setRun run (some ⟨job, .fetched batch⟩)

/-- The second request. An exception, or something left to do, ends the run. -/
def saveBatch (run : ℕ) (job : ReencryptionJob) (nonces : UUID → ℕ → ℕ) (batch : List (BatchItem β)) :
    ReencryptionSystem β :=
  match job.reencrypt cipher nonces batch with
  | none => system.setRun run none
  | some donebatch =>
      let (backend, reply) := system.backend.maintenanceSaveReencryptionBatch job.organizationId
        job.deviceId job.workspaceId job.newWorkspaceEntry.encryptionRevision donebatch
      { system with backend := backend }.setRun run
        (match reply with
        | .error _ => none
        | .ok (total, done) => if total = done then some ⟨job, .finishing⟩ else none)

/-- The third request. -/
def finishBatch (run : ℕ) (job : ReencryptionJob) : ReencryptionSystem β :=
  match system.backend.finishReencryptionMaintenance job.organizationId job.deviceId job.workspaceId
      job.newWorkspaceEntry.encryptionRevision with
  | .error _ => system.setRun run none
  | .ok backend => { system with backend := backend }.setRun run none

def setRealms (realms : MemoryRealmComponent) : ReencryptionSystem β :=
  { system with backend := { system.backend with realms := realms } }

def setVlobs (vlobs : MemoryVlobComponent β) : ReencryptionSystem β :=
  { system with backend := { system.backend with vlobs := vlobs } }

def step? : ReencryptionEvent β → Option (ReencryptionSystem β)
  | .realmCreate organizationId grant =>
      (system.backend.realms.create organizationId grant).toOption.map system.setRealms
  | .updateRoles users organizationId grant =>
      (system.backend.realms.updateRoles users organizationId grant).toOption.map system.setRealms
  | .vlobCreate organizationId author realmId encryptionRevision vlobId timestamp blob =>
      (system.backend.vlobs.create system.backend.realms organizationId author realmId encryptionRevision
        vlobId timestamp blob).toOption.map system.setVlobs
  | .vlobUpdate organizationId author encryptionRevision vlobId version timestamp blob =>
      (system.backend.vlobs.update system.backend.realms organizationId author encryptionRevision vlobId
        version timestamp blob).toOption.map system.setVlobs
  | .start users organizationId author realmId encryptionRevision recipients timestamp now =>
      some { system with
        backend := (system.backend.startReencryptionMaintenance users organizationId author realmId
          encryptionRevision recipients timestamp now).1 }
  | .finish organizationId author realmId encryptionRevision =>
      (system.backend.finishReencryptionMaintenance organizationId author realmId
        encryptionRevision).toOption.map fun backend => { system with backend := backend }
  | .getBatch run organizationId author realmId encryptionRevision size =>
      some (system.getBatch run (jobFor keys organizationId author realmId encryptionRevision) size)
  | .saveBatch run nonces =>
      match system.runs run with
      | some ⟨job, .fetched batch⟩ => some (system.saveBatch cipher run job nonces batch)
      | _ => none
  | .finishBatch run =>
      match system.runs run with
      | some ⟨job, .finishing⟩ => some (system.finishBatch run job)
      | _ => none
  | .abandon run => some (system.setRun run none)

end ReencryptionSystem

end Guardata
