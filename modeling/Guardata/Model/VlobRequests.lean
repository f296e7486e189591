import Guardata.Model.Reencryption

/-! # Requests to the memory backend

All the requests that change the realms and their vlobs, from any client and with any arguments: a batch may
name whatever versions it likes. A request that raises leaves what the code has done until then.
-/

namespace Guardata

inductive VlobRequest (β : Type) where
  | realmCreate (organizationId : OrganizationID) (grant : RealmGrantedRole)
  | updateRoles (users : UserTable) (organizationId : OrganizationID) (grant : RealmGrantedRole)
  | create (organizationId : OrganizationID) (author : DeviceID) (realmId : UUID) (encryptionRevision : ℕ)
      (vlobId : UUID) (timestamp : DateTime) (blob : β)
  | update (organizationId : OrganizationID) (author : DeviceID) (encryptionRevision : ℕ) (vlobId : UUID)
      (version : ℕ) (timestamp : DateTime) (blob : β)
  | start (users : UserTable) (organizationId : OrganizationID) (author : DeviceID) (realmId : UUID)
      (encryptionRevision : ℕ) (recipients : List UserID) (timestamp now : DateTime)
  | saveBatch (organizationId : OrganizationID) (author : DeviceID) (realmId : UUID)
      (encryptionRevision : ℕ) (batch : List (BatchItem β))
  | finish (organizationId : OrganizationID) (author : DeviceID) (realmId : UUID) (encryptionRevision : ℕ)

namespace ReencryptionBackend

variable {β : Type} (backend : ReencryptionBackend β)

def setRealms (realms : MemoryRealmComponent) : ReencryptionBackend β := { backend with realms := realms }

def setVlobs (vlobs : MemoryVlobComponent β) : ReencryptionBackend β := { backend with vlobs := vlobs }

def serve : VlobRequest β → ReencryptionBackend β
  | .realmCreate organizationId grant =>
      (backend.realms.create organizationId grant).toOption.elim backend backend.setRealms
  | .updateRoles users organizationId grant =>
      (backend.realms.updateRoles users organizationId grant).toOption.elim backend backend.setRealms
  | .create organizationId author realmId encryptionRevision vlobId timestamp blob =>
      (backend.vlobs.create backend.realms organizationId author realmId encryptionRevision vlobId timestamp
        blob).toOption.elim backend backend.setVlobs
  | .update organizationId author encryptionRevision vlobId version timestamp blob =>
      (backend.vlobs.update backend.realms organizationId author encryptionRevision vlobId version timestamp
        blob).toOption.elim backend backend.setVlobs
  | .start users organizationId author realmId encryptionRevision recipients timestamp now =>
      (backend.startReencryptionMaintenance users organizationId author realmId encryptionRevision recipients
        timestamp now).1
  | .saveBatch organizationId author realmId encryptionRevision batch =>
      (backend.maintenanceSaveReencryptionBatch organizationId author realmId encryptionRevision batch).1
  | .finish organizationId author realmId encryptionRevision =>
      (backend.finishReencryptionMaintenance organizationId author realmId encryptionRevision).toOption.elim
        backend id

/-- What an empty backend comes to. -/
def afterRequests (requests : List (VlobRequest β)) : ReencryptionBackend β := requests.foldl serve {}

end ReencryptionBackend

/-- What a client knows of a realm: the checkpoint of its last poll, and the versions it was told. -/
structure PollingClient where
  checkpoint : ℕ := 0
  versions : Dict UUID ℕ := ∅

def PollingClient.receive (client : PollingClient) (reply : ℕ × Dict UUID ℕ) : PollingClient :=
  ⟨reply.1, client.versions.update reply.2⟩

/-- A backend, and a client that polls its realms. -/
structure PollSystem (β : Type) where
  backend : ReencryptionBackend β := {}
  client : OrganizationID × UUID → PollingClient := fun _ => {}

inductive PollEvent (β : Type) where
  | request (request : VlobRequest β)
  | poll (organizationId : OrganizationID) (author : DeviceID) (realmId : UUID)

namespace PollSystem

variable {β : Type} (system : PollSystem β)

def pollChanges (organizationId : OrganizationID) (author : DeviceID) (realmId : UUID) :
    Except VlobError (ℕ × Dict UUID ℕ) :=
  system.backend.vlobs.pollChanges system.backend.realms organizationId author realmId
    (system.client (organizationId, realmId)).checkpoint

/-- A poll that is refused tells the client nothing. -/
def step : PollEvent β → PollSystem β
  | .request request => { system with backend := system.backend.serve request }
  | .poll organizationId author realmId =>
      (system.pollChanges organizationId author realmId).toOption.elim system fun reply =>
        { system with
          client := Function.update system.client (organizationId, realmId)
            ((system.client (organizationId, realmId)).receive reply) }

def afterEvents (events : List (PollEvent β)) : PollSystem β := events.foldl step {}

end PollSystem

end Guardata
