import Mathlib.Logic.Function.Basic
import Guardata.Model.RemoteLoader

/-! # A server and the clients that talk to it

The server receives requests over authenticated connections, at dates of its own clock that never
decrease. A request that is refused is no step. Clients call it from machines with clocks of
their own; the date a client reads is an argument of its step.
-/

namespace Guardata

/-- The registered devices of every organization. -/
abbrev Registry := OrganizationID → DeviceDirectory

/-- Who is at the other end of a connection. -/
structure Connection where
  organizationId : OrganizationID
  deviceId : DeviceID
  profile : UserProfile

/-- The handshake: the key of the context is the one registered for the device. -/
def Registry.authenticate (registry : Registry) (connection : Connection) : Option ClientContext :=
  (registry connection.organizationId connection.deviceId).map fun verifyKey =>
    ⟨connection.organizationId, connection.deviceId, connection.profile, verifyKey⟩

inductive RealmCommand where
  | create (certificate : Signed RealmRoleCertificateContent)
  | updateRoles (users : UserTable) (certificate : Signed RealmRoleCertificateContent)

def RealmCommand.certificate : RealmCommand → Signed RealmRoleCertificateContent
  | .create certificate => certificate
  | .updateRoles _ certificate => certificate

structure RealmCall where
  connection : Connection
  now : DateTime
  command : RealmCommand

structure RealmServer where
  clock : DateTime
  realms : MemoryRealmComponent := {}

namespace RealmServer

def handle (realms : MemoryRealmComponent) (ctx : ClientContext) (now : DateTime) :
    RealmCommand → Except RealmRefusal MemoryRealmComponent
  | .create certificate => realms.apiRealmCreate ctx certificate now
  | .updateRoles users certificate => realms.apiRealmUpdateRoles users ctx certificate now

/-- One accepted realm request. -/
def step? (registry : Registry) (server : RealmServer) (call : RealmCall) : Option RealmServer := do
  guard (server.clock ≤ call.now)
  let ctx ← registry.authenticate call.connection
  let realms ← (handle server.realms ctx call.now call.command).toOption
  return ⟨call.now, realms⟩

end RealmServer

section Deployment

variable {γ : Type}

/-- A client of an organization, with its loader for one workspace. -/
structure Client where
  organizationId : OrganizationID
  profile : UserProfile
  loader : RemoteLoader

def Client.connection (client : Client) : Connection :=
  ⟨client.organizationId, client.loader.deviceId, client.profile⟩

/-- The backend together with all the clients that ever read from it. -/
structure Deployment (γ : Type) where
  server : RealmServer
  vlobs : MemoryVlobComponent (ManifestBlob γ) := {}
  clients : ℕ → Client

/-- The arguments of a call to `load_manifest`, and the client's clock. -/
structure LoadCall where
  client : ℕ
  entry : WorkspaceEntry
  entryId : UUID
  version : Option ℕ
  timestamp : Option DateTime
  expectedBackendTimestamp : Option DateTime
  now : DateTime

inductive DeploymentEvent (γ : Type) where
  | realm (call : RealmCall)
  | vlobCreate (connection : Connection) (now : DateTime) (realmId : UUID) (encryptionRevision : ℕ)
      (vlobId : UUID) (timestamp : DateTime) (blob : ManifestBlob γ)
  | vlobUpdate (connection : Connection) (now : DateTime) (encryptionRevision : ℕ) (vlobId : UUID)
      (version : ℕ) (timestamp : DateTime) (blob : ManifestBlob γ)
  | load (call : LoadCall)

namespace Deployment

/-- The reply to the `vlob_read` of a load. -/
def vlobRead (deployment : Deployment γ) (ctx : ClientContext) (call : LoadCall) (version : Option ℕ)
    (timestamp : Option DateTime) : Except VlobRefusal (ℕ × VlobVersion (ManifestBlob γ)) :=
  deployment.vlobs.apiVlobRead deployment.server.realms ctx call.entry.encryptionRevision call.entryId
    version timestamp

/-- A whole `load_manifest` against the present backend. -/
def loadManifest (registry : Registry) (deployment : Deployment γ) (ctx : ClientContext)
    (call : LoadCall) : Except FSError (RemoteManifest γ) × RemoteLoader :=
  let loader := (deployment.clients call.client).loader
  loader.loadManifest (registry ctx.organizationId) call.entry call.entryId call.version call.timestamp
    call.expectedBackendTimestamp (deployment.vlobRead ctx call)
    (deployment.server.realms.apiRealmGetRoleCertificates ctx loader.workspaceId none) call.now

/-- One accepted request, or one load. A load is a step also when it raises: the cache may have
been refreshed before. -/
def step? (registry : Registry) (deployment : Deployment γ) :
    DeploymentEvent γ → Option (Deployment γ)
  | .realm call => (deployment.server.step? registry call).map fun server =>
      { deployment with server := server }
  | .vlobCreate connection now realmId encryptionRevision vlobId timestamp blob => do
      guard (deployment.server.clock ≤ now)
      let ctx ← registry.authenticate connection
      let vlobs ← (deployment.vlobs.apiVlobCreate deployment.server.realms ctx realmId encryptionRevision
        vlobId timestamp blob now).toOption
      return { deployment with vlobs := vlobs, server := { deployment.server with clock := now } }
  | .vlobUpdate connection now encryptionRevision vlobId version timestamp blob => do
      guard (deployment.server.clock ≤ now)
      let ctx ← registry.authenticate connection
      let vlobs ← (deployment.vlobs.apiVlobUpdate deployment.server.realms ctx encryptionRevision vlobId
        version timestamp blob now).toOption
      return { deployment with vlobs := vlobs, server := { deployment.server with clock := now } }
  | .load call => do
      let client := deployment.clients call.client
      let ctx ← registry.authenticate client.connection
      return { deployment with
        clients := Function.update deployment.clients call.client
          { client with loader := (deployment.loadManifest registry ctx call).2 } }

end Deployment

end Deployment

end Guardata
