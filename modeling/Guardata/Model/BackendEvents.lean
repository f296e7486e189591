import Guardata.Model.VlobRequests

/-! # What the components of the backend announce

Every change that a client may want to hear of is announced by an event, which the memory backend puts in a queue
in the same step. Here are the events, the messages that users are sent, and what the requests on realms and
vlobs announce. A request that starts a re-encryption, or changes a role, sends its messages afterwards, one
after the other, and other requests may come between.
-/

namespace Guardata

inductive InvitationStatus where
  | idle
  | ready
  | deleted
deriving DecidableEq, Repr

/-- The events of `BackendEvent` that concern authenticated clients, with their arguments. -/
inductive BackendEvent where
  | pinged (organizationId : OrganizationID) (author : DeviceID) (ping : String)
  | messageReceived (organizationId : OrganizationID) (author : DeviceID) (recipient : UserID) (index : ℕ)
  | inviteStatusChanged (organizationId : OrganizationID) (greeter : UserID) (token : UUID)
      (status : InvitationStatus)
  | realmMaintenanceStarted (organizationId : OrganizationID) (author : DeviceID) (realmId : UUID)
      (encryptionRevision : ℕ)
  | realmMaintenanceFinished (organizationId : OrganizationID) (author : DeviceID) (realmId : UUID)
      (encryptionRevision : ℕ)
  | realmVlobsUpdated (organizationId : OrganizationID) (author : DeviceID) (realmId : UUID)
      (checkpoint : ℕ) (srcId : UUID) (srcVersion : ℕ)
  | realmRolesUpdated (organizationId : OrganizationID) (author : DeviceID) (realmId : UUID)
      (user : UserID) (role : Option RealmRole)
deriving DecidableEq, Repr

/-- A message as it is kept. -/
structure StoredMessage where
  sender : DeviceID
  timestamp : DateTime
  body : Bytes
deriving DecidableEq, Repr

/-- A `send` of the message component that is to be made. -/
structure MessageSend where
  organizationId : OrganizationID
  recipient : UserID
  message : StoredMessage
deriving DecidableEq, Repr

/-- A message as it is served. -/
structure ServedMessage extends StoredMessage where
  count : ℕ
deriving DecidableEq, Repr

structure MemoryMessageComponent where
  messages : Dict (OrganizationID × UserID) (List StoredMessage) := ∅

namespace MemoryMessageComponent

variable (component : MemoryMessageComponent)

/-- All messages of a user. -/
def received (organizationId : OrganizationID) (recipient : UserID) : List StoredMessage :=
  (component.messages.get? (organizationId, recipient)).getD []

def send (send : MessageSend) : MemoryMessageComponent × BackendEvent :=
  let messages := component.received send.organizationId send.recipient ++ [send.message]
  (⟨component.messages.insert (send.organizationId, send.recipient) messages⟩,
    .messageReceived send.organizationId send.message.sender send.recipient messages.length)

def get (organizationId : OrganizationID) (recipient : UserID) (offset : ℕ) : List StoredMessage :=
  (component.received organizationId recipient).drop offset

/-- `api_message_get`. -/
def apiMessageGet (organizationId : OrganizationID) (userId : UserID) (offset : ℕ) : List ServedMessage :=
  ((component.get organizationId userId offset).zipIdx (offset + 1)).map fun (message, count) =>
    ⟨message, count⟩

end MemoryMessageComponent

/-- The requests that change realms, vlobs or messages, with the messages that come with them. -/
inductive DataRequest (β : Type) where
  | vlob (request : VlobRequest β)
  /-- `update_roles` with a message for the user whose role it is. -/
  | updateRoles (users : UserTable) (organizationId : OrganizationID) (grant : RealmGrantedRole)
      (recipientMessage : Bytes)
  | start (users : UserTable) (organizationId : OrganizationID) (author : DeviceID) (realmId : UUID)
      (encryptionRevision : ℕ) (perParticipantMessage : Dict UserID Bytes) (timestamp now : DateTime)

/-- What a request comes to: the backend after its first step, what it announces then, and the messages
that it still sends. -/
structure DataReply (β : Type) where
  backend : ReencryptionBackend β
  events : List BackendEvent := []
  sends : List MessageSend := []

namespace ReencryptionBackend

variable {β : Type} (backend : ReencryptionBackend β)

def rolesUpdated (organizationId : OrganizationID) (grant : RealmGrantedRole) : BackendEvent :=
  .realmRolesUpdated organizationId grant.grantedBy grant.realmId grant.userId grant.role

/-- The event of `_update_changes`, once the changes are made. -/
def vlobsUpdated (organizationId : OrganizationID) (author : DeviceID) (realmId srcId : UUID)
    (srcVersion : ℕ) : BackendEvent :=
  .realmVlobsUpdated organizationId author realmId
    ((backend.vlobs.perRealmChanges.get? (organizationId, realmId)).getD {}).checkpoint srcId srcVersion

/-- A change of the roles of a realm, and what is announced if it is accepted. -/
def changeRoles (result : Except RealmError MemoryRealmComponent) (organizationId : OrganizationID)
    (grant : RealmGrantedRole) (sends : List MessageSend := []) : DataReply β :=
  match result with
  | .error _ => { backend }
  | .ok realms => { backend := backend.setRealms realms, events := [rolesUpdated organizationId grant], sends }

/-- A change of a vlob, and what is announced if it is accepted. -/
def changeVlob (result : Except VlobError (MemoryVlobComponent β)) (organizationId : OrganizationID)
    (author : DeviceID) (realmId vlobId : UUID) (version : ℕ) : DataReply β :=
  match result with
  | .error _ => { backend }
  | .ok vlobs =>
      { backend := backend.setVlobs vlobs
        events := [(backend.setVlobs vlobs).vlobsUpdated organizationId author realmId vlobId version] }

/-- `start_reencryption_maintenance`: first the event, then a message to each participant. -/
def startReencryption (users : UserTable) (organizationId : OrganizationID) (author : DeviceID)
    (realmId : UUID) (encryptionRevision : ℕ) (recipients : List UserID) (timestamp now : DateTime)
    (sends : List MessageSend := []) : DataReply β :=
  let (after, result) := backend.startReencryptionMaintenance users organizationId author realmId
    encryptionRevision recipients timestamp now
  match result with
  | .error _ => { backend := after }
  | .ok () =>
      { backend := after
        events := [.realmMaintenanceStarted organizationId author realmId encryptionRevision]
        sends }

/-- What the requests on realms and vlobs announce. -/
def announce : VlobRequest β → DataReply β
  | .realmCreate organizationId grant =>
      backend.changeRoles (backend.realms.create organizationId grant) organizationId grant
  | .updateRoles users organizationId grant =>
      backend.changeRoles (backend.realms.updateRoles users organizationId grant) organizationId grant
  | .create organizationId author realmId encryptionRevision vlobId timestamp blob =>
      backend.changeVlob (backend.vlobs.create backend.realms organizationId author realmId
        encryptionRevision vlobId timestamp blob) organizationId author realmId vlobId 1
  | .update organizationId author encryptionRevision vlobId version timestamp blob =>
      backend.changeVlob (backend.vlobs.update backend.realms organizationId author encryptionRevision
        vlobId version timestamp blob) organizationId author
        (((backend.vlobs.vlobs.get? (organizationId, vlobId)).map (·.realmId)).getD 0) vlobId version
  | .start users organizationId author realmId encryptionRevision recipients timestamp now =>
      backend.startReencryption users organizationId author realmId encryptionRevision recipients timestamp
        now
  | .saveBatch organizationId author realmId encryptionRevision batch =>
      { backend := (backend.maintenanceSaveReencryptionBatch organizationId author realmId
          encryptionRevision batch).1 }
  | .finish organizationId author realmId encryptionRevision =>
      match backend.finishReencryptionMaintenance organizationId author realmId encryptionRevision with
      | .error _ => { backend }
      | .ok after =>
          { backend := after
            events := [.realmMaintenanceFinished organizationId author realmId encryptionRevision] }

def serveData : DataRequest β → DataReply β
  | .vlob request => backend.announce request
  | .updateRoles users organizationId grant recipientMessage =>
      backend.changeRoles (backend.realms.updateRoles users organizationId grant) organizationId grant
        [⟨organizationId, grant.userId, ⟨grant.grantedBy, grant.grantedOn, recipientMessage⟩⟩]
  | .start users organizationId author realmId encryptionRevision perParticipantMessage timestamp now =>
      backend.startReencryption users organizationId author realmId encryptionRevision
        perParticipantMessage.keys timestamp now
        (perParticipantMessage.items.map fun (recipient, body) =>
          ⟨organizationId, recipient, ⟨author, timestamp, body⟩⟩)

end ReencryptionBackend

end Guardata
