import Guardata.Model.Invitations

/-! # The events that clients listen to

The components of the memory backend put their announcements in one queue, from which they are dispatched one by
one, in order, to whoever is connected. A connection that has subscribed keeps the set of the realms of its user
and puts what concerns it into a channel of its own, from which the client takes it. A channel that is full
takes nothing.

Connections come and go, requests of anybody are served, messages are sent one after the other, and the queue
is dispatched, in any order. A request that is cancelled before it has announced its change is left out, and so is a
listen that is cancelled: a client listens when there is something in its channel, and takes it at once.
-/

namespace Guardata

/-- What a client is told by `events_listen`. -/
inductive APIEvent where
  | pinged (ping : String)
  | messageReceived (index : ℕ)
  | inviteStatusChanged (token : UUID) (status : InvitationStatus)
  | realmMaintenanceStarted (realmId : UUID) (encryptionRevision : ℕ)
  | realmMaintenanceFinished (realmId : UUID) (encryptionRevision : ℕ)
  | realmVlobsUpdated (realmId : UUID) (checkpoint : ℕ) (srcId : UUID) (srcVersion : ℕ)
  | realmRolesUpdated (realmId : UUID) (role : Option RealmRole)
deriving DecidableEq, Repr

/-- The size of the channel of a client. -/
def maxPendingEvents : ℕ := 4096

/-- What the backend keeps of an authenticated connection. -/
structure AuthenticatedClientContext where
  organizationId : OrganizationID
  deviceId : DeviceID
  realms : Finset UUID := ∅
  eventsSubscribed : Bool := false
  channel : List APIEvent := []
deriving DecidableEq

namespace AuthenticatedClientContext

variable (ctx : AuthenticatedClientContext)

def userId : UserID := ctx.deviceId.userId

/-- `send_nowait`. A full channel only warns. -/
def sendNowait (event : APIEvent) : AuthenticatedClientContext :=
  if ctx.channel.length < maxPendingEvents then { ctx with channel := ctx.channel ++ [event] } else ctx

/-- Keep up to date the list of realms we should listen on. -/
def updateRealms (realmId : UUID) (role : Option RealmRole) : AuthenticatedClientContext :=
  { ctx with realms := if role.isSome then insert realmId ctx.realms else ctx.realms.erase realmId }

/-- `_on_realm_events`. -/
def onRealmEvents (organizationId : OrganizationID) (author : DeviceID) (realmId : UUID)
    (event : APIEvent) : AuthenticatedClientContext :=
  if organizationId ≠ ctx.organizationId ∨ author = ctx.deviceId ∨ realmId ∉ ctx.realms then ctx
  else ctx.sendNowait event

/-- The callbacks that `events_subscribe` connects. -/
def onEvent : BackendEvent → AuthenticatedClientContext
  | .pinged organizationId author ping =>
      if organizationId ≠ ctx.organizationId ∨ author = ctx.deviceId then ctx
      else ctx.sendNowait (.pinged ping)
  | .messageReceived organizationId _ recipient index =>
      if organizationId ≠ ctx.organizationId ∨ recipient ≠ ctx.userId then ctx
      else ctx.sendNowait (.messageReceived index)
  | .inviteStatusChanged organizationId greeter token status =>
      if organizationId ≠ ctx.organizationId ∨ greeter ≠ ctx.userId then ctx
      else ctx.sendNowait (.inviteStatusChanged token status)
  | .realmMaintenanceStarted organizationId author realmId encryptionRevision =>
      ctx.onRealmEvents organizationId author realmId (.realmMaintenanceStarted realmId encryptionRevision)
  | .realmMaintenanceFinished organizationId author realmId encryptionRevision =>
      ctx.onRealmEvents organizationId author realmId (.realmMaintenanceFinished realmId encryptionRevision)
  | .realmVlobsUpdated organizationId author realmId checkpoint srcId srcVersion =>
      ctx.onRealmEvents organizationId author realmId
        (.realmVlobsUpdated realmId checkpoint srcId srcVersion)
  | .realmRolesUpdated organizationId _ realmId user role =>
      if organizationId ≠ ctx.organizationId ∨ user ≠ ctx.userId then ctx
      else (ctx.updateRealms realmId role).sendNowait (.realmRolesUpdated realmId role)

/-- What a connection makes of an event. -/
def hear (event : BackendEvent) : AuthenticatedClientContext :=
  if ctx.eventsSubscribed then ctx.onEvent event else ctx

end AuthenticatedClientContext

/-- The role of a user in a realm of the organization. -/
def realmRole? (organizationId : OrganizationID) (user : UserID) (entry : (OrganizationID × UUID) × Realm) :
    Option (UUID × RealmRole) :=
  if entry.1.1 ≠ organizationId then none else (entry.2.roles.get? user).map fun role => (entry.1.2, role)

/-- `get_realms_for_user`. -/
def MemoryRealmComponent.getRealmsForUser (component : MemoryRealmComponent)
    (organizationId : OrganizationID) (user : UserID) : Dict UUID RealmRole :=
  .ofList (component.realms.items.filterMap (realmRole? organizationId user))

/-- The memory backend with its connections. -/
structure MemoryServer (β : Type) where
  backend : ReencryptionBackend β := {}
  messages : MemoryMessageComponent := {}
  invite : MemoryInviteComponent := {}
  queue : List BackendEvent := []
  clients : ℕ → Option AuthenticatedClientContext := fun _ => none
  /-- The messages that requests have yet to send. -/
  sends : ℕ → List MessageSend := fun _ => []

inductive ServerRequest (β : Type) where
  | data (request : DataRequest β)
  | ping (organizationId : OrganizationID) (author : DeviceID) (ping : String)
  | inviteNew (users : OrganizationStore) (organizationId : OrganizationID) (userId : UserID)
      (profile : UserProfile) (claimerEmail : Option String) (token : UUID) (now : DateTime)
  | inviteDelete (organizationId : OrganizationID) (userId : UserID) (token : UUID)
      (reason : InvitationDeletedReason) (now : DateTime)
  /-- `claimer_joined` and `claimer_left`. -/
  | claimerStatus (organizationId : OrganizationID) (greeter : UserID) (token : UUID) (online : Bool)

inductive ServerEvent (β : Type) where
  | connect (client : ℕ) (organizationId : OrganizationID) (deviceId : DeviceID)
  | disconnect (client : ℕ)
  | subscribe (client : ℕ)
  | listen (client : ℕ)
  /-- A request, in the task with a number. -/
  | request (task : ℕ) (request : ServerRequest β)
  | sendNext (task : ℕ)
  | abandon (task : ℕ)
  | dispatch

namespace MemoryServer

variable {β : Type} (server : MemoryServer β)

def setClient (client : ℕ) (ctx : Option AuthenticatedClientContext) : MemoryServer β :=
  { server with clients := Function.update server.clients client ctx }

def setSends (task : ℕ) (sends : List MessageSend) : MemoryServer β :=
  { server with sends := Function.update server.sends task sends }

/-- `_send_event`. -/
def sendEvents (events : List BackendEvent) : MemoryServer β := { server with queue := server.queue ++ events }

def serve (task : ℕ) : ServerRequest β → MemoryServer β
  | .data request =>
      let reply := server.backend.serveData request
      ({ server with backend := reply.backend }.sendEvents reply.events).setSends task reply.sends
  | .ping organizationId author ping => server.sendEvents [.pinged organizationId author ping]
  | .inviteNew users organizationId userId profile claimerEmail token now =>
      let (invite, events, _) := server.invite.apiInviteNew users organizationId userId profile claimerEmail
        token now
      { server with invite }.sendEvents events
  | .inviteDelete organizationId userId token reason now =>
      let (invite, events, _) := server.invite.apiInviteDelete organizationId userId token reason now
      { server with invite }.sendEvents events
  | .claimerStatus organizationId greeter token online =>
      server.sendEvents [.inviteStatusChanged organizationId greeter token (if online then .ready else .idle)]

/-- The next message of a task. -/
def sendMessage (send : MessageSend) : MemoryServer β :=
  let (messages, event) := server.messages.send send
  { server with messages }.sendEvents [event]

/-- `_dispatch_event`, for the first event of the queue. -/
def dispatch (event : BackendEvent) (rest : List BackendEvent) : MemoryServer β where
  backend := server.backend
  messages := server.messages
  invite := server.invite.onEvent event
  queue := rest
  clients client := (server.clients client).map (·.hear event)
  sends := server.sends

/-- `api_events_subscribe`, which is idempotent. -/
def subscribe (ctx : AuthenticatedClientContext) : AuthenticatedClientContext :=
  if ctx.eventsSubscribed then ctx
  else { ctx with
    realms := (server.backend.realms.getRealmsForUser ctx.organizationId ctx.userId).keys.toFinset
    eventsSubscribed := true }

def step? : ServerEvent β → Option (MemoryServer β)
  | .connect client organizationId deviceId => do
      guard (server.clients client).isNone
      return server.setClient client (some { organizationId, deviceId })
  | .disconnect client => some (server.setClient client none)
  | .subscribe client => do
      let ctx ← server.clients client
      return server.setClient client (some (server.subscribe ctx))
  | .listen client => do
      let ctx ← server.clients client
      guard (ctx.channel ≠ [])
      return server.setClient client (some { ctx with channel := ctx.channel.tail })
  | .request task request => do
      guard (server.sends task = [])
      return server.serve task request
  | .sendNext task =>
      match server.sends task with
      | [] => none
      | send :: rest => some ((server.sendMessage send).setSends task rest)
  | .abandon task => some (server.setSends task [])
  | .dispatch =>
      match server.queue with
      | [] => none
      | event :: rest => some (server.dispatch event rest)

end MemoryServer

end Guardata
