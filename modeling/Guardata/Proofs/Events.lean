import Guardata.Machine.Feed
import Guardata.Machine.Run
import Guardata.Model.Events
import Guardata.Proofs.Invitations
import Guardata.Proofs.Reencryption
import Guardata.Proofs.VlobAccess

/-! # What is announced is what has changed

The roles of a realm change exactly when a change of roles is announced, as long as no accepted update is dated
before one about the same user that was received earlier. Every other request leaves the roles as they are and
announces no change of them.
-/

namespace Guardata

open Machine

/-- The role of a user in a realm, by the dates of the grants. -/
def MemoryRealmComponent.roleIn (component : MemoryRealmComponent) (organizationId : OrganizationID)
    (realmId : UUID) (userId : UserID) : Option RealmRole :=
  (component.realms.get? (organizationId, realmId)).bind fun realm => realm.roles.get? userId

/-- The new role of a user in a realm that an event tells of. -/
def BackendEvent.roleChange? (organizationId : OrganizationID) (realmId : UUID) (userId : UserID) :
    BackendEvent → Option (Option RealmRole)
  | .realmRolesUpdated organizationId' _ realmId' user role =>
      if organizationId' = organizationId ∧ realmId' = realmId ∧ user = userId then some role else none
  | _ => none

/-- The last change of a role that a queue tells of. -/
def announced? (organizationId : OrganizationID) (realmId : UUID) (userId : UserID) :
    List BackendEvent → Option (Option RealmRole)
  | [] => none
  | event :: rest => (announced? organizationId realmId userId rest).or
      (event.roleChange? organizationId realmId userId)

section Announced

variable {organizationId : OrganizationID} {realmId : UUID} {userId : UserID} {queue more : List BackendEvent}

theorem announced?_append : announced? organizationId realmId userId (queue ++ more) =
    (announced? organizationId realmId userId more).or (announced? organizationId realmId userId queue) := by
  induction queue with
  | nil => rw [List.nil_append, announced?, Option.or_none]
  | cons event rest ih => rw [List.cons_append, announced?, announced?, ih, Option.or_assoc]

theorem announced?_of_silent (silent : ∀ event ∈ queue, event.roleChange? organizationId realmId userId = none) :
    announced? organizationId realmId userId queue = none := by
  induction queue with
  | nil => rfl
  | cons event rest ih =>
    rw [announced?, ih fun other member => silent other (List.mem_cons_of_mem _ member),
      silent event List.mem_cons_self]
    rfl

end Announced

/-- The organization, the author and the realm of an event of a realm, and what subscribers are told. -/
def BackendEvent.realmEvent? : BackendEvent → Option (OrganizationID × DeviceID × UUID × APIEvent)
  | .realmMaintenanceStarted organizationId author realmId encryptionRevision =>
      some (organizationId, author, realmId, .realmMaintenanceStarted realmId encryptionRevision)
  | .realmMaintenanceFinished organizationId author realmId encryptionRevision =>
      some (organizationId, author, realmId, .realmMaintenanceFinished realmId encryptionRevision)
  | .realmVlobsUpdated organizationId author realmId checkpoint srcId srcVersion =>
      some (organizationId, author, realmId, .realmVlobsUpdated realmId checkpoint srcId srcVersion)
  | _ => none

/-- What an event makes of the realms of a user. -/
def followRoles (organizationId : OrganizationID) (userId : UserID) (realms : Finset UUID) :
    BackendEvent → Finset UUID
  | .realmRolesUpdated organizationId' _ realmId user role =>
      if organizationId' ≠ organizationId ∨ user ≠ userId then realms
      else if role.isSome then insert realmId realms else realms.erase realmId
  | _ => realms

theorem mem_followRoles_iff {organizationId : OrganizationID} {userId : UserID} {realms : Finset UUID}
    {event : BackendEvent} {realmId : UUID} :
    realmId ∈ followRoles organizationId userId realms event ↔
      match event.roleChange? organizationId realmId userId with
      | some role => role.isSome
      | none => realmId ∈ realms := by
  cases event with
  | realmRolesUpdated organizationId' author realmId' user role =>
    rw [followRoles, BackendEvent.roleChange?]
    by_cases same : organizationId' = organizationId ∧ user = userId
    · obtain ⟨rfl, rfl⟩ := same
      by_cases here : realmId' = realmId
      · subst here
        cases role <;> simp
      · cases role <;> simp [here, Ne.symm here]
    · have other : ¬ (organizationId' = organizationId ∧ realmId' = realmId ∧ user = userId) :=
        fun all => same ⟨all.1, all.2.2⟩
      rw [if_pos (not_and_or.mp same), if_neg other]
  | _ => exact Iff.rfl

/-- The last change decides. -/
theorem mem_foldl_followRoles_iff {organizationId : OrganizationID} {userId : UserID} {realms : Finset UUID}
    {queue : List BackendEvent} {realmId : UUID} :
    realmId ∈ queue.foldl (followRoles organizationId userId) realms ↔
      match announced? organizationId realmId userId queue with
      | some role => role.isSome
      | none => realmId ∈ realms := by
  induction queue generalizing realms with
  | nil => exact Iff.rfl
  | cons event rest ih =>
    rw [List.foldl_cons, ih, announced?]
    cases announced? organizationId realmId userId rest with
    | some role => exact Iff.rfl
    | none => exact mem_followRoles_iff

namespace AuthenticatedClientContext

variable {ctx : AuthenticatedClientContext} {event : BackendEvent}

/-- What `hear` may do to a connection: the set of realms follows, and something may be put in the channel. -/
theorem hear_spec (subscribed : ctx.eventsSubscribed = true) (event : BackendEvent) :
    ∃ channel, ctx.hear event = { ctx with
      realms := followRoles ctx.organizationId ctx.userId ctx.realms event, channel := channel } := by
  have sends (ctx : AuthenticatedClientContext) (told : APIEvent) :
      ∃ channel, ctx.sendNowait told = { ctx with channel := channel } := by
    unfold sendNowait
    split
    · exact ⟨_, rfl⟩
    · exact ⟨ctx.channel, rfl⟩
  have stays : ∃ channel, ctx = { ctx with channel := channel } := ⟨ctx.channel, rfl⟩
  rw [hear, if_pos subscribed]
  cases event with
  | realmRolesUpdated organizationId author realmId user role =>
    rw [onEvent, followRoles]
    split
    · exact stays
    · exact sends (ctx.updateRealms realmId role) _
  | pinged organizationId author ping =>
    simp only [onEvent, followRoles]
    split
    · exact stays
    · exact sends ctx _
  | messageReceived organizationId author recipient index =>
    simp only [onEvent, followRoles]
    split
    · exact stays
    · exact sends ctx _
  | inviteStatusChanged organizationId greeter token status =>
    simp only [onEvent, followRoles]
    split
    · exact stays
    · exact sends ctx _
  | realmMaintenanceStarted organizationId author realmId encryptionRevision =>
    simp only [onEvent, followRoles, onRealmEvents]
    split
    · exact stays
    · exact sends ctx _
  | realmMaintenanceFinished organizationId author realmId encryptionRevision =>
    simp only [onEvent, followRoles, onRealmEvents]
    split
    · exact stays
    · exact sends ctx _
  | realmVlobsUpdated organizationId author realmId checkpoint srcId srcVersion =>
    simp only [onEvent, followRoles, onRealmEvents]
    split
    · exact stays
    · exact sends ctx _

theorem foldl_hear_spec (subscribed : ctx.eventsSubscribed = true) (events : List BackendEvent) :
    ∃ channel, events.foldl hear ctx = { ctx with
      realms := events.foldl (followRoles ctx.organizationId ctx.userId) ctx.realms, channel := channel } := by
  induction events generalizing ctx with
  | nil => exact ⟨ctx.channel, rfl⟩
  | cons event rest ih =>
    obtain ⟨channel, heard⟩ := hear_spec subscribed event
    rw [List.foldl_cons, heard]
    exact ih subscribed

theorem hear_realmEvent (subscribed : ctx.eventsSubscribed = true) {organizationId : OrganizationID}
    {author : DeviceID} {realmId : UUID} {told : APIEvent}
    (realm : event.realmEvent? = some (organizationId, author, realmId, told)) :
    ctx.hear event = ctx.onRealmEvents organizationId author realmId told := by
  rw [hear, if_pos subscribed]
  cases event with
  | realmMaintenanceStarted => cases realm; rfl
  | realmMaintenanceFinished => cases realm; rfl
  | realmVlobsUpdated => cases realm; rfl
  | _ => cases realm

end AuthenticatedClientContext

section Grants

variable {component next : MemoryRealmComponent} {organizationId : OrganizationID} {grant : RealmGrantedRole}

/-- A new role, for one user in one realm. -/
def MemoryRealmComponent.Grants (component next : MemoryRealmComponent) (organizationId : OrganizationID)
    (grant : RealmGrantedRole) : Prop :=
  ∀ organizationId' realmId userId, next.roleIn organizationId' realmId userId =
    if organizationId = organizationId' ∧ grant.realmId = realmId ∧ grant.userId = userId then grant.role
    else component.roleIn organizationId' realmId userId

theorem grants_of_create (created : component.create organizationId grant = .ok next) :
    component.Grants next organizationId grant := by
  obtain ⟨-, -, absent, rfl⟩ := MemoryRealmComponent.create_eq_ok_iff.mp created
  intro organizationId' realmId userId
  unfold MemoryRealmComponent.roleIn
  rw [MemoryRealmComponent.get?_setRealm]
  by_cases same : (organizationId', realmId) = (organizationId, grant.realmId)
  · obtain ⟨rfl, rfl⟩ := Prod.mk.inj same
    have roles : ({ grantedRoles := [grant] } : Realm).roles.get? userId =
        if userId = grant.userId then grant.role else none := by
      have alone := Realm.roles_grant {} grant userId
      rw [if_congr (and_iff_left (by intro other member; cases member)) rfl rfl] at alone
      exact alone
    rw [if_pos rfl, Option.bind_some, roles, absent]
    by_cases about : userId = grant.userId
    · rw [if_pos about, if_pos ⟨rfl, rfl, about.symm⟩]
    · rw [if_neg about, if_neg fun all => about all.2.2.symm]
      rfl
  · rw [if_neg same, if_neg]
    rintro ⟨rfl, rfl, -⟩
    exact same rfl

theorem grants_of_updateRoles {users : UserTable}
    (updated : component.updateRoles users organizationId grant = .ok next)
    (ordered : ∀ realm, component.realms.get? (organizationId, grant.realmId) = some realm →
      realm.NotBackdated grant) : component.Grants next organizationId grant := by
  obtain ⟨-, -, realm, found, -, rfl⟩ := MemoryRealmComponent.updateRoles_eq_ok_iff.mp updated
  intro organizationId' realmId userId
  unfold MemoryRealmComponent.roleIn
  rw [MemoryRealmComponent.get?_setRealm]
  by_cases same : (organizationId', realmId) = (organizationId, grant.realmId)
  · obtain ⟨rfl, rfl⟩ := Prod.mk.inj same
    rw [if_pos rfl, Option.bind_some, Realm.roles_grant, found, Option.bind_some]
    by_cases about : userId = grant.userId
    · rw [if_pos ⟨about, ordered realm found⟩, if_pos ⟨rfl, rfl, about.symm⟩]
    · rw [if_neg fun both => about both.1, if_neg fun all => about all.2.2.symm]
  · rw [if_neg same, if_neg]
    rintro ⟨rfl, rfl, -⟩
    exact same rfl

/-- A new status of a realm has nothing to do with roles. -/
theorem roleIn_setStatus {realmId : UUID} {realm : Realm} (status : RealmStatus)
    (found : component.realms.get? (organizationId, realmId) = some realm) :
    (component.setRealm organizationId realmId { realm with status := status }).roleIn =
      component.roleIn := by
  funext organizationId' realmId' userId
  unfold MemoryRealmComponent.roleIn
  rw [MemoryRealmComponent.get?_setRealm]
  split
  · next same =>
    cases same
    rw [found]
    rfl
  · rfl

end Grants

/-- The realms of a user are those where they have a role. -/
theorem mem_getRealmsForUser_iff {component : MemoryRealmComponent} {organizationId : OrganizationID}
    {user : UserID} {realmId : UUID} :
    realmId ∈ (component.getRealmsForUser organizationId user).keys.toFinset ↔
      (component.roleIn organizationId realmId user).isSome := by
  have listed (realmId : UUID) (role : RealmRole) :
      (realmId, role) ∈ component.realms.items.filterMap (realmRole? organizationId user) ↔
        component.roleIn organizationId realmId user = some role := by
    simp only [List.mem_filterMap, Prod.exists, MemoryRealmComponent.roleIn, Option.bind_eq_some_iff, realmRole?]
    constructor
    · rintro ⟨org, other, realm, member, kept⟩
      split at kept
      · cases kept
      · next here =>
        obtain ⟨role', has, same⟩ := Option.map_eq_some_iff.mp kept
        cases same
        exact ⟨realm, Dict.get?_eq_some_iff.mpr (not_not.mp here ▸ member), has⟩
    · rintro ⟨realm, found, has⟩
      refine ⟨organizationId, realmId, realm, Dict.get?_eq_some_iff.mp found, ?_⟩
      rw [if_neg (not_not.mpr rfl), has]
      rfl
  rw [List.mem_toFinset, Option.isSome_iff_exists, Dict.mem_keys_iff]
  refine exists_congr fun role => ?_
  rw [MemoryRealmComponent.getRealmsForUser, Dict.get?_ofList_eq_some_iff, listed]
  intro key first second here there
  exact Option.some_inj.mp (((listed ..).mp here).symm.trans ((listed ..).mp there))

/-- The roles afterwards are those before, with what the events tell of. -/
def MemoryRealmComponent.Tells (before after : MemoryRealmComponent) (events : List BackendEvent) : Prop :=
  ∀ organizationId realmId userId, after.roleIn organizationId realmId userId =
    (announced? organizationId realmId userId events).getD (before.roleIn organizationId realmId userId)

theorem tells_of_silent {before after : MemoryRealmComponent} {events : List BackendEvent}
    (same : after.roleIn = before.roleIn)
    (silent : ∀ event ∈ events, ∀ organizationId realmId userId,
      event.roleChange? organizationId realmId userId = none) : before.Tells after events := by
  intro organizationId realmId userId
  rw [announced?_of_silent fun event member => silent event member organizationId realmId userId, same]
  rfl

theorem tells_of_grants {before after : MemoryRealmComponent} {organizationId : OrganizationID}
    {grant : RealmGrantedRole} (grants : before.Grants after organizationId grant) :
    before.Tells after [ReencryptionBackend.rolesUpdated organizationId grant] := by
  intro organizationId' realmId userId
  rw [grants, announced?, announced?, Option.none_or, ReencryptionBackend.rolesUpdated,
    BackendEvent.roleChange?]
  split <;> rfl

namespace ReencryptionBackend

variable {β : Type} {backend : ReencryptionBackend β}

/-- An update of a role that is accepted is not dated before a recorded grant about the same user. -/
def UpdateInOrder (backend : ReencryptionBackend β) (users : UserTable) (organizationId : OrganizationID)
    (grant : RealmGrantedRole) : Prop :=
  (backend.realms.updateRoles users organizationId grant).isOk = true →
    ∀ realm ∈ backend.realms.realms.get? (organizationId, grant.realmId), realm.NotBackdated grant

def GrantsInOrder (backend : ReencryptionBackend β) : DataRequest β → Prop
  | .vlob (.updateRoles users organizationId grant) | .updateRoles users organizationId grant _ =>
      backend.UpdateInOrder users organizationId grant
  | _ => True

instance (backend : ReencryptionBackend β) (users : UserTable) (organizationId : OrganizationID)
    (grant : RealmGrantedRole) : Decidable (backend.UpdateInOrder users organizationId grant) := by
  unfold UpdateInOrder
  infer_instance

instance (backend : ReencryptionBackend β) (request : DataRequest β) : Decidable (backend.GrantsInOrder request) := by
  cases request with
  | vlob request =>
    cases request with
    | updateRoles users organizationId grant =>
      exact inferInstanceAs (Decidable (backend.UpdateInOrder users organizationId grant))
    | _ => exact isTrue trivial
  | updateRoles users organizationId grant recipientMessage =>
    exact inferInstanceAs (Decidable (backend.UpdateInOrder users organizationId grant))
  | start => exact isTrue trivial

/-- A reply tells what it has done to the roles. -/
def IsTold (backend : ReencryptionBackend β) (reply : DataReply β) : Prop :=
  backend.realms.Tells reply.backend.realms reply.events

theorem isTold_changeRoles {result : Except RealmError MemoryRealmComponent}
    {organizationId : OrganizationID} {grant : RealmGrantedRole} {sends : List MessageSend}
    (grants : ∀ next, result = .ok next → backend.realms.Grants next organizationId grant) :
    backend.IsTold (backend.changeRoles result organizationId grant sends) := by
  cases result with
  | error error => exact tells_of_silent rfl (by intro event member; cases member)
  | ok next => exact tells_of_grants (grants next rfl)

theorem isTold_changeVlob {result : Except VlobError (MemoryVlobComponent β)}
    {organizationId : OrganizationID} {author : DeviceID} {realmId vlobId : UUID} {version : ℕ} :
    backend.IsTold (backend.changeVlob result organizationId author realmId vlobId version) := by
  cases result with
  | error error => exact tells_of_silent rfl (by intro event member; cases member)
  | ok vlobs =>
    refine tells_of_silent rfl fun event member => ?_
    obtain rfl := List.mem_singleton.mp member
    intros
    rfl

theorem isTold_startReencryption {users : UserTable} {organizationId : OrganizationID}
    {author : DeviceID} {realmId : UUID} {encryptionRevision : ℕ} {recipients : List UserID}
    {timestamp now : DateTime} {sends : List MessageSend} :
    backend.IsTold (backend.startReencryption users organizationId author realmId encryptionRevision recipients
      timestamp now sends) := by
  unfold startReencryption startReencryptionMaintenance
  cases accepted : backend.realms.startReencryptionMaintenance users organizationId author realmId
      encryptionRevision recipients timestamp now with
  | error error => exact tells_of_silent rfl (by intro event member; cases member)
  | ok realms =>
    have step : backend.realms.step? (.startReencryption users organizationId author realmId
        encryptionRevision recipients timestamp now) = some realms := Except.toOption_eq_some_iff.mpr accepted
    have same : realms.roleIn = backend.realms.roleIn := by
      rcases MemoryRealmComponent.step?_cases step with ⟨_, _, is, -⟩ | ⟨_, _, _, is, -⟩ | other
      · cases is
      · cases is
      · obtain ⟨_, _, realm, status, -, found, rfl⟩ := other
        exact roleIn_setStatus status found
    by_cases present : backend.reencryptions.contains (organizationId, realmId) = true
    · simp only [present, if_true]
      exact tells_of_silent same (by intro event member; cases member)
    · simp only [present]
      refine tells_of_silent same fun event member => ?_
      obtain rfl := List.mem_singleton.mp member
      intros
      rfl

theorem isTold_finish {organizationId : OrganizationID} {author : DeviceID} {realmId : UUID}
    {encryptionRevision : ℕ} :
    backend.IsTold (backend.announce (.finish organizationId author realmId encryptionRevision)) := by
  rw [announce]
  cases finished : backend.finishReencryptionMaintenance organizationId author realmId encryptionRevision with
  | error error => exact tells_of_silent rfl (by intro event member; cases member)
  | ok after =>
    obtain ⟨realm, _, _, found, -, -, -, -, -, rfl⟩ := finish_eq_ok_iff.mp finished
    refine tells_of_silent (roleIn_setStatus _ found) fun event member => ?_
    obtain rfl := List.mem_singleton.mp member
    intros
    rfl

/-- A request changes one role and says so, or none and says nothing of roles. -/
theorem isTold_serveData {request : DataRequest β} (ordered : backend.GrantsInOrder request) :
    backend.IsTold (backend.serveData request) := by
  have updates {users : UserTable} {organizationId : OrganizationID} {grant : RealmGrantedRole}
      (ordered : backend.UpdateInOrder users organizationId grant) (next : MemoryRealmComponent)
      (updated : backend.realms.updateRoles users organizationId grant = .ok next) :
      backend.realms.Grants next organizationId grant :=
    grants_of_updateRoles updated (ordered (by rw [updated]; rfl))
  cases request with
  | updateRoles users organizationId grant recipientMessage => exact isTold_changeRoles (updates ordered)
  | start users organizationId author realmId encryptionRevision perParticipantMessage timestamp now =>
    exact isTold_startReencryption
  | vlob request =>
    cases request with
    | realmCreate organizationId grant => exact isTold_changeRoles fun next => grants_of_create
    | updateRoles users organizationId grant => exact isTold_changeRoles (updates ordered)
    | create organizationId author realmId encryptionRevision vlobId timestamp blob => exact isTold_changeVlob
    | update organizationId author encryptionRevision vlobId version timestamp blob => exact isTold_changeVlob
    | start users organizationId author realmId encryptionRevision recipients timestamp now =>
      exact isTold_startReencryption
    | finish organizationId author realmId encryptionRevision => exact isTold_finish
    | saveBatch organizationId author realmId encryptionRevision batch =>
      refine tells_of_silent ?_ (by intro event member; cases member)
      rw [serveData, announce, maintenanceSaveReencryptionBatch]
      split <;> rfl

end ReencryptionBackend

namespace MemoryServer

variable {β : Type} {server next : MemoryServer β} {label : ServerEvent β}

/-- A step takes an event from the queue if it is a dispatch. -/
def isDispatch : ServerEvent β → Bool
  | .dispatch => true
  | _ => false

theorem clients_setClient (server : MemoryServer β) (changed : ℕ) (ctx : Option AuthenticatedClientContext)
    (client : ℕ) :
    (server.setClient changed ctx).clients client = if client = changed then ctx else server.clients client :=
  Function.update_apply ..

/-- What a step takes from the queue. -/
def taken (server : MemoryServer β) : ServerEvent β → List BackendEvent
  | .dispatch => server.queue.take 1
  | _ => []

/-- What a step puts in the queue. -/
def pushed (server : MemoryServer β) : ServerEvent β → List BackendEvent
  | .request _ (.data request) => (server.backend.serveData request).events
  | .request _ (.ping organizationId author ping) => [.pinged organizationId author ping]
  | .request _ (.inviteNew users organizationId userId profile claimerEmail token now) =>
      (server.invite.apiInviteNew users organizationId userId profile claimerEmail token now).2.1
  | .request _ (.inviteDelete organizationId userId token reason now) =>
      (server.invite.apiInviteDelete organizationId userId token reason now).2.1
  | .request _ (.claimerStatus organizationId greeter token online) =>
      [.inviteStatusChanged organizationId greeter token (if online then .ready else .idle)]
  | .sendNext task => ((server.sends task).take 1).map fun send => (server.messages.send send).2
  | _ => []

/-- What may become of one connection while nothing else happens. -/
def Reconnects (server : MemoryServer β) (label : ServerEvent β) (client : ℕ) :
    Option AuthenticatedClientContext → Prop
  | none => label = .disconnect client
  | some after =>
      (server.clients client = none ∧ after.eventsSubscribed = false ∧ after.channel = []) ∨
      ∃ ctx, server.clients client = some ctx ∧
        (after = server.subscribe ctx ∨
          label = .listen client ∧ ctx.channel ≠ [] ∧ after = { ctx with channel := ctx.channel.tail })

/-- Everything that a step of the server can do. -/
theorem step?_cases (step : server.step? label = some next) :
    (∃ client after, server.taken label = [] ∧ server.pushed label = [] ∧
      next = server.setClient client after ∧ server.Reconnects label client after) ∨
    (∃ task request, label = .request task request ∧ next = server.serve task request) ∨
    (∃ task send rest, label = .sendNext task ∧ server.sends task = send :: rest ∧
      next = (server.sendMessage send).setSends task rest) ∨
    (∃ task, label = .abandon task ∧ next = server.setSends task []) ∨
    (∃ event rest, label = .dispatch ∧ server.queue = event :: rest ∧ next = server.dispatch event rest) := by
  cases label with
  | connect client organizationId deviceId =>
    simp only [step?, Option.bind_eq_bind, Option.bind_eq_some_iff, Option.guard_eq_some', exists_const,
      Option.pure_def, Option.some.injEq] at step
    obtain ⟨free, rfl⟩ := step
    exact .inl ⟨client, _, rfl, rfl, rfl, .inl ⟨Option.isNone_iff_eq_none.mp free, rfl, rfl⟩⟩
  | disconnect client =>
    cases step
    exact .inl ⟨client, none, rfl, rfl, rfl, rfl⟩
  | subscribe client =>
    obtain ⟨ctx, there, is⟩ := Option.bind_eq_some_iff.mp step
    cases is
    exact .inl ⟨client, _, rfl, rfl, rfl, .inr ⟨ctx, there, .inl rfl⟩⟩
  | listen client =>
    simp only [step?, Option.bind_eq_bind, Option.bind_eq_some_iff, Option.guard_eq_some', exists_const,
      Option.pure_def, Option.some.injEq] at step
    obtain ⟨ctx, there, filled, rfl⟩ := step
    exact .inl ⟨client, _, rfl, rfl, rfl, .inr ⟨ctx, there, .inr ⟨rfl, filled, rfl⟩⟩⟩
  | request task request =>
    simp only [step?, Option.bind_eq_bind, Option.bind_eq_some_iff, Option.guard_eq_some', exists_const,
      Option.pure_def, Option.some.injEq] at step
    obtain ⟨-, rfl⟩ := step
    exact .inr (.inl ⟨task, request, rfl, rfl⟩)
  | sendNext task =>
    rw [step?] at step
    split at step
    · cases step
    · next send rest waiting =>
      cases step
      exact .inr (.inr (.inl ⟨task, send, rest, rfl, waiting, rfl⟩))
  | abandon task =>
    cases step
    exact .inr (.inr (.inr (.inl ⟨task, rfl, rfl⟩)))
  | dispatch =>
    rw [step?] at step
    split at step
    · cases step
    · next event rest waiting =>
      cases step
      exact .inr (.inr (.inr (.inr ⟨event, rest, rfl, waiting, rfl⟩)))

/-- A request puts its events at the end of the queue and leaves the connections alone. -/
theorem serve_spec (server : MemoryServer β) (task : ℕ) (request : ServerRequest β) :
    (server.serve task request).queue = server.queue ++ server.pushed (.request task request) ∧
      (server.serve task request).clients = server.clients ∧
      (server.serve task request).messages = server.messages := by
  cases request with
  | data request => exact ⟨rfl, rfl, rfl⟩
  | ping organizationId author ping => exact ⟨rfl, rfl, rfl⟩
  | inviteNew users organizationId userId profile claimerEmail token now => exact ⟨rfl, rfl, rfl⟩
  | inviteDelete organizationId userId token reason now => exact ⟨rfl, rfl, rfl⟩
  | claimerStatus organizationId greeter token online => exact ⟨rfl, rfl, rfl⟩

/-- Events come in at one end of the queue and leave it at the other. -/
theorem queue_of_step (step : server.step? label = some next) :
    server.queue ++ server.pushed label = server.taken label ++ next.queue := by
  rcases step?_cases step with connection | ⟨task, request, rfl, rfl⟩ | sending | ⟨task, rfl, rfl⟩ | dispatching
  · obtain ⟨client, after, none, nothing, rfl, -⟩ := connection
    rw [none, nothing]
    exact List.append_nil _
  · exact (serve_spec server task request).1.symm
  · obtain ⟨task, send, rest, rfl, waiting, rfl⟩ := sending
    rw [pushed, waiting]
    rfl
  · exact List.append_nil _
  · obtain ⟨event, rest, rfl, waiting, rfl⟩ := dispatching
    rw [taken, waiting]
    exact List.append_nil _

/-- A connection that has subscribed and stays hears what is taken from the queue; only its client takes
from its channel. -/
theorem client_of_step (step : server.step? label = some next) {client : ℕ} {ctx : AuthenticatedClientContext}
    (there : server.clients client = some ctx) (subscribed : ctx.eventsSubscribed = true)
    (stays : label ≠ .disconnect client) :
    ∃ after, next.clients client = some after ∧
      (label ≠ .listen client ∧ after = (server.taken label).foldl AuthenticatedClientContext.hear ctx ∨
        label = .listen client ∧ after = { ctx with channel := ctx.channel.tail }) := by
  by_cases listens : label = .listen client
  · subst listens
    simp only [step?, there, Option.bind_eq_bind, Option.bind_some, Option.bind_eq_some_iff,
      Option.guard_eq_some', exists_const, Option.pure_def, Option.some.injEq] at step
    obtain ⟨-, rfl⟩ := step
    exact ⟨_, (clients_setClient ..).trans (if_pos rfl), .inr ⟨rfl, rfl⟩⟩
  have undisturbed (nothing : server.taken label = []) (same : next.clients client = server.clients client) :
      ∃ after, next.clients client = some after ∧
        (label ≠ .listen client ∧ after = (server.taken label).foldl AuthenticatedClientContext.hear ctx ∨
          label = .listen client ∧ after = { ctx with channel := ctx.channel.tail }) :=
    ⟨ctx, same.trans there, .inl ⟨listens, by rw [nothing]; rfl⟩⟩
  rcases step?_cases step with connection | ⟨task, request, rfl, rfl⟩ | sending | ⟨task, rfl, rfl⟩ | dispatching
  · obtain ⟨changed, after, nothing, -, rfl, how⟩ := connection
    have entry := clients_setClient server changed after client
    by_cases same : client = changed
    · subst same
      rw [if_pos rfl] at entry
      cases after with
      | none => exact absurd how stays
      | some after =>
        rcases how with ⟨free, -⟩ | ⟨other, here, renewed | ⟨is, -⟩⟩
        · cases there.symm.trans free
        · cases there.symm.trans here
          rw [subscribe, if_pos subscribed] at renewed
          exact undisturbed nothing (entry.trans (renewed ▸ there.symm))
        · exact absurd is listens
    · exact undisturbed nothing (entry.trans (if_neg same))
  · exact undisturbed rfl (congrFun (serve_spec server task request).2.1 client)
  · obtain ⟨task, send, rest, rfl, -, rfl⟩ := sending
    exact undisturbed rfl rfl
  · exact undisturbed rfl rfl
  · obtain ⟨event, rest, rfl, waiting, rfl⟩ := dispatching
    refine ⟨ctx.hear event, ?_, .inl ⟨listens, ?_⟩⟩
    · exact congrArg (Option.map fun ctx : AuthenticatedClientContext => ctx.hear event) there
    · rw [taken, waiting]
      rfl

/-- A connection that has subscribed had done so before, or has just been told the realms of its user. -/
theorem subscribed_of_step (step : server.step? label = some next) {client : ℕ}
    {after : AuthenticatedClientContext} (there : next.clients client = some after)
    (subscribed : after.eventsSubscribed = true) :
    ∃ ctx, server.clients client = some ctx ∧ label ≠ .disconnect client ∧
      (ctx.eventsSubscribed = true ∨ ctx.eventsSubscribed = false ∧ after = server.subscribe ctx ∧
        server.pushed label = [] ∧ server.taken label = [] ∧ next = server.setClient client (some after)) := by
  have stays : label ≠ .disconnect client := by
    rintro rfl
    cases step
    rw [clients_setClient, if_pos rfl] at there
    cases there
  rcases step?_cases step with connection | ⟨task, request, rfl, rfl⟩ | sending | ⟨task, rfl, rfl⟩ | dispatching
  · obtain ⟨changed, ctx, nothing, silent, rfl, how⟩ := connection
    rw [clients_setClient] at there
    by_cases same : client = changed
    · subst same
      rw [if_pos rfl] at there
      subst there
      rcases how with ⟨-, unsubscribed, -⟩ | ⟨ctx, here, renewed | ⟨-, -, rfl⟩⟩
      · cases subscribed.symm.trans unsubscribed
      · cases before : ctx.eventsSubscribed with
        | true => exact ⟨ctx, here, stays, .inl before⟩
        | false => exact ⟨ctx, here, stays, .inr ⟨before, renewed, silent, nothing, rfl⟩⟩
      · exact ⟨ctx, here, stays, .inl subscribed⟩
    · rw [if_neg same] at there
      exact ⟨after, there, stays, .inl subscribed⟩
  · rw [(serve_spec server task request).2.1] at there
    exact ⟨after, there, stays, .inl subscribed⟩
  · obtain ⟨task, send, rest, rfl, -, rfl⟩ := sending
    exact ⟨after, there, stays, .inl subscribed⟩
  · exact ⟨after, there, stays, .inl subscribed⟩
  · obtain ⟨event, rest, rfl, waiting, rfl⟩ := dispatching
    obtain ⟨ctx, here, heard⟩ := Option.map_eq_some_iff.mp there
    refine ⟨ctx, here, stays, .inl ?_⟩
    cases before : ctx.eventsSubscribed with
    | true => rfl
    | false =>
      rw [AuthenticatedClientContext.hear, before] at heard
      subst heard
      exact before.symm.trans subscribed

end MemoryServer

end Guardata
