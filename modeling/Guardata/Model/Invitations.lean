import Guardata.Model.BackendEvents
import Guardata.Model.Handshake
import Guardata.Model.UserComponent

/-! # The invitations of an organization

Administrators invite users by their email, and users invite their own devices. An invitation that is asked for
again is the one that is already there. Deleted invitations stay in the store, and another table says that they
are deleted. Which claimers are connected is known from the events: the component listens to its own announcements.
The tokens are drawn by the source; here they are arguments. The conduit of an invitation is another module's
matter, and mails are left out.
-/

namespace Guardata

inductive InvitationDeletedReason where
  | finished
  | cancelled
  | rotten
deriving DecidableEq, Repr

/-- `UserInvitation`, which has an email, and `DeviceInvitation`, which has none. -/
structure Invitation where
  greeterUserId : UserID
  greeterHumanHandle : Option HumanHandle
  claimerEmail : Option String
  token : UUID
  createdOn : DateTime
  status : InvitationStatus := .idle
deriving DecidableEq, Repr

def Invitation.type (invitation : Invitation) : InvitationType :=
  if invitation.claimerEmail.isSome then .user else .device

/-- An item of the reply to `invite_list`. -/
structure InviteListItem where
  type : InvitationType
  token : UUID
  createdOn : DateTime
  claimerEmail : Option String
  status : InvitationStatus
deriving DecidableEq, Repr

def Invitation.item (invitation : Invitation) : InviteListItem :=
  ⟨invitation.type, invitation.token, invitation.createdOn, invitation.claimerEmail, invitation.status⟩

inductive InviteError where
  | notFound (token : UUID)
  | alreadyDeleted (token : UUID)
  | alreadyMember
  | user (error : UserError)
deriving DecidableEq, Repr

/-- The invitations of one organization, with the claimers that are connected. -/
structure InviteStore where
  invitations : Dict UUID Invitation := ∅
  deletedInvitations : Dict UUID (DateTime × InvitationDeletedReason) := ∅
  claimersReady : List UUID := []

namespace InviteStore

variable (store : InviteStore)

/-- `_get_invitation_and_conduit`, without the conduit. -/
def getInvitation (token : UUID) (expectedGreeter : Option UserID := none) :
    Except InviteError Invitation := do
  let invitation ← (store.invitations.get? token).elim (.error (.notFound token)) .ok
  .require (∀ greeter ∈ expectedGreeter, invitation.greeterUserId = greeter) (.notFound token)
  .require (¬ store.deletedInvitations.contains token) (.alreadyDeleted token)
  return invitation

/-- An invitation for what the user asks for. -/
def matching? (greeterUserId : UserID) (claimerEmail : Option String) : Option Invitation :=
  store.invitations.values.find? fun invitation =>
    invitation.greeterUserId = greeterUserId ∧ invitation.claimerEmail = claimerEmail ∧
      ¬ store.deletedInvitations.contains invitation.token

/-- Only an email that is not empty makes an invitation for a user. -/
def create (users : OrganizationStore) (greeterUserId : UserID) (claimerEmail : Option String)
    (token : UUID) (createdOn : DateTime) : Except InviteError Invitation := do
  let greeter ← (users.getUser greeterUserId).mapError .user
  return {
    greeterUserId
    greeterHumanHandle := greeter.humanHandle
    claimerEmail := claimerEmail.filter (· ≠ "")
    token
    createdOn }

/-- `_new`: the store afterwards, what is announced, and the invitation. -/
def new (organizationId : OrganizationID) (users : OrganizationStore) (greeterUserId : UserID)
    (claimerEmail : Option String) (token : UUID) (createdOn : DateTime) :
    Except InviteError (InviteStore × List BackendEvent × Invitation) :=
  match store.matching? greeterUserId claimerEmail with
  -- An invitation already exists for what the user has asked for
  | some invitation => .ok (store, [], invitation)
  | none => do
      let invitation ← create users greeterUserId claimerEmail token createdOn
      return ({ store with invitations := store.invitations.insert token invitation },
        [.inviteStatusChanged organizationId invitation.greeterUserId token invitation.status], invitation)

/-- Nobody is invited who has the email already. -/
def newForUser (organizationId : OrganizationID) (users : OrganizationStore) (greeterUserId : UserID)
    (claimerEmail : String) (token : UUID) (now : DateTime) :
    Except InviteError (InviteStore × List BackendEvent × Invitation) := do
  .require (∀ user ∈ users.users.values, ∀ handle ∈ user.humanHandle,
    handle.email = claimerEmail → user.isRevoked now) .alreadyMember
  store.new organizationId users greeterUserId (some claimerEmail) token now

def newForDevice (organizationId : OrganizationID) (users : OrganizationStore) (greeterUserId : UserID)
    (token : UUID) (now : DateTime) : Except InviteError (InviteStore × List BackendEvent × Invitation) :=
  store.new organizationId users greeterUserId none token now

def delete (organizationId : OrganizationID) (greeter : UserID) (token : UUID) (on : DateTime)
    (reason : InvitationDeletedReason) : Except InviteError (InviteStore × List BackendEvent) := do
  let _ ← store.getInvitation token (some greeter)
  return ({ store with deletedInvitations := store.deletedInvitations.insert token (on, reason) },
    [.inviteStatusChanged organizationId greeter token .deleted])

/-- `list`. -/
def list (greeter : UserID) : List Invitation :=
  ((store.invitations.values.filter fun invitation =>
      invitation.greeterUserId = greeter ∧ ¬ store.deletedInvitations.contains invitation.token).map
    fun invitation =>
      if invitation.token ∈ store.claimersReady then { invitation with status := .ready }
      else invitation).sortedBy (·.createdOn)

/-- `_on_status_changed`. -/
def onStatusChanged (token : UUID) (status : InvitationStatus) : InviteStore :=
  { store with claimersReady := if status = .ready then token :: store.claimersReady
      else store.claimersReady.filter (· ≠ token) }

end InviteStore

/-- The statuses of the replies to `invite_new` and `invite_delete`. -/
inductive InviteStatus where
  | ok (token : UUID)
  | notAllowed
  | alreadyMember
  | notFound
  | alreadyDeleted
  | uncaught (error : InviteError)
deriving DecidableEq, Repr

def InviteStatus.ofError : InviteError → InviteStatus
  | .notFound _ => notFound
  | .alreadyDeleted _ => alreadyDeleted
  | .alreadyMember => alreadyMember
  | error => uncaught error

structure MemoryInviteComponent where
  organizations : Dict OrganizationID InviteStore := ∅

namespace MemoryInviteComponent

variable (component : MemoryInviteComponent)

def store (organizationId : OrganizationID) : InviteStore :=
  (component.organizations.get? organizationId).getD {}

def setStore (organizationId : OrganizationID) (store : InviteStore) : MemoryInviteComponent :=
  ⟨component.organizations.insert organizationId store⟩

/-- The reply to a request for an invitation. -/
def replyNew (organizationId : OrganizationID) : Except InviteError (InviteStore × List BackendEvent × Invitation) →
    MemoryInviteComponent × List BackendEvent × InviteStatus
  | .ok (store, events, invitation) => (component.setStore organizationId store, events, .ok invitation.token)
  | .error error => (component, [], .ofError error)

/-- `api_invite_new`; an email is given for an invitation of a user. -/
def apiInviteNew (users : OrganizationStore) (organizationId : OrganizationID) (userId : UserID)
    (profile : UserProfile) (claimerEmail : Option String) (token : UUID) (now : DateTime) :
    MemoryInviteComponent × List BackendEvent × InviteStatus :=
  let store := component.store organizationId
  match claimerEmail with
  | some claimerEmail =>
      if profile ≠ .admin then (component, [], .notAllowed)
      else component.replyNew organizationId
        (store.newForUser organizationId users userId claimerEmail token now)
  | none => component.replyNew organizationId (store.newForDevice organizationId users userId token now)

/-- `api_invite_delete`. -/
def apiInviteDelete (organizationId : OrganizationID) (userId : UserID) (token : UUID)
    (reason : InvitationDeletedReason) (now : DateTime) :
    MemoryInviteComponent × List BackendEvent × InviteStatus :=
  match (component.store organizationId).delete organizationId userId token now reason with
  | .ok (store, events) => (component.setStore organizationId store, events, .ok token)
  | .error error => (component, [], .ofError error)

def apiInviteList (organizationId : OrganizationID) (userId : UserID) : List InviteListItem :=
  ((component.store organizationId).list userId).map (·.item)

/-- Every component hears of what any of them announces. -/
def onEvent : BackendEvent → MemoryInviteComponent
  | .inviteStatusChanged organizationId _ token status =>
      component.setStore organizationId ((component.store organizationId).onStatusChanged token status)
  | _ => component

end MemoryInviteComponent

end Guardata
