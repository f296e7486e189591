import Guardata.Model.Invitations
import Guardata.Proofs.UserComponent

/-! # What requests do to the invitations

An accepted request for an invitation is answered with one that is alive, either the one that answered such a
request before, or a new one. A deletion is for the greeter of the invitation alone.
-/

namespace Guardata

/-- Somebody has the email and is not revoked. -/
def OrganizationStore.HasMember (users : OrganizationStore) (email : String) (now : DateTime) : Prop :=
  ∃ user ∈ users.users.values, ∃ handle ∈ user.humanHandle, handle.email = email ∧ ¬ user.isRevoked now

namespace InviteStore

variable {store next : InviteStore} {organizationId : OrganizationID} {users : OrganizationStore}
  {greeterUserId greeter : UserID} {claimerEmail : Option String} {token : UUID} {invitation : Invitation}
  {events : List BackendEvent}

/-- An invitation that is kept and not deleted. -/
def Alive (store : InviteStore) (token : UUID) (invitation : Invitation) : Prop :=
  store.invitations.get? token = some invitation ∧ store.deletedInvitations.contains token = false

/-- An invitation answers a request of a greeter for an email, or for a device of theirs. -/
def Answers (invitation : Invitation) (greeterUserId : UserID) (claimerEmail : Option String) : Prop :=
  invitation.greeterUserId = greeterUserId ∧ invitation.claimerEmail = claimerEmail

/-- Invitations are kept under their tokens. -/
def Filed (store : InviteStore) : Prop :=
  ∀ token invitation, store.invitations.get? token = some invitation → invitation.token = token

theorem getInvitation_eq_ok_iff {expectedGreeter : Option UserID} :
    store.getInvitation token expectedGreeter = .ok invitation ↔
      store.Alive token invitation ∧ ∀ greeter ∈ expectedGreeter, invitation.greeterUserId = greeter := by
  simp only [getInvitation, Except.bind_eq_ok_iff, Option.elim_eq_ok_iff, Except.require_eq_ok_iff, exists_const,
    Except.pure_eq_ok_iff, Alive, Bool.not_eq_true]
  constructor
  · rintro ⟨_, found, mine, alive, rfl⟩
    exact ⟨⟨found, alive⟩, mine⟩
  · rintro ⟨⟨found, alive⟩, mine⟩
    exact ⟨invitation, found, mine, alive, rfl⟩

theorem alive_of_matching? (filed : store.Filed)
    (found : store.matching? greeterUserId claimerEmail = some invitation) :
    store.Alive invitation.token invitation ∧ Answers invitation greeterUserId claimerEmail := by
  have fits := List.find?_some found
  obtain ⟨key, kept⟩ := Dict.mem_values_iff.mp (List.mem_of_find?_eq_some found)
  simp only [decide_eq_true_eq, Bool.not_eq_true] at fits
  obtain rfl := filed key invitation kept
  exact ⟨⟨kept, fits.2.2⟩, fits.1, fits.2.1⟩

theorem matching?_eq_none_iff (filed : store.Filed) :
    store.matching? greeterUserId claimerEmail = none ↔
      ∀ token invitation, store.Alive token invitation → ¬ Answers invitation greeterUserId claimerEmail := by
  simp only [matching?, List.find?_eq_none, Dict.mem_values_iff, decide_eq_true_eq, Bool.not_eq_true]
  constructor
  · rintro none token invitation ⟨kept, alive⟩ ⟨mine, same⟩
    refine none invitation ⟨token, kept⟩ ⟨mine, same, ?_⟩
    rwa [filed token invitation kept]
  · rintro none invitation ⟨token, kept⟩ ⟨mine, same, alive⟩
    rw [filed token invitation kept] at alive
    exact none token invitation ⟨kept, alive⟩ ⟨mine, same⟩

/-- A request that is accepted finds an invitation or makes one. -/
theorem new_eq_ok {createdOn : DateTime}
    (accepted : store.new organizationId users greeterUserId claimerEmail token createdOn =
      .ok (next, events, invitation)) :
    (store.matching? greeterUserId claimerEmail = some invitation ∧ next = store ∧ events = []) ∨
    (store.matching? greeterUserId claimerEmail = none ∧
      Answers invitation greeterUserId (claimerEmail.filter (· ≠ "")) ∧ invitation.token = token ∧
      invitation.status = .idle ∧ next = { store with invitations := store.invitations.insert token invitation } ∧
      events = [.inviteStatusChanged organizationId greeterUserId token .idle]) := by
  rw [new] at accepted
  split at accepted
  · next found =>
    cases accepted
    exact .inl ⟨found, rfl, rfl⟩
  · next nothing =>
    simp only [create, Except.bind_eq_ok_iff, Except.mapError_eq_ok_iff, Except.pure_eq_ok_iff] at accepted
    obtain ⟨made, ⟨user, -, rfl⟩, same⟩ := accepted
    cases same
    exact .inr ⟨nothing, ⟨rfl, rfl⟩, rfl, rfl, rfl, rfl⟩

theorem new_of_matching? {createdOn : DateTime}
    (found : store.matching? greeterUserId claimerEmail = some invitation) :
    store.new organizationId users greeterUserId claimerEmail token createdOn = .ok (store, [], invitation) := by
  rw [new, found]

theorem newForUser_of_hasMember {email : String} {now : DateTime} (member : users.HasMember email now) :
    store.newForUser organizationId users greeterUserId email token now = .error .alreadyMember := by
  obtain ⟨user, listed, handle, has, same, active⟩ := member
  rw [newForUser, Except.require, if_neg fun revoked => active (revoked user listed handle has same)]
  rfl

theorem newForUser_of_not_hasMember {email : String} {now : DateTime} (free : ¬ users.HasMember email now) :
    store.newForUser organizationId users greeterUserId email token now =
      store.new organizationId users greeterUserId (some email) token now := by
  have revoked : ∀ user ∈ users.users.values, ∀ handle ∈ user.humanHandle, handle.email = email →
      user.isRevoked now := fun user listed handle has same =>
    not_not.mp fun active => free ⟨user, listed, handle, has, same, active⟩
  rw [newForUser, Except.require, if_pos revoked]
  rfl

theorem delete_eq_ok_iff {on : DateTime} {reason : InvitationDeletedReason} :
    store.delete organizationId greeter token on reason = .ok (next, events) ↔
      (∃ invitation, store.Alive token invitation ∧ invitation.greeterUserId = greeter) ∧
      next = { store with deletedInvitations := store.deletedInvitations.insert token (on, reason) } ∧
      events = [.inviteStatusChanged organizationId greeter token .deleted] := by
  simp only [delete, Except.bind_eq_ok_iff, getInvitation_eq_ok_iff, Except.pure_eq_ok_iff, Prod.mk.injEq,
    Option.mem_some_iff, forall_eq', exists_and_right, eq_comm (a := next), eq_comm (a := events)]

end InviteStore

namespace MemoryInviteComponent

variable {component : MemoryInviteComponent} {users : OrganizationStore} {organizationId : OrganizationID}
  {userId : UserID} {event : BackendEvent}

theorem store_setStore (component : MemoryInviteComponent) (changed : OrganizationID) (store : InviteStore)
    (organizationId : OrganizationID) : (component.setStore changed store).store organizationId =
      if organizationId = changed then store else component.store organizationId := by
  rw [MemoryInviteComponent.store, setStore, Dict.get?_insert]
  split <;> rfl

/-- What a request for an invitation comes to: only an invitation that is made changes the stores. -/
def MakesOrFinds (component : MemoryInviteComponent) (organizationId : OrganizationID) (userId : UserID)
    (claimerEmail : Option String) (token : UUID)
    (reply : MemoryInviteComponent × List BackendEvent × InviteStatus) : Prop :=
  (reply.2.1 = [] ∧ reply.1.store = component.store ∧
    ∀ answer, reply.2.2 = .ok answer → ∃ invitation,
      (component.store organizationId).matching? userId claimerEmail = some invitation ∧
        answer = invitation.token) ∨
  ∃ invitation, (component.store organizationId).matching? userId claimerEmail = none ∧
    InviteStore.Answers invitation userId (claimerEmail.filter (· ≠ "")) ∧ invitation.token = token ∧
    invitation.status = .idle ∧
    reply = (component.setStore organizationId { component.store organizationId with
      invitations := (component.store organizationId).invitations.insert token invitation },
      [.inviteStatusChanged organizationId userId token .idle], .ok token)

theorem replyNew_found (component : MemoryInviteComponent) (organizationId : OrganizationID)
    (invitation : Invitation) :
    let reply := component.replyNew organizationId (.ok (component.store organizationId, [], invitation))
    reply.2.1 = [] ∧ reply.1.store = component.store ∧ reply.2.2 = .ok invitation.token := by
  refine ⟨rfl, funext fun other => ?_, rfl⟩
  rw [replyNew, store_setStore]
  split
  · next same => rw [same]
  · rfl

theorem makesOrFinds_replyNew {claimerEmail : Option String} {token : UUID} {now : DateTime}
    {result : Except InviteError (InviteStore × List BackendEvent × Invitation)}
    (through : ∀ done, result = .ok done →
      (component.store organizationId).new organizationId users userId claimerEmail token now = .ok done) :
    component.MakesOrFinds organizationId userId claimerEmail token
      (component.replyNew organizationId result) := by
  cases result with
  | error error =>
    refine .inl ⟨rfl, rfl, fun answer done => ?_⟩
    cases error <;> cases done
  | ok done =>
    obtain ⟨next, events, invitation⟩ := done
    rcases InviteStore.new_eq_ok (through _ rfl) with ⟨found, rfl, rfl⟩ | made
    · refine .inl ⟨rfl, (component.replyNew_found organizationId invitation).2.1, fun answer done => ?_⟩
      cases done
      exact ⟨invitation, found, rfl⟩
    · obtain ⟨nothing, answers, rfl, idle, rfl, rfl⟩ := made
      exact .inr ⟨invitation, nothing, answers, rfl, idle, rfl⟩

theorem apiInviteNew_spec (component : MemoryInviteComponent) (users : OrganizationStore)
    (organizationId : OrganizationID) (userId : UserID) (profile : UserProfile)
    (claimerEmail : Option String) (token : UUID) (now : DateTime) :
    component.MakesOrFinds organizationId userId claimerEmail token
      (component.apiInviteNew users organizationId userId profile claimerEmail token now) := by
  cases claimerEmail with
  | none => exact makesOrFinds_replyNew fun done accepted => accepted
  | some claimerEmail =>
    have through (done : InviteStore × List BackendEvent × Invitation)
        (accepted : (component.store organizationId).newForUser organizationId users userId claimerEmail token
          now = .ok done) : (component.store organizationId).new organizationId users userId
          (some claimerEmail) token now = .ok done := by
      simp only [InviteStore.newForUser, Except.bind_eq_ok_iff, Except.require_eq_ok_iff, exists_const] at accepted
      exact accepted.2
    rw [apiInviteNew]
    split
    · refine .inl ⟨rfl, rfl, fun answer done => ?_⟩
      cases done
    · exact makesOrFinds_replyNew through

/-- The status of a request for an invitation that is there already. -/
structure AnswersAgain (users : OrganizationStore) (profile : UserProfile) (claimerEmail : Option String)
    (now : DateTime) (answer : UUID) (status : InviteStatus) : Prop where
  device : claimerEmail = none → status = .ok answer
  notAllowed : ∀ email, claimerEmail = some email → profile ≠ .admin → status = .notAllowed
  alreadyMember : ∀ email, claimerEmail = some email → profile = .admin → users.HasMember email now →
    status = .alreadyMember
  user : ∀ email, claimerEmail = some email → profile = .admin → ¬ users.HasMember email now →
    status = .ok answer

theorem apiInviteNew_of_matching? {claimerEmail : Option String} {invitation : Invitation}
    (found : (component.store organizationId).matching? userId claimerEmail = some invitation)
    (users : OrganizationStore) (profile : UserProfile) (token : UUID) (now : DateTime) :
    let reply := component.apiInviteNew users organizationId userId profile claimerEmail token now
    reply.2.1 = [] ∧ reply.1.store = component.store ∧
      AnswersAgain users profile claimerEmail now invitation.token reply.2.2 := by
  cases claimerEmail with
  | none =>
    obtain ⟨silent, stores, answered⟩ := component.replyNew_found organizationId invitation
    rw [apiInviteNew, InviteStore.newForDevice, InviteStore.new_of_matching? found]
    exact ⟨silent, stores, fun _ => answered, nofun, nofun, nofun⟩
  | some email =>
    by_cases admin : profile = .admin
    · rw [apiInviteNew, if_neg (not_not.mpr admin)]
      by_cases member : users.HasMember email now
      · rw [InviteStore.newForUser_of_hasMember member]
        refine ⟨rfl, rfl, nofun, fun _ _ other => absurd admin other, fun _ _ _ _ => rfl, ?_⟩
        rintro _ ⟨⟩ _ free
        exact absurd member free
      · obtain ⟨silent, stores, answered⟩ := component.replyNew_found organizationId invitation
        rw [InviteStore.newForUser_of_not_hasMember member, InviteStore.new_of_matching? found]
        refine ⟨silent, stores, nofun, fun _ _ other => absurd admin other, ?_, fun _ _ _ _ => answered⟩
        rintro _ ⟨⟩ _ taken
        exact absurd taken member
    · rw [apiInviteNew, if_pos admin]
      exact ⟨rfl, rfl, nofun, fun _ _ _ => rfl, fun _ _ same => absurd same admin,
        fun _ _ same => absurd same admin⟩

theorem apiInviteDelete_cases (component : MemoryInviteComponent) (organizationId : OrganizationID)
    (userId : UserID) (token : UUID) (reason : InvitationDeletedReason) (now : DateTime) :
    ((component.apiInviteDelete organizationId userId token reason now).1 = component ∧
      (component.apiInviteDelete organizationId userId token reason now).2.1 = []) ∨
    (∃ invitation, (component.store organizationId).Alive token invitation ∧
      invitation.greeterUserId = userId) ∧
      component.apiInviteDelete organizationId userId token reason now =
        (component.setStore organizationId { component.store organizationId with
          deletedInvitations := (component.store organizationId).deletedInvitations.insert token (now, reason) },
          [.inviteStatusChanged organizationId userId token .deleted], .ok token) := by
  rw [apiInviteDelete]
  cases result : (component.store organizationId).delete organizationId userId token now reason with
  | error error => exact .inl ⟨rfl, rfl⟩
  | ok done =>
    obtain ⟨next, events⟩ := done
    obtain ⟨mine, rfl, rfl⟩ := InviteStore.delete_eq_ok_iff.mp result
    exact .inr ⟨mine, rfl⟩

/-- Whoever invites is told of it, and nobody else. -/
theorem mem_events_new {profile : UserProfile} {claimerEmail : Option String} {token : UUID} {now : DateTime}
    (member : event ∈ (component.apiInviteNew users organizationId userId profile claimerEmail token now).2.1) :
    ∃ token status, event = .inviteStatusChanged organizationId userId token status := by
  rcases apiInviteNew_spec component users organizationId userId profile claimerEmail token now with
    ⟨silent, -⟩ | ⟨invitation, -, -, -, -, is⟩
  · rw [silent] at member
    cases member
  · rw [is] at member
    exact ⟨token, .idle, List.mem_singleton.mp member⟩

theorem mem_events_delete {token : UUID} {reason : InvitationDeletedReason} {now : DateTime}
    (member : event ∈ (component.apiInviteDelete organizationId userId token reason now).2.1) :
    ∃ token status, event = .inviteStatusChanged organizationId userId token status := by
  rcases apiInviteDelete_cases component organizationId userId token reason now with ⟨-, silent⟩ | ⟨-, is⟩
  · rw [silent] at member
    cases member
  · rw [is] at member
    exact ⟨token, .deleted, List.mem_singleton.mp member⟩

end MemoryInviteComponent

end Guardata
