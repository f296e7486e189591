import Guardata.Proofs.Events

/-! # Subscribers know the realms of their user

A connection computes the realms of its user once, when it subscribes, and from then on follows the events. It
may lag behind, by what is left in the queue, but never otherwise: what it keeps, once it has heard that, is what
a new subscription would compute. So a connection has, when an event gets its turn, the realms that its user had
when the event was announced, and an event of a realm is told to exactly those who had a role in it then. All this
as long as the grants about a user come in the order of their dates: an update of a role that is dated before an
earlier grant is announced although the earlier grant goes on to count.
-/

namespace Guardata

open Machine

namespace MemoryServer

variable {β : Type} {server next : MemoryServer β} {label : ServerEvent β}

/-- The request on realms, vlobs or messages that is served in a step. -/
def dataRequest? : ServerEvent β → Option (DataRequest β)
  | .request _ (.data request) => some request
  | _ => none

/-- No accepted update of a role is dated before a recorded grant about the same user. -/
def InOrder (server : MemoryServer β) (label : ServerEvent β) (_ : MemoryServer β) : Prop :=
  ∀ request ∈ dataRequest? label, server.backend.GrantsInOrder request

instance (server : MemoryServer β) (label : ServerEvent β) (next : MemoryServer β) :
    Decidable (server.InOrder label next) :=
  inferInstanceAs (Decidable (∀ request ∈ dataRequest? label, server.backend.GrantsInOrder request))

/-- A step tells what it has done to the roles. -/
theorem tells_of_step (step : server.step? label = some next) (ordered : server.InOrder label next) :
    server.backend.realms.Tells next.backend.realms (server.pushed label) := by
  rcases step?_cases step with connection | ⟨task, request, rfl, rfl⟩ | sending | ⟨task, rfl, rfl⟩ | dispatching
  · obtain ⟨client, after, -, silent, rfl, -⟩ := connection
    rw [silent]
    exact tells_of_silent rfl (by intro event member; cases member)
  · have quiet {events : List BackendEvent}
        (statuses : ∀ event ∈ events, ∃ organizationId greeter token status,
          event = .inviteStatusChanged organizationId greeter token status) :
        server.backend.realms.Tells server.backend.realms events := by
      refine tells_of_silent rfl fun event member => ?_
      obtain ⟨_, _, _, _, rfl⟩ := statuses event member
      intros
      rfl
    cases request with
    | data request => exact ReencryptionBackend.isTold_serveData (ordered request rfl)
    | ping organizationId author ping =>
      refine tells_of_silent rfl fun event member => ?_
      obtain rfl := List.mem_singleton.mp member
      intros
      rfl
    | inviteNew users organizationId userId profile claimerEmail token now =>
      exact quiet fun event member => ⟨_, _, MemoryInviteComponent.mem_events_new member⟩
    | inviteDelete organizationId userId token reason now =>
      exact quiet fun event member => ⟨_, _, MemoryInviteComponent.mem_events_delete member⟩
    | claimerStatus organizationId greeter token online =>
      exact quiet fun event member => ⟨_, _, _, _, List.mem_singleton.mp member⟩
  · obtain ⟨task, send, rest, rfl, waiting, rfl⟩ := sending
    refine tells_of_silent rfl fun event member => ?_
    rw [pushed, waiting] at member
    obtain rfl := List.mem_singleton.mp member
    intros
    rfl
  · exact tells_of_silent rfl (by intro event member; cases member)
  · obtain ⟨event, rest, rfl, -, rfl⟩ := dispatching
    exact tells_of_silent rfl (by intro event member; cases member)

/-- What a connection has been told of the realms of its user, with what it still has to hear. -/
def realmFeed (server : MemoryServer β) (ctx : AuthenticatedClientContext) : Feed BackendEvent (Finset UUID) :=
  ⟨server.queue, ctx.realms⟩

/-- The announcements left in the queue agree with the roles, and a subscriber that has heard them knows the
realms of its user. -/
structure Mirrors (server : MemoryServer β) : Prop where
  queued : ∀ organizationId realmId userId role,
    announced? organizationId realmId userId server.queue = some role →
    server.backend.realms.roleIn organizationId realmId userId = role
  known : ∀ client ctx, server.clients client = some ctx → ctx.eventsSubscribed = true → ∀ realmId,
    realmId ∈ (server.realmFeed ctx).pending (followRoles ctx.organizationId ctx.userId) ↔
      (server.backend.realms.roleIn ctx.organizationId realmId ctx.userId).isSome

theorem mirrors_empty : ({} : MemoryServer β).Mirrors := by
  constructor
  · intro organizationId realmId userId role none
    cases none
  · intro client ctx none
    cases none

/-- What the connection of a client makes of a step, apart from its channel. -/
theorem moves_of_step (step : server.step? label = some next) {client : ℕ} {ctx : AuthenticatedClientContext}
    (there : server.clients client = some ctx) (subscribed : ctx.eventsSubscribed = true)
    (stays : label ≠ .disconnect client) :
    ∃ after, next.clients client = some after ∧ after.organizationId = ctx.organizationId ∧
      after.deviceId = ctx.deviceId ∧ after.eventsSubscribed = true ∧
      Feed.Moves (followRoles ctx.organizationId ctx.userId) (server.realmFeed ctx) (next.realmFeed after)
        (server.taken label) (server.pushed label) := by
  obtain ⟨after, here, how⟩ := client_of_step step there subscribed stays
  have queue := queue_of_step step
  rcases how with ⟨-, heard⟩ | ⟨rfl, rfl⟩
  · obtain ⟨channel, is⟩ := AuthenticatedClientContext.foldl_hear_spec subscribed (server.taken label)
    obtain rfl := heard.trans is
    exact ⟨_, here, rfl, rfl, subscribed, queue, rfl⟩
  · exact ⟨_, here, rfl, rfl, subscribed, queue, rfl⟩

/-- Whoever asks for the realms of a user has heard some of the announcements left in the queue already. -/
theorem Mirrors.asked (mirrors : server.Mirrors) (organizationId : OrganizationID) (realmId : UUID)
    (userId : UserID) :
    realmId ∈ server.queue.foldl (followRoles organizationId userId)
        (server.backend.realms.getRealmsForUser organizationId userId).keys.toFinset ↔
      (server.backend.realms.roleIn organizationId realmId userId).isSome := by
  rw [mem_foldl_followRoles_iff]
  cases told : announced? organizationId realmId userId server.queue with
  | some role => rw [mirrors.queued _ _ _ _ told]
  | none => exact mem_getRealmsForUser_iff

theorem Mirrors.step (mirrors : server.Mirrors) (step : server.step? label = some next)
    (ordered : server.InOrder label next) : next.Mirrors := by
  have tells := tells_of_step step ordered
  have queue := queue_of_step step
  constructor
  · intro organizationId realmId userId role announced
    have all : announced? organizationId realmId userId (server.queue ++ server.pushed label) = some role := by
      rw [queue, announced?_append, announced, Option.some_or]
    rw [announced?_append] at all
    rw [tells]
    cases new : announced? organizationId realmId userId (server.pushed label) with
    | some role' =>
      rw [new, Option.some_or] at all
      exact Option.some_inj.mp all
    | none =>
      rw [new, Option.none_or] at all
      exact mirrors.queued _ _ _ _ all
  · intro client after there subscribed realmId
    obtain ⟨ctx, here, stays, before | fresh⟩ := subscribed_of_step step there subscribed
    · obtain ⟨_, same, organization, device, -, moves⟩ := moves_of_step step here before stays
      cases there.symm.trans same
      have user : after.userId = ctx.userId := congrArg DeviceID.userId device
      rw [organization, user, moves.pending_eq, mem_foldl_followRoles_iff, tells]
      cases announced? ctx.organizationId realmId ctx.userId (server.pushed label) with
      | some role => exact Iff.rfl
      | none => exact mirrors.known client ctx here before realmId
    · obtain ⟨unsubscribed, rfl, -, -, rfl⟩ := fresh
      have knows : server.subscribe ctx = { ctx with
          realms := (server.backend.realms.getRealmsForUser ctx.organizationId ctx.userId).keys.toFinset
          eventsSubscribed := true } := by rw [subscribe, if_neg (by simp [unsubscribed])]
      rw [knows]
      exact mirrors.asked ctx.organizationId realmId ctx.userId

/-- Whatever a connection has yet to hear, it is going to know the realms of its user as they are now. -/
theorem realms_follow_roles {labels : List (ServerEvent β)} {reached : MemoryServer β}
    (ordered : Along step? InOrder {} labels) (run : run? step? {} labels = some reached)
    {client : ℕ} {ctx : AuthenticatedClientContext} (there : reached.clients client = some ctx)
    (subscribed : ctx.eventsSubscribed = true) :
    (reached.queue.foldl AuthenticatedClientContext.hear ctx).realms =
      (reached.backend.realms.getRealmsForUser ctx.organizationId ctx.userId).keys.toFinset := by
  have mirrors : reached.Mirrors :=
    run?_invariant (fun _ _ _ step ordered mirrors => Mirrors.step mirrors step ordered) ordered run
      mirrors_empty
  obtain ⟨channel, heard⟩ := AuthenticatedClientContext.foldl_hear_spec subscribed reached.queue
  rw [heard]
  ext realmId
  rw [mem_getRealmsForUser_iff]
  exact mirrors.known client ctx there subscribed realmId

theorem length_taken (step : server.step? label = some next) :
    (server.taken label).length = if isDispatch label then 1 else 0 := by
  cases label with
  | dispatch =>
    rw [step?] at step
    split at step
    · cases step
    · next event rest waiting =>
      rw [taken, waiting]
      rfl
  | _ => rfl

theorem moves_of_run {labels : List (ServerEvent β)} (run : run? step? server labels = some next) {client : ℕ}
    {ctx : AuthenticatedClientContext} (there : server.clients client = some ctx)
    (subscribed : ctx.eventsSubscribed = true) (stays : ∀ label ∈ labels, label ≠ .disconnect client) :
    ∃ after taken pushed, next.clients client = some after ∧ after.organizationId = ctx.organizationId ∧
      after.deviceId = ctx.deviceId ∧ after.eventsSubscribed = true ∧
      Feed.Moves (followRoles ctx.organizationId ctx.userId) (server.realmFeed ctx) (next.realmFeed after)
        taken pushed ∧ taken.length = labels.countP isDispatch := by
  induction labels generalizing server ctx with
  | nil =>
    cases run
    exact ⟨ctx, [], [], there, rfl, rfl, subscribed, .refl _, rfl⟩
  | cons label rest ih =>
    obtain ⟨middle, step, suffix⟩ := Option.bind_eq_some_iff.mp run
    obtain ⟨between, here, organization, device, still, first⟩ :=
      moves_of_step step there subscribed (stays label List.mem_cons_self)
    obtain ⟨after, taken, pushed, last, organization', device', ends, second, length⟩ :=
      ih suffix here still fun other member => stays other (List.mem_cons_of_mem _ member)
    have user : between.userId = ctx.userId := congrArg DeviceID.userId device
    rw [organization, user] at second
    refine ⟨after, _, _, last, organization'.trans organization, device'.trans device, ends,
      first.trans second, ?_⟩
    rw [List.length_append, length, length_taken step, List.countP_cons, Nat.add_comm]

/-- If the grants have come in the order of their dates until then, an event of a realm is told to a subscriber, when
its turn comes, exactly if the user had a role in the realm when the event was announced, unless the device has
caused it. -/
theorem told_iff_role {earlier later : List (ServerEvent β)} {before after : MemoryServer β}
    (ordered : Along step? InOrder {} earlier) (reached : run? step? {} earlier = some before)
    {client : ℕ} {ctx : AuthenticatedClientContext} (there : before.clients client = some ctx)
    (subscribed : ctx.eventsSubscribed = true) {event : BackendEvent}
    (announces : before.pushed label = [event])
    {organizationId : OrganizationID} {author : DeviceID} {realmId : UUID} {told : APIEvent}
    (realm : event.realmEvent? = some (organizationId, author, realmId, told))
    (run : run? step? before (label :: later) = some after)
    (stays : ∀ label ∈ later, label ≠ .disconnect client)
    (turn : later.countP isDispatch = before.queue.length) :
    ∃ heard dispatched, after.clients client = some heard ∧ after.step? .dispatch = some dispatched ∧
      dispatched.clients client = some
        (if organizationId = ctx.organizationId ∧ author ≠ ctx.deviceId ∧
            (before.backend.realms.roleIn organizationId realmId ctx.userId).isSome then heard.sendNowait told
          else heard) := by
  have mirrors : before.Mirrors :=
    run?_invariant (fun _ _ _ step ordered mirrors => Mirrors.step mirrors step ordered) ordered reached
      mirrors_empty
  obtain ⟨middle, step, suffix⟩ := Option.bind_eq_some_iff.mp run
  have remains : label ≠ .disconnect client := by
    rintro rfl
    cases announces
  have takes : before.taken label = [] := by
    cases label with
    | dispatch => cases announces
    | _ => rfl
  obtain ⟨between, here, organization, device, still, first⟩ := moves_of_step step there subscribed remains
  obtain ⟨heard, taken, pushed, last, organization', device', ends, second, length⟩ :=
    moves_of_run suffix here still stays
  have user : between.userId = ctx.userId := congrArg DeviceID.userId device
  rw [organization, user] at second
  have whole := first.trans second
  rw [takes, announces, List.nil_append] at whole
  obtain ⟨knows, queue⟩ := whole.copy_of_length (length.trans turn)
  refine ⟨heard, after.dispatch event pushed, last, ?_, ?_⟩
  · rw [step?, show after.queue = event :: pushed from queue]
  · have hears : (after.dispatch event pushed).clients client = some (heard.hear event) :=
      congrArg (Option.map fun ctx : AuthenticatedClientContext => ctx.hear event) last
    have member : realmId ∈ heard.realms ↔
        (before.backend.realms.roleIn ctx.organizationId realmId ctx.userId).isSome := by
      rw [← mirrors.known client ctx there subscribed realmId, ← knows]
      rfl
    rw [hears, AuthenticatedClientContext.hear_realmEvent ends realm, AuthenticatedClientContext.onRealmEvents,
      organization', organization, device', device]
    congr 1
    by_cases concerned : organizationId = ctx.organizationId ∧ author ≠ ctx.deviceId ∧
        (before.backend.realms.roleIn organizationId realmId ctx.userId).isSome
    · obtain ⟨rfl, other, role⟩ := concerned
      refine (if_neg ?_).trans (if_pos ⟨rfl, other, role⟩).symm
      rintro (elsewhere | own | unknown)
      · exact elsewhere rfl
      · exact other own
      · exact unknown (member.mpr role)
    · refine (if_pos ?_).trans (if_neg concerned).symm
      by_contra concerns
      obtain ⟨same, other, listed⟩ : organizationId = ctx.organizationId ∧ author ≠ ctx.deviceId ∧
          realmId ∈ heard.realms := by simpa only [not_or, not_not] using concerns
      subst same
      exact concerned ⟨rfl, other, member.mp listed⟩

section Example

private def grantedBy (granter user : String) (role : RealmRole) (date : DateTime) : RealmGrantedRole where
  certificate := ⟨⟨0⟩, some ⟨⟨granter, "dev"⟩, date, 1, user, some role⟩⟩
  realmId := 1
  userId := user
  role := some role
  grantedBy := ⟨granter, "dev"⟩
  grantedOn := date

/-- Bob subscribes, and is then let into the realm of Alice. -/
private def letIn : List (ServerEvent String) :=
  [.request 0 (.data (.vlob (.realmCreate "org" (grantedBy "alice" "alice" .owner 1)))), .connect 0 "org" ⟨"bob", "pc"⟩,
    .dispatch, .subscribe 0,
    .request 0 (.data (.vlob (.updateRoles (fun _ _ => some ⟨.standard, none⟩) "org"
      (grantedBy "alice" "bob" .reader 2))))]

private theorem letIn_inOrder : Along step? InOrder {} letIn := by decide

theorem realms_follow_roles_pending : ∃ (reached : MemoryServer String) (ctx : AuthenticatedClientContext),
    run? step? {} letIn = some reached ∧ reached.clients 0 = some ctx ∧ ctx.realms = ∅ ∧
    (reached.queue.foldl AuthenticatedClientContext.hear ctx).realms =
      (reached.backend.realms.getRealmsForUser ctx.organizationId ctx.userId).keys.toFinset :=
  ⟨_, _, rfl, rfl, rfl,
    realms_follow_roles letIn_inOrder rfl (by rfl : MemoryServer.clients _ 0 = some _) rfl⟩

/-- Bob is told what Alice writes, although he has yet to hear that he may read it when she does. -/
theorem told_iff_role_pending :
    ∃ (before after dispatched : MemoryServer String) (ctx heard : AuthenticatedClientContext),
    run? step? {} letIn = some before ∧ before.clients 0 = some ctx ∧ ctx.realms = ∅ ∧
    run? step? before [.request 0 (.data (.vlob (.create "org" ⟨"alice", "dev"⟩ 1 1 7 3 "blob"))), .dispatch] =
      some after ∧
    after.clients 0 = some heard ∧ after.step? .dispatch = some dispatched ∧
    dispatched.clients 0 = some (heard.sendNowait (.realmVlobsUpdated 1 1 7 1)) := by
  obtain ⟨heard, dispatched, is, next, told⟩ := told_iff_role letIn_inOrder rfl
    (by rfl : MemoryServer.clients _ 0 = some _) rfl
    (by rfl : pushed _ (.request 0 (.data (.vlob (.create "org" ⟨"alice", "dev"⟩ 1 1 7 3 "blob")))) = [_]) rfl
    (by rfl : run? _ _ [_, .dispatch] = some _) (by simp) rfl
  exact ⟨_, _, dispatched, _, heard, rfl, rfl, rfl, rfl, is, next, told⟩

end Example

end MemoryServer

end Guardata
