import Guardata.Proofs.Events

/-! # One invitation for each request

Whoever asks for an invitation again gets the one that is there, until it is deleted: no two invitations that are
alive answer the same request. The list of a greeter shows the invitations that are alive, each of them once, and
those as ready whose last change of status that was announced says so.
-/

namespace Guardata

open Machine

namespace InviteStore

variable {store : InviteStore} {claimerEmail : Option String} {userId : UserID} {token : UUID}
  {invitation : Invitation}

/-- No two invitations that are alive answer the same request. -/
def OneEach (store : InviteStore) (claimerEmail : Option String) : Prop :=
  ∀ userId token₁ invitation₁ token₂ invitation₂, store.Alive token₁ invitation₁ →
    store.Alive token₂ invitation₂ → Answers invitation₁ userId claimerEmail →
    Answers invitation₂ userId claimerEmail → token₁ = token₂

/-- The invitations are as they were made. -/
structure WellKept (store : InviteStore) : Prop where
  filed : store.Filed
  idle : ∀ token invitation, store.invitations.get? token = some invitation → invitation.status = .idle

/-- The store with one more invitation. -/
def withInvitation (store : InviteStore) (token : UUID) (invitation : Invitation) : InviteStore :=
  { store with invitations := store.invitations.insert token invitation }

/-- The store without an invitation. -/
def withoutInvitation (store : InviteStore) (token : UUID) (on : DateTime)
    (reason : InvitationDeletedReason) : InviteStore :=
  { store with deletedInvitations := store.deletedInvitations.insert token (on, reason) }

theorem alive_of_withInvitation {other : UUID} {made : Invitation}
    (alive : (store.withInvitation token made).Alive other invitation) :
    other = token ∧ invitation = made ∨ other ≠ token ∧ store.Alive other invitation := by
  obtain ⟨found, kept⟩ := alive
  rw [withInvitation, Dict.get?_insert] at found
  split at found
  · next same => exact .inl ⟨same, (Option.some_inj.mp found).symm⟩
  · next elsewhere => exact .inr ⟨elsewhere, found, kept⟩

theorem WellKept.withInvitation (kept : store.WellKept) (file : invitation.token = token)
    (idle : invitation.status = .idle) : (store.withInvitation token invitation).WellKept := by
  constructor
  · intro other made found
    rw [InviteStore.withInvitation, Dict.get?_insert] at found
    split at found
    · next same =>
      cases found
      exact file.trans same.symm
    · exact kept.filed other made found
  · intro other made found
    rw [InviteStore.withInvitation, Dict.get?_insert] at found
    split at found
    · cases found
      exact idle
    · exact kept.idle other made found

theorem filter_of_given (given : claimerEmail ≠ some "") : claimerEmail.filter (· ≠ "") = claimerEmail := by
  cases claimerEmail with
  | none => rfl
  | some text => simp [show text ≠ "" from fun blank => given (congrArg some blank)]

/-- An invitation that is made answers no request that another one answers. -/
theorem OneEach.withInvitation (one : store.OneEach claimerEmail) {asked : Option String} (filed : store.Filed)
    (nothing : store.matching? userId asked = none) (answers : Answers invitation userId (asked.filter (· ≠ "")))
    (given : claimerEmail = none → asked ≠ some "") :
    (store.withInvitation token invitation).OneEach claimerEmail := by
  have alone {user : UserID} {other : UUID} {old : Invitation} (mine : Answers invitation user claimerEmail)
      (alive : store.Alive other old) (same : Answers old user claimerEmail) : False := by
    obtain rfl : user = userId := mine.1.symm.trans answers.1
    have email : claimerEmail = asked.filter (· ≠ "") := mine.2.symm.trans answers.2
    refine (matching?_eq_none_iff filed).mp nothing other old alive ⟨same.1, same.2.trans ?_⟩
    by_cases blank : asked = some ""
    · exact absurd blank (given (by rw [email, blank]; rfl))
    · rw [email, filter_of_given blank]
  intro user first made second other alive alive' mine same
  rcases alive_of_withInvitation alive with ⟨rfl, rfl⟩ | ⟨-, old⟩
  · rcases alive_of_withInvitation alive' with ⟨rfl, -⟩ | ⟨-, old'⟩
    · rfl
    · exact (alone mine old' same).elim
  · rcases alive_of_withInvitation alive' with ⟨rfl, rfl⟩ | ⟨-, old'⟩
    · exact (alone same old mine).elim
    · exact one user first made second other old old' mine same

theorem alive_of_withoutInvitation {other : UUID} {on : DateTime} {reason : InvitationDeletedReason}
    (alive : (store.withoutInvitation token on reason).Alive other invitation) :
    store.Alive other invitation := by
  refine ⟨alive.1, Bool.eq_false_iff.mpr fun deleted => ?_⟩
  have still : (store.withoutInvitation token on reason).deletedInvitations.contains other = true :=
    Dict.contains_insert_iff.mpr (.inr deleted)
  exact Bool.false_ne_true (alive.2.symm.trans still)

theorem OneEach.withoutInvitation (one : store.OneEach claimerEmail) {on : DateTime}
    {reason : InvitationDeletedReason} : (store.withoutInvitation token on reason).OneEach claimerEmail :=
  fun userId _ _ _ _ first second => one userId _ _ _ _ (alive_of_withoutInvitation first)
    (alive_of_withoutInvitation second)

/-- How an invitation is listed. -/
def shown (store : InviteStore) (invitation : Invitation) : Invitation :=
  if invitation.token ∈ store.claimersReady then { invitation with status := .ready } else invitation

theorem token_shown (store : InviteStore) (invitation : Invitation) :
    (store.shown invitation).token = invitation.token := by
  rw [shown]
  split <;> rfl

theorem mem_list_iff (kept : store.WellKept) :
    invitation ∈ store.list userId ↔ ∃ listed, store.Alive listed.token listed ∧
      listed.greeterUserId = userId ∧ invitation = store.shown listed := by
  rw [list, List.mem_sortedBy]
  simp only [List.mem_map, List.mem_filter, Dict.mem_values_iff, decide_eq_true_eq, Bool.not_eq_true]
  constructor
  · rintro ⟨listed, ⟨⟨token, found⟩, mine, alive⟩, rfl⟩
    obtain rfl := kept.filed token listed found
    exact ⟨listed, ⟨found, alive⟩, mine, rfl⟩
  · rintro ⟨listed, ⟨found, alive⟩, mine, rfl⟩
    exact ⟨listed, ⟨⟨_, found⟩, mine, alive⟩, rfl⟩

theorem nodup_list (kept : store.WellKept) : ((store.list userId).map (·.token)).Nodup := by
  have filed : store.invitations.values.map (·.token) = store.invitations.keys := by
    rw [Dict.values, Dict.keys, List.map_map]
    refine List.map_congr_left fun entry member => ?_
    exact kept.filed entry.1 entry.2 (Dict.get?_eq_some_iff.mpr member)
  have distinct : (store.invitations.values.map (·.token)).Nodup := filed ▸ store.invitations.nodup_keys
  have tokens : (fun invitation : Invitation => invitation.token) ∘ store.shown = (·.token) :=
    funext (token_shown store)
  rw [list]
  refine ((List.perm_insertionSort _ _).map _).nodup_iff.mpr ?_
  change ((List.map store.shown _).map _).Nodup
  rw [List.map_map, tokens]
  exact (List.filter_sublist.map _).nodup distinct

end InviteStore

/-- What an event makes of the claimers of an organization that are connected. -/
def followStatus (organizationId : OrganizationID) (ready : List UUID) : BackendEvent → List UUID
  | .inviteStatusChanged organizationId' _ token status =>
      if organizationId' = organizationId then
        if status = .ready then token :: ready else ready.filter (· ≠ token)
      else ready
  | _ => ready

theorem MemoryInviteComponent.store_onEvent (component : MemoryInviteComponent) (event : BackendEvent)
    (organizationId : OrganizationID) :
    (component.onEvent event).store organizationId = { component.store organizationId with
      claimersReady := followStatus organizationId (component.store organizationId).claimersReady event } := by
  cases event with
  | inviteStatusChanged organization greeter token status =>
    rw [onEvent, store_setStore, followStatus]
    split
    · next same =>
      subst same
      rw [if_pos rfl]
      rfl
    · next other => rw [if_neg (Ne.symm other)]
  | _ => rfl

/-- The last status of an invitation that events tell of. -/
def lastStatus? (organizationId : OrganizationID) (token : UUID) : List BackendEvent → Option InvitationStatus
  | [] => none
  | .inviteStatusChanged organizationId' _ token' status :: rest =>
      (lastStatus? organizationId token rest).or
        (if organizationId' = organizationId ∧ token' = token then some status else none)
  | _ :: rest => lastStatus? organizationId token rest

theorem mem_foldl_followStatus_iff {organizationId : OrganizationID} {token : UUID} {ready : List UUID}
    {events : List BackendEvent} :
    token ∈ events.foldl (followStatus organizationId) ready ↔
      match lastStatus? organizationId token events with
      | some status => status = .ready
      | none => token ∈ ready := by
  induction events generalizing ready with
  | nil => exact Iff.rfl
  | cons event rest ih =>
    rw [List.foldl_cons, ih]
    cases event with
    | inviteStatusChanged organizationId' greeter token' status =>
      rw [lastStatus?]
      cases lastStatus? organizationId token rest with
      | some later => exact Iff.rfl
      | none =>
        rw [Option.none_or, followStatus]
        by_cases here : organizationId' = organizationId
        · by_cases about : token' = token
          · by_cases joined : status = .ready
            · simp [here, about, joined]
            · simp [here, about, joined]
          · by_cases joined : status = .ready
            · simp [here, about, joined, Ne.symm about]
            · simp [here, about, joined, Ne.symm about]
        · simp [here]
    | _ => exact Iff.rfl

namespace MemoryServer

variable {β : Type} {server next : MemoryServer β} {label : ServerEvent β}

/-- An invitation was made in a step. -/
def Invites (server : MemoryServer β) (label : ServerEvent β) (organizationId : OrganizationID)
    (token : UUID) (invitation : Invitation) : Prop :=
  ∃ task users userId profile claimerEmail now,
    label = .request task (.inviteNew users organizationId userId profile claimerEmail token now) ∧
    (server.invite.store organizationId).matching? userId claimerEmail = none ∧
    InviteStore.Answers invitation userId (claimerEmail.filter (· ≠ "")) ∧ invitation.token = token ∧
    invitation.status = .idle

/-- The store of an organization keeps its invitations, or has one more, or one less. -/
theorem invite_of_step (step : server.step? label = some next) (organizationId : OrganizationID) :
    (next.invite.store organizationId = { server.invite.store organizationId with
      claimersReady := (server.taken label).foldl (followStatus organizationId)
        (server.invite.store organizationId).claimersReady }) ∨
    (∃ token invitation, server.Invites label organizationId token invitation ∧ server.taken label = [] ∧
      next.invite.store organizationId =
        (server.invite.store organizationId).withInvitation token invitation) ∨
    (∃ token on reason, server.taken label = [] ∧
      next.invite.store organizationId =
        (server.invite.store organizationId).withoutInvitation token on reason) := by
  have same (nothing : server.taken label = [])
      (kept : next.invite.store organizationId = server.invite.store organizationId) :
      next.invite.store organizationId = { server.invite.store organizationId with
        claimersReady := (server.taken label).foldl (followStatus organizationId)
          (server.invite.store organizationId).claimersReady } := by rw [nothing, kept]; rfl
  rcases step?_cases step with connection | ⟨task, request, rfl, rfl⟩ | sending | ⟨task, rfl, rfl⟩ | dispatching
  · obtain ⟨client, after, nothing, -, rfl, -⟩ := connection
    exact .inl (same nothing rfl)
  · cases request with
    | data request => exact .inl (same rfl rfl)
    | ping => exact .inl (same rfl rfl)
    | claimerStatus => exact .inl (same rfl rfl)
    | inviteNew users organization userId profile claimerEmail token now =>
      have invites : (server.serve task (.inviteNew users organization userId profile claimerEmail token
          now)).invite = (server.invite.apiInviteNew users organization userId profile claimerEmail token now).1 := rfl
      rcases MemoryInviteComponent.apiInviteNew_spec server.invite users organization userId profile
        claimerEmail token now with ⟨-, stores, -⟩ | ⟨invitation, nothing, answers, file, idle, is⟩
      · exact .inl (same rfl (by rw [invites, stores]))
      · have entry := MemoryInviteComponent.store_setStore server.invite organization
          ((server.invite.store organization).withInvitation token invitation) organizationId
        rw [invites, is]
        by_cases here : organizationId = organization
        · subst here
          rw [if_pos rfl] at entry
          exact .inr (.inl ⟨token, invitation, ⟨task, users, userId, profile, claimerEmail, now, rfl, nothing,
            answers, file, idle⟩, rfl, entry⟩)
        · rw [if_neg here] at entry
          exact .inl entry
    | inviteDelete organization userId token reason now =>
      have invites : (server.serve task (.inviteDelete organization userId token reason now)).invite =
        (server.invite.apiInviteDelete organization userId token reason now).1 := rfl
      rcases MemoryInviteComponent.apiInviteDelete_cases server.invite organization userId token reason now with
        ⟨kept, -⟩ | ⟨-, is⟩
      · exact .inl (same rfl (by rw [invites, kept]))
      · have entry := MemoryInviteComponent.store_setStore server.invite organization
          ((server.invite.store organization).withoutInvitation token now reason) organizationId
        rw [invites, is]
        by_cases here : organizationId = organization
        · subst here
          rw [if_pos rfl] at entry
          exact .inr (.inr ⟨token, now, reason, rfl, entry⟩)
        · rw [if_neg here] at entry
          exact .inl entry
  · obtain ⟨task, send, rest, rfl, -, rfl⟩ := sending
    exact .inl (same rfl rfl)
  · exact .inl (same rfl rfl)
  · obtain ⟨event, rest, rfl, waiting, rfl⟩ := dispatching
    left
    rw [taken, waiting]
    exact MemoryInviteComponent.store_onEvent ..

/-- No invitation is asked for with an empty email, which would be one for a device. -/
def NoEmptyEmail : ServerEvent β → Prop
  | .request _ (.inviteNew _ _ _ _ claimerEmail _ _) => claimerEmail ≠ some ""
  | _ => True

/-- The token that is drawn for a request. -/
def draws? : ServerEvent β → Option UUID
  | .request _ (.inviteNew _ _ _ _ _ token _) => some token
  | _ => none

/-- In every organization the invitations are well kept, and no two answer the same request for an email. -/
def OneEach (claimerEmail : Option String) (server : MemoryServer β) : Prop :=
  ∀ organizationId, (server.invite.store organizationId).WellKept ∧
    (server.invite.store organizationId).OneEach claimerEmail

theorem oneEach_empty (claimerEmail : Option String) : ({} : MemoryServer β).OneEach claimerEmail := by
  intro organizationId
  refine ⟨⟨?_, ?_⟩, ?_⟩
  · intro token invitation none
    cases none
  · intro token invitation none
    cases none
  · rintro userId token invitation _ _ ⟨none, -⟩
    cases none

theorem OneEach.step {claimerEmail : Option String} (one : server.OneEach claimerEmail)
    (step : server.step? label = some next) (given : claimerEmail = none → NoEmptyEmail label) :
    next.OneEach claimerEmail := by
  intro organizationId
  obtain ⟨kept, each⟩ := one organizationId
  rcases invite_of_step step organizationId with same | ⟨token, invitation, made, -, is⟩ | ⟨token, on, reason, -, is⟩
  · rw [same]
    exact ⟨⟨kept.filed, kept.idle⟩, each⟩
  · obtain ⟨task, users, userId, profile, asked, now, rfl, nothing, answers, file, idle⟩ := made
    rw [is]
    exact ⟨kept.withInvitation file idle, each.withInvitation kept.filed nothing answers given⟩
  · rw [is]
    exact ⟨⟨kept.filed, kept.idle⟩, each.withoutInvitation⟩

/-- No two invitations that are alive answer the same request. -/
theorem one_live_invitation {labels : List (ServerEvent β)} {reached : MemoryServer β}
    (run : run? step? {} labels = some reached) {organizationId : OrganizationID} {userId : UserID}
    {claimerEmail : Option String} (given : claimerEmail = none → ∀ label ∈ labels, NoEmptyEmail label)
    {token₁ token₂ : UUID} {invitation₁ invitation₂ : Invitation}
    (alive₁ : (reached.invite.store organizationId).Alive token₁ invitation₁)
    (alive₂ : (reached.invite.store organizationId).Alive token₂ invitation₂)
    (answers₁ : InviteStore.Answers invitation₁ userId claimerEmail)
    (answers₂ : InviteStore.Answers invitation₂ userId claimerEmail) : token₁ = token₂ := by
  have one : reached.OneEach claimerEmail :=
    run?_invariant (fun _ _ _ step given one => OneEach.step one step given)
      (along_of_forall_mem fun label member devices => given devices label member) run (oneEach_empty _)
  exact (one organizationId).2 _ _ _ _ _ alive₁ alive₂ answers₁ answers₂

/-- An invitation is asked for again, whatever happened since: the answer is the one of the first time, if it has not
been deleted. Only those who may not invite are refused, and emails that an active user has by now. -/
theorem asked_again {earlier later : List (ServerEvent β)} {before after : MemoryServer β} {task : ℕ}
    {users : OrganizationStore} {organizationId : OrganizationID} {userId : UserID} {profile : UserProfile}
    {claimerEmail : Option String} {token answer : UUID} {now : DateTime}
    (reached : run? step? {} earlier = some before)
    (answered : (before.invite.apiInviteNew users organizationId userId profile claimerEmail token now).2.2 =
      .ok answer)
    (run : run? step? before (.request task (.inviteNew users organizationId userId profile claimerEmail token
      now) :: later) = some after)
    (given : claimerEmail ≠ some "")
    (devices : claimerEmail = none → ∀ label ∈ earlier ++ later, NoEmptyEmail label)
    (drawn : ∀ label ∈ later, draws? label ≠ some answer)
    (kept : (after.invite.store organizationId).deletedInvitations.contains answer = false)
    (users' : OrganizationStore) (profile' : UserProfile) (token' : UUID) (now' : DateTime) :
    let again := after.invite.apiInviteNew users' organizationId userId profile' claimerEmail token' now'
    again.2.1 = [] ∧ again.1.store = after.invite.store ∧
      MemoryInviteComponent.AnswersAgain users' profile' claimerEmail now' answer again.2.2 := by
  have one : before.OneEach claimerEmail :=
    run?_invariant (fun _ _ _ step given one => OneEach.step one step given)
      (along_of_forall_mem fun label member devices' => devices devices' label (List.mem_append_left _ member))
      reached (oneEach_empty _)
  obtain ⟨middle, step, suffix⟩ := Option.bind_eq_some_iff.mp run
  have oneMiddle : middle.OneEach claimerEmail := one.step step fun _ => given
  -- The answer is filed from then on, and answers the request.
  obtain ⟨invitation, filed, answers⟩ : ∃ invitation,
      (middle.invite.store organizationId).invitations.get? answer = some invitation ∧
        InviteStore.Answers invitation userId claimerEmail := by
    have invites : middle.invite = (before.invite.apiInviteNew users organizationId userId profile claimerEmail
        token now).1 := by
      simp only [step?, Option.bind_eq_bind, Option.bind_eq_some_iff, Option.guard_eq_some', exists_const,
        Option.pure_def, Option.some.injEq] at step
      rw [← step.2]
      rfl
    rcases MemoryInviteComponent.apiInviteNew_spec before.invite users organizationId userId profile claimerEmail
      token now with ⟨-, stores, found⟩ | ⟨invitation, -, answers, -, -, is⟩
    · obtain ⟨known, match?, rfl⟩ := found answer answered
      obtain ⟨alive, answers⟩ := InviteStore.alive_of_matching? (one organizationId).1.filed match?
      exact ⟨known, by rw [invites, stores]; exact alive.1, answers⟩
    · rw [is] at answered
      cases answered
      refine ⟨invitation, ?_, ?_⟩
      · rw [invites, is, MemoryInviteComponent.store_setStore, if_pos rfl, Dict.get?_insert, if_pos rfl]
      · rwa [InviteStore.filter_of_given given] at answers
  have stays : after.OneEach claimerEmail ∧
      (after.invite.store organizationId).invitations.get? answer = some invitation := by
    have preserved (server : MemoryServer β) (label : ServerEvent β) (next : MemoryServer β)
        (step : server.step? label = some next)
        (allowed : draws? label ≠ some answer ∧ (claimerEmail = none → NoEmptyEmail label))
        (holds : server.OneEach claimerEmail ∧
          (server.invite.store organizationId).invitations.get? answer = some invitation) :
        next.OneEach claimerEmail ∧
          (next.invite.store organizationId).invitations.get? answer = some invitation := by
      refine ⟨OneEach.step holds.1 step allowed.2, ?_⟩
      rcases invite_of_step step organizationId with same | ⟨other, made, invited, -, is⟩ | ⟨_, _, _, -, is⟩
      · rw [same]
        exact holds.2
      · obtain ⟨_, _, _, _, _, _, rfl, -⟩ := invited
        rw [is, InviteStore.withInvitation, Dict.get?_insert,
          if_neg fun same => allowed.1 (congrArg some same.symm)]
        exact holds.2
      · rw [is]
        exact holds.2
    have allowed (label : ServerEvent β) (member : label ∈ later) : draws? label ≠ some answer ∧
        (claimerEmail = none → NoEmptyEmail label) :=
      ⟨drawn label member, fun devices' => devices devices' label (List.mem_append_right _ member)⟩
    exact run?_invariant preserved (along_of_forall_mem allowed) suffix ⟨oneMiddle, filed⟩
  obtain ⟨oneAfter, still⟩ := stays
  obtain ⟨kept', each⟩ := oneAfter organizationId
  have alive : (after.invite.store organizationId).Alive answer invitation := ⟨still, kept⟩
  cases match? : (after.invite.store organizationId).matching? userId claimerEmail with
  | none =>
    exact absurd answers ((InviteStore.matching?_eq_none_iff kept'.filed).mp match? answer invitation alive)
  | some known =>
    obtain ⟨aliveToo, answersToo⟩ := InviteStore.alive_of_matching? kept'.filed match?
    obtain rfl : known.token = answer := each _ _ _ _ _ aliveToo alive answersToo answers
    exact MemoryInviteComponent.apiInviteNew_of_matching? match? users' profile' token' now'

/-- Everything that is announced in a run. -/
def announcedAlong : MemoryServer β → List (ServerEvent β) → List BackendEvent
  | _, [] => []
  | server, label :: rest =>
      server.pushed label ++ (server.step? label).elim [] fun next => announcedAlong next rest

def statusFeed (server : MemoryServer β) (organizationId : OrganizationID) : Feed BackendEvent (List UUID) :=
  ⟨server.queue, (server.invite.store organizationId).claimersReady⟩

theorem statuses_of_step (step : server.step? label = some next) (organizationId : OrganizationID) :
    Feed.Moves (followStatus organizationId) (server.statusFeed organizationId) (next.statusFeed organizationId)
      (server.taken label) (server.pushed label) := by
  refine ⟨queue_of_step step, ?_⟩
  rcases invite_of_step step organizationId with same | ⟨_, _, -, nothing, is⟩ | ⟨_, _, _, nothing, is⟩
  · rw [statusFeed, same]
    rfl
  · rw [statusFeed, is, nothing]
    rfl
  · rw [statusFeed, is, nothing]
    rfl

theorem statuses_of_run {labels : List (ServerEvent β)} (run : run? step? server labels = some next)
    (organizationId : OrganizationID) : ∃ taken,
    Feed.Moves (followStatus organizationId) (server.statusFeed organizationId) (next.statusFeed organizationId)
      taken (announcedAlong server labels) := by
  induction labels generalizing server with
  | nil =>
    cases run
    exact ⟨[], .refl _⟩
  | cons label rest ih =>
    obtain ⟨middle, step, suffix⟩ := Option.bind_eq_some_iff.mp run
    obtain ⟨taken, later⟩ := ih suffix
    rw [announcedAlong, step, Option.elim_some]
    exact ⟨_, (statuses_of_step step organizationId).trans later⟩

/-- What an invitation is listed with: that its claimer is there, if the last announcement about it says so. -/
def announcedStatus (labels : List (ServerEvent β)) (organizationId : OrganizationID) (token : UUID) :
    InvitationStatus :=
  match lastStatus? organizationId token (announcedAlong {} labels) with
  | some .ready => .ready
  | _ => .idle

/-- The list of a greeter, once the announcements have been heard: the invitations that are alive, each of them
once, by the date of their creation, and ready if the last status that was announced is. -/
theorem mem_apiInviteList_iff {labels : List (ServerEvent β)} {reached : MemoryServer β}
    (run : run? step? {} labels = some reached) (drained : reached.queue = [])
    (organizationId : OrganizationID) (userId : UserID) :
    (reached.invite.apiInviteList organizationId userId).Pairwise (·.createdOn ≤ ·.createdOn) ∧
    ((reached.invite.apiInviteList organizationId userId).map (·.token)).Nodup ∧
    ∀ item, item ∈ reached.invite.apiInviteList organizationId userId ↔
      ∃ kept, (reached.invite.store organizationId).Alive kept.token kept ∧ kept.greeterUserId = userId ∧
        item = { kept.item with status := announcedStatus labels organizationId kept.token } := by
  have one : reached.OneEach (some "") :=
    run?_preserves (fun _ _ _ step one => OneEach.step one step fun none => by cases none) run (oneEach_empty _)
  have kept := (one organizationId).1
  obtain ⟨taken, moves⟩ := statuses_of_run run organizationId
  have ready (token : UUID) : token ∈ (reached.invite.store organizationId).claimersReady ↔
      lastStatus? organizationId token (announcedAlong {} labels) = some .ready := by
    have settled : (reached.invite.store organizationId).claimersReady =
        (announcedAlong {} labels).foldl (followStatus organizationId) [] := by
      have pending := moves.pending_eq
      rw [Feed.pending, Feed.pending, statusFeed, drained] at pending
      exact pending
    rw [settled, mem_foldl_followStatus_iff]
    cases lastStatus? organizationId token (announcedAlong {} labels) with
    | some status => exact Option.some_inj.symm
    | none => simp
  refine ⟨?_, ?_, fun item => ?_⟩
  · exact List.pairwise_map.mpr (List.sortedBy_pairwise (fun invitation : Invitation => invitation.createdOn) _)
  · rw [MemoryInviteComponent.apiInviteList, List.map_map]
    exact InviteStore.nodup_list kept
  · have shown (listed : Invitation) (alive : (reached.invite.store organizationId).Alive listed.token listed) :
        ((reached.invite.store organizationId).shown listed).item =
          { listed.item with status := announcedStatus labels organizationId listed.token } := by
      rw [InviteStore.shown, announcedStatus]
      by_cases joined : listed.token ∈ (reached.invite.store organizationId).claimersReady
      · rw [if_pos joined, (ready _).mp joined]
        rfl
      · rw [if_neg joined]
        split
        · next now => exact absurd ((ready _).mpr now) joined
        · rw [← kept.idle _ _ alive.1]
          rfl
    rw [MemoryInviteComponent.apiInviteList, List.mem_map]
    simp only [InviteStore.mem_list_iff kept]
    constructor
    · rintro ⟨_, ⟨listed, alive, mine, rfl⟩, rfl⟩
      exact ⟨listed, alive, mine, shown listed alive⟩
    · rintro ⟨listed, alive, mine, rfl⟩
      exact ⟨_, ⟨listed, alive, mine, rfl⟩, shown listed alive⟩

section Example

private def greeters : OrganizationStore where
  users := .ofList [("alice", {
    profile := .admin, revokedOn := none, userId := "alice", humanHandle := none,
    userCertificate := ⟨⟨0⟩, none⟩, redactedUserCertificate := ⟨⟨0⟩, none⟩, userCertifier := none
    createdOn := 0 })]

/-- Bob has joined. -/
private def joined : OrganizationStore where
  users := .ofList [("bob", {
    profile := .standard, revokedOn := none, userId := "bob", humanHandle := some ⟨"bob@example.com", "Bob"⟩,
    userCertificate := ⟨⟨0⟩, none⟩, redactedUserCertificate := ⟨⟨0⟩, none⟩, userCertifier := none
    createdOn := 9 })]

private def inviteBob (task : ℕ) (token : UUID) : ServerEvent String :=
  .request task (.inviteNew greeters "org" "alice" .admin (some "bob@example.com") token 7)

/-- Bob is invited twice, a device once, and Bob has connected. -/
private def inviting : List (ServerEvent String) :=
  [inviteBob 0 5, .request 0 (.inviteNew greeters "org" "alice" .admin none 6 8), inviteBob 0 9,
    .request 0 (.claimerStatus "org" "alice" 5 true), .dispatch, .dispatch, .dispatch]

private def bobInvited : Invitation := ⟨"alice", none, some "bob@example.com", 5, 7, .idle⟩

theorem one_live_invitation_bob : ∃ reached : MemoryServer String, run? step? {} inviting = some reached ∧
    (reached.invite.store "org").Alive 5 bobInvited ∧
    ∀ token invitation, (reached.invite.store "org").Alive token invitation →
      InviteStore.Answers invitation "alice" (some "bob@example.com") → token = 5 :=
  ⟨_, rfl, ⟨rfl, rfl⟩, fun token invitation alive answers =>
    one_live_invitation (by rfl : run? step? {} inviting = some _) (fun none => by cases none) alive
      (⟨rfl, rfl⟩ : InviteStore.Alive _ 5 bobInvited) answers ⟨rfl, rfl⟩⟩

theorem asked_again_bob : ∃ after : MemoryServer String, run? step? {} inviting = some after ∧
    (after.invite.apiInviteNew greeters "org" "alice" .admin (some "bob@example.com") 9 10).2.2 = .ok 5 ∧
    (after.invite.apiInviteNew greeters "org" "alice" .standard (some "bob@example.com") 9 10).2.2 =
      .notAllowed ∧
    (after.invite.apiInviteNew joined "org" "alice" .admin (some "bob@example.com") 9 10).2.2 =
      .alreadyMember := by
  refine ⟨_, rfl, ?_⟩
  have again (users : OrganizationStore) (profile : UserProfile) :=
    (asked_again (by rfl : run? step? {} [] = some _)
      (by rfl : (MemoryInviteComponent.apiInviteNew _ greeters "org" "alice" .admin (some "bob@example.com") 5
        7).2.2 = .ok 5)
      (by rfl : run? _ _ (inviteBob 0 5 :: inviting.tail) = some _) (by decide) (fun none => by cases none)
      (by simp [inviting, inviteBob, draws?]) rfl users profile 9 10).2.2
  have free : ¬ greeters.HasMember "bob@example.com" 10 := by
    rintro ⟨user, listed, handle, has, -⟩
    obtain rfl : user = _ := List.mem_singleton.mp listed
    cases has
  have taken : joined.HasMember "bob@example.com" 10 := ⟨_, List.mem_singleton.mpr rfl, ⟨"bob@example.com", "Bob"⟩,
    rfl, rfl, by decide⟩
  exact ⟨(again greeters .admin).user _ rfl rfl free, (again greeters .standard).notAllowed _ rfl (by decide),
    (again joined .admin).alreadyMember _ rfl rfl taken⟩

theorem mem_apiInviteList_iff_bob : ∃ reached : MemoryServer String, run? step? {} inviting = some reached ∧
    ⟨.user, 5, 7, some "bob@example.com", .ready⟩ ∈ reached.invite.apiInviteList "org" "alice" :=
  ⟨_, rfl, ((mem_apiInviteList_iff (by rfl : run? step? {} inviting = some _) rfl "org" "alice").2.2 _).mpr
    ⟨bobInvited, ⟨rfl, rfl⟩, rfl, rfl⟩⟩

end Example

end MemoryServer

end Guardata
