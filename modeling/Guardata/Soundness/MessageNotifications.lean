import Guardata.Proofs.Events

/-! # Every message is announced once, in order

Messages are numbered in the order in which they are stored, and a subscriber is told of the number of each. What
a client has taken from its channel, with what is left there and in the queue, is then what it is served when it
asks for its messages: no number is missing, twice there or out of order. Only a channel that was full has lost
something.
-/

namespace Guardata

open Machine

def BackendEvent.messageIndex? (organizationId : OrganizationID) (userId : UserID) : BackendEvent → Option ℕ
  | .messageReceived organizationId' _ recipient index =>
      if organizationId' = organizationId ∧ recipient = userId then some index else none
  | _ => none

def APIEvent.messageIndex? : APIEvent → Option ℕ
  | .messageReceived index => some index
  | _ => none

/-- The last numbers up to one. -/
def LastUpTo (count : ℕ) (numbers : List ℕ) : Prop :=
  ∃ earlier, earlier ≤ count ∧ numbers = List.range' (earlier + 1) (count - earlier)

theorem lastUpTo_nil (count : ℕ) : LastUpTo count [] := ⟨count, le_refl _, by rw [Nat.sub_self]; rfl⟩

theorem LastUpTo.length_le {count : ℕ} {numbers : List ℕ} (last : LastUpTo count numbers) :
    numbers.length ≤ count := by
  obtain ⟨earlier, before, rfl⟩ := last
  rw [List.length_range']
  exact Nat.sub_le ..

theorem LastUpTo.eq_range' {count : ℕ} {numbers : List ℕ} (last : LastUpTo count numbers) :
    numbers = List.range' (count - numbers.length + 1) numbers.length := by
  obtain ⟨earlier, before, rfl⟩ := last
  rw [List.length_range', Nat.sub_sub_self before]

/-- More numbers come at the end. -/
theorem LastUpTo.append {count more : ℕ} {numbers : List ℕ} (last : LastUpTo count numbers) :
    LastUpTo (count + more) (numbers ++ List.range' (count + 1) more) := by
  obtain ⟨earlier, before, rfl⟩ := last
  refine ⟨earlier, le_trans before (Nat.le_add_right ..), ?_⟩
  rw [show count + 1 = earlier + 1 + (count - earlier) by omega, List.range'_append_1]
  congr 1
  omega

/-- What is taken from the front leaves the last ones. -/
theorem LastUpTo.of_append {count : ℕ} {front numbers : List ℕ} (last : LastUpTo count (front ++ numbers)) :
    LastUpTo count numbers := by
  obtain ⟨earlier, before, is⟩ := last
  obtain ⟨taken, short, -, rfl⟩ := List.range'_eq_append_iff.mp is.symm
  refine ⟨earlier + taken, by omega, ?_⟩
  congr 1 <;> omega

theorem MemoryMessageComponent.received_send (component : MemoryMessageComponent) (send : MessageSend)
    (organizationId : OrganizationID) (userId : UserID) :
    (component.send send).1.received organizationId userId = component.received organizationId userId ++
      if send.organizationId = organizationId ∧ send.recipient = userId then [send.message] else [] := by
  rw [MemoryMessageComponent.send, MemoryMessageComponent.received, Dict.get?_insert]
  by_cases mine : send.organizationId = organizationId ∧ send.recipient = userId
  · obtain ⟨rfl, rfl⟩ := mine
    rw [if_pos rfl, if_pos ⟨rfl, rfl⟩, Option.getD_some]
  · rw [if_neg mine, if_neg fun same => mine ⟨(congrArg Prod.fst same).symm, (congrArg Prod.snd same).symm⟩,
      List.append_nil]
    rfl

namespace MemoryServer

variable {β : Type} {server next : MemoryServer β} {label : ServerEvent β}

/-- The number of messages of a user. -/
def messageCount (server : MemoryServer β) (organizationId : OrganizationID) (userId : UserID) : ℕ :=
  (server.messages.received organizationId userId).length

/-- Requests on realms and vlobs store their messages later. -/
theorem messages_of_serveData (backend : ReencryptionBackend β) (request : DataRequest β)
    (organizationId : OrganizationID) (userId : UserID) :
    (backend.serveData request).events.filterMap (BackendEvent.messageIndex? organizationId userId) = [] := by
  have roles (result : Except RealmError MemoryRealmComponent) (organization : OrganizationID)
      (grant : RealmGrantedRole) (sends : List MessageSend) :
      (backend.changeRoles result organization grant sends).events.filterMap
        (BackendEvent.messageIndex? organizationId userId) = [] := by
    cases result <;> rfl
  have vlobs (result : Except VlobError (MemoryVlobComponent β)) (organization : OrganizationID)
      (author : DeviceID) (realmId vlobId : UUID) (version : ℕ) :
      (backend.changeVlob result organization author realmId vlobId version).events.filterMap
        (BackendEvent.messageIndex? organizationId userId) = [] := by
    cases result <;> rfl
  have starts (users : UserTable) (organization : OrganizationID) (author : DeviceID) (realmId : UUID)
      (encryptionRevision : ℕ) (recipients : List UserID) (timestamp now : DateTime) (sends : List MessageSend) :
      (backend.startReencryption users organization author realmId encryptionRevision recipients timestamp now
        sends).events.filterMap (BackendEvent.messageIndex? organizationId userId) = [] := by
    rw [ReencryptionBackend.startReencryption]
    split
    split <;> rfl
  cases request with
  | updateRoles => exact roles ..
  | start => exact starts ..
  | vlob request =>
    cases request with
    | realmCreate => exact roles ..
    | updateRoles => exact roles ..
    | create => exact vlobs ..
    | update => exact vlobs ..
    | start => exact starts ..
    | saveBatch => rfl
    | finish =>
      rw [ReencryptionBackend.serveData, ReencryptionBackend.announce]
      split <;> rfl

/-- The messages that a step stores, with what it announces of them. -/
theorem messages_of_step (step : server.step? label = some next) (organizationId : OrganizationID)
    (userId : UserID) : ∃ more,
      next.messages.received organizationId userId = server.messages.received organizationId userId ++ more ∧
      (server.pushed label).filterMap (BackendEvent.messageIndex? organizationId userId) =
        List.range' (server.messageCount organizationId userId + 1) more.length := by
  have nothing (same : next.messages = server.messages)
      (silent : (server.pushed label).filterMap (BackendEvent.messageIndex? organizationId userId) = []) :
      ∃ more,
        next.messages.received organizationId userId = server.messages.received organizationId userId ++ more ∧
        (server.pushed label).filterMap (BackendEvent.messageIndex? organizationId userId) =
          List.range' (server.messageCount organizationId userId + 1) more.length :=
    ⟨[], by rw [same, List.append_nil], silent⟩
  rcases step?_cases step with connection | ⟨task, request, rfl, rfl⟩ | sending | ⟨task, rfl, rfl⟩ | dispatching
  · obtain ⟨client, after, -, silent, rfl, -⟩ := connection
    exact nothing rfl (by rw [silent]; rfl)
  · refine nothing (serve_spec server task request).2.2 ?_
    cases request with
    | data request => exact messages_of_serveData ..
    | ping => rfl
    | claimerStatus => rfl
    | inviteNew =>
      refine List.filterMap_eq_nil_iff.mpr fun event member => ?_
      obtain ⟨_, _, rfl⟩ := MemoryInviteComponent.mem_events_new member
      rfl
    | inviteDelete =>
      refine List.filterMap_eq_nil_iff.mpr fun event member => ?_
      obtain ⟨_, _, rfl⟩ := MemoryInviteComponent.mem_events_delete member
      rfl
  · obtain ⟨task, send, rest, rfl, waiting, rfl⟩ := sending
    refine ⟨_, MemoryMessageComponent.received_send server.messages send organizationId userId, ?_⟩
    rw [pushed, waiting, List.take_one, List.head?_cons, Option.toList_some, List.map_singleton,
      MemoryMessageComponent.send]
    by_cases mine : send.organizationId = organizationId ∧ send.recipient = userId
    · obtain ⟨rfl, rfl⟩ := mine
      simp [BackendEvent.messageIndex?, messageCount]
    · simp [BackendEvent.messageIndex?, mine]
  · exact nothing rfl rfl
  · obtain ⟨event, rest, rfl, -, rfl⟩ := dispatching
    exact nothing rfl rfl

/-- What the client of a connection is told in a step. -/
def heardBy (server : MemoryServer β) (client : ℕ) : ServerEvent β → List APIEvent
  | .listen other => if other = client then ((server.clients client).map (·.channel.take 1)).getD [] else []
  | _ => []

/-- What the client of a connection is told in a run. -/
def heardAlong (client : ℕ) : MemoryServer β → List (ServerEvent β) → List APIEvent
  | _, [] => []
  | server, label :: rest =>
      server.heardBy client label ++ (server.step? label).elim [] fun next => heardAlong client next rest

/-- The numbers of the messages that a connection has yet to tell of. -/
def pendingMessages (server : MemoryServer β) (ctx : AuthenticatedClientContext) : List ℕ :=
  ctx.channel.filterMap APIEvent.messageIndex? ++
    server.queue.filterMap (BackendEvent.messageIndex? ctx.organizationId ctx.userId)

/-- The channel of a client is not full when an event is dispatched. -/
def HasRoom (client : ℕ) (server : MemoryServer β) (label : ServerEvent β) (_ : MemoryServer β) : Prop :=
  isDispatch label = true → ∀ ctx ∈ server.clients client, ctx.channel.length < maxPendingEvents

instance (client : ℕ) (server : MemoryServer β) (label : ServerEvent β) (next : MemoryServer β) :
    Decidable (HasRoom client server label next) :=
  inferInstanceAs (Decidable (isDispatch label = true →
    ∀ ctx ∈ server.clients client, ctx.channel.length < maxPendingEvents))

theorem heardBy_of_ne {client : ℕ} (other : label ≠ .listen client) : server.heardBy client label = [] := by
  cases label with
  | listen listener => exact if_neg fun same => other (by rw [same])
  | _ => rfl

/-- Where there is room, a connection keeps the number of a message to its user, and of no other event. -/
theorem messages_hear {ctx : AuthenticatedClientContext} (subscribed : ctx.eventsSubscribed = true)
    (room : ctx.channel.length < maxPendingEvents) (event : BackendEvent) :
    (ctx.hear event).channel.filterMap APIEvent.messageIndex? =
      ctx.channel.filterMap APIEvent.messageIndex? ++
        [event].filterMap (BackendEvent.messageIndex? ctx.organizationId ctx.userId) := by
  have sent (ctx' : AuthenticatedClientContext) (same : ctx'.channel = ctx.channel) (told : APIEvent) :
      (ctx'.sendNowait told).channel.filterMap APIEvent.messageIndex? =
        ctx.channel.filterMap APIEvent.messageIndex? ++ [told].filterMap APIEvent.messageIndex? := by
    rw [AuthenticatedClientContext.sendNowait, same, if_pos room, List.filterMap_append]
  have ignored : ctx.channel.filterMap APIEvent.messageIndex? =
      ctx.channel.filterMap APIEvent.messageIndex? ++ [] := (List.append_nil _).symm
  rw [AuthenticatedClientContext.hear, if_pos subscribed]
  cases event with
  | messageReceived organizationId author recipient index =>
    simp only [AuthenticatedClientContext.onEvent, List.filterMap_cons, BackendEvent.messageIndex?]
    by_cases mine : organizationId = ctx.organizationId ∧ recipient = ctx.userId
    · rw [if_pos mine, if_neg (by simp [mine])]
      exact sent ctx rfl _
    · rw [if_neg mine, if_pos (not_and_or.mp mine)]
      exact ignored
  | realmRolesUpdated organizationId author realmId user role =>
    simp only [AuthenticatedClientContext.onEvent]
    split
    · exact ignored
    · exact sent (ctx.updateRealms realmId role) rfl _
  | pinged =>
    simp only [AuthenticatedClientContext.onEvent]
    split
    · exact ignored
    · exact sent ctx rfl _
  | inviteStatusChanged =>
    simp only [AuthenticatedClientContext.onEvent]
    split
    · exact ignored
    · exact sent ctx rfl _
  | realmMaintenanceStarted | realmMaintenanceFinished | realmVlobsUpdated =>
    simp only [AuthenticatedClientContext.onEvent, AuthenticatedClientContext.onRealmEvents]
    split
    · exact ignored
    · exact sent ctx rfl _

/-- What is pending is told, in order, and what is announced comes behind it. -/
theorem notifications_of_step (step : server.step? label = some next) {client : ℕ}
    {ctx : AuthenticatedClientContext} (there : server.clients client = some ctx)
    (subscribed : ctx.eventsSubscribed = true) (stays : label ≠ .disconnect client)
    (room : server.HasRoom client label next) :
    ∃ after, next.clients client = some after ∧ after.organizationId = ctx.organizationId ∧
      after.deviceId = ctx.deviceId ∧ after.eventsSubscribed = true ∧
      (server.heardBy client label).filterMap APIEvent.messageIndex? ++ next.pendingMessages after =
        server.pendingMessages ctx ++ (server.pushed label).filterMap
          (BackendEvent.messageIndex? ctx.organizationId ctx.userId) := by
  obtain ⟨after, here, how⟩ := client_of_step step there subscribed stays
  have queue := congrArg (List.filterMap (BackendEvent.messageIndex? ctx.organizationId ctx.userId))
    (queue_of_step step)
  rw [List.filterMap_append, List.filterMap_append] at queue
  rcases how with ⟨other, heard⟩ | ⟨rfl, rfl⟩
  · obtain ⟨channel, is⟩ := AuthenticatedClientContext.foldl_hear_spec subscribed (server.taken label)
    have keeps : after.channel.filterMap APIEvent.messageIndex? =
        ctx.channel.filterMap APIEvent.messageIndex? ++ (server.taken label).filterMap
          (BackendEvent.messageIndex? ctx.organizationId ctx.userId) := by
      rw [heard]
      cases label with
      | dispatch =>
        rw [taken]
        cases server.queue with
        | nil => exact (List.append_nil _).symm
        | cons event rest => exact messages_hear subscribed (room rfl ctx there) event
      | _ => exact (List.append_nil _).symm
    have ids : after.organizationId = ctx.organizationId ∧ after.deviceId = ctx.deviceId ∧
        after.eventsSubscribed = true := by rw [heard, is]; exact ⟨rfl, rfl, subscribed⟩
    refine ⟨after, here, ids.1, ids.2.1, ids.2.2, ?_⟩
    rw [heardBy_of_ne other, pendingMessages, pendingMessages, keeps, ids.1,
      show after.userId = ctx.userId from congrArg DeviceID.userId ids.2.1, List.append_assoc, ← queue,
      List.append_assoc]
    rfl
  · refine ⟨_, here, rfl, rfl, subscribed, ?_⟩
    have first : server.heardBy client (.listen client) = ctx.channel.take 1 := by
      rw [heardBy, if_pos rfl, there]
      rfl
    rw [first, pendingMessages, pendingMessages, ← List.append_assoc, ← List.filterMap_append,
      ← List.drop_one, List.take_append_drop, List.append_assoc, queue]
    rfl

theorem notifications_of_run {client : ℕ} {labels : List (ServerEvent β)}
    (room : Along step? (HasRoom client) server labels) (run : run? step? server labels = some next)
    {ctx : AuthenticatedClientContext} (there : server.clients client = some ctx)
    (subscribed : ctx.eventsSubscribed = true) (stays : ∀ label ∈ labels, label ≠ .disconnect client) :
    ∃ after more, next.clients client = some after ∧
      next.messages.received ctx.organizationId ctx.userId =
        server.messages.received ctx.organizationId ctx.userId ++ more ∧
      (heardAlong client server labels).filterMap APIEvent.messageIndex? ++ next.pendingMessages after =
        server.pendingMessages ctx ++
          List.range' (server.messageCount ctx.organizationId ctx.userId + 1) more.length := by
  induction labels generalizing server ctx with
  | nil =>
    cases run
    exact ⟨ctx, [], there, (List.append_nil _).symm, (List.append_nil _).symm⟩
  | cons label rest ih =>
    obtain ⟨middle, step, suffix⟩ := Option.bind_eq_some_iff.mp run
    obtain ⟨free, roomy⟩ := room middle step
    obtain ⟨between, here, organization, device, still, told⟩ :=
      notifications_of_step step there subscribed (stays label List.mem_cons_self) free
    obtain ⟨more, stored, announced⟩ := messages_of_step step ctx.organizationId ctx.userId
    obtain ⟨after, later, last, received, rest⟩ :=
      ih roomy suffix here still fun other member => stays other (List.mem_cons_of_mem _ member)
    have user : between.userId = ctx.userId := congrArg DeviceID.userId device
    rw [organization, user] at received rest
    refine ⟨after, more ++ later, last, by rw [received, stored, List.append_assoc], ?_⟩
    rw [heardAlong, step, Option.elim_some, List.filterMap_append, List.append_assoc, rest, ← List.append_assoc,
      told, announced, List.append_assoc, messageCount, messageCount, stored, List.length_append,
      List.length_append, Nat.add_right_comm, List.range'_append_1]

/-- The notifications in the queue are the last ones, and so are those that a subscriber has yet to be told. -/
structure Numbered (client : ℕ) (server : MemoryServer β) : Prop where
  queued : ∀ organizationId userId, LastUpTo (server.messageCount organizationId userId)
    (server.queue.filterMap (BackendEvent.messageIndex? organizationId userId))
  idle : ∀ ctx ∈ server.clients client, ctx.eventsSubscribed = false → ctx.channel = []
  pending : ∀ ctx ∈ server.clients client, ctx.eventsSubscribed = true →
    LastUpTo (server.messageCount ctx.organizationId ctx.userId) (server.pendingMessages ctx)

theorem numbered_empty (client : ℕ) : ({} : MemoryServer β).Numbered client where
  queued _ _ := lastUpTo_nil _
  idle := by intro ctx none; cases none
  pending := by intro ctx none; cases none

/-- Nothing is put in a channel before the subscription. -/
theorem idle_of_step (step : server.step? label = some next) {client : ℕ}
    (idle : ∀ ctx ∈ server.clients client, ctx.eventsSubscribed = false → ctx.channel = []) :
    ∀ ctx ∈ next.clients client, ctx.eventsSubscribed = false → ctx.channel = [] := by
  intro after there unsubscribed
  rcases step?_cases step with connection | ⟨task, request, rfl, rfl⟩ | sending | ⟨task, rfl, rfl⟩ | dispatching
  · obtain ⟨changed, ctx, -, -, rfl, how⟩ := connection
    rw [clients_setClient] at there
    by_cases same : client = changed
    · subst same
      rw [if_pos rfl] at there
      subst there
      rcases how with ⟨-, -, empty⟩ | ⟨ctx, here, rfl | ⟨-, -, rfl⟩⟩
      · exact empty
      · rw [subscribe] at unsubscribed ⊢
        split
        · next already =>
          rw [if_pos already] at unsubscribed
          cases already.symm.trans unsubscribed
        · next fresh =>
          rw [if_neg fresh] at unsubscribed
          cases unsubscribed
      · exact congrArg List.tail (idle ctx here unsubscribed)
    · rw [if_neg same] at there
      exact idle after there unsubscribed
  · rw [(serve_spec server task request).2.1] at there
    exact idle after there unsubscribed
  · obtain ⟨task, send, rest, -, -, rfl⟩ := sending
    exact idle after there unsubscribed
  · exact idle after there unsubscribed
  · obtain ⟨event, rest, -, -, rfl⟩ := dispatching
    obtain ⟨ctx, here, heard⟩ := Option.map_eq_some_iff.mp there
    cases before : ctx.eventsSubscribed with
    | true =>
      obtain ⟨channel, is⟩ := AuthenticatedClientContext.hear_spec before event
      obtain rfl := heard.symm.trans is
      cases before.symm.trans unsubscribed
    | false =>
      rw [AuthenticatedClientContext.hear, before] at heard
      subst heard
      exact idle ctx here before

theorem Numbered.step {client : ℕ} (numbered : server.Numbered client) (step : server.step? label = some next)
    (room : server.HasRoom client label next) : next.Numbered client := by
  constructor
  · intro organizationId userId
    obtain ⟨more, stored, announced⟩ := messages_of_step step organizationId userId
    have queue := congrArg (List.filterMap (BackendEvent.messageIndex? organizationId userId))
      (queue_of_step step)
    rw [List.filterMap_append, List.filterMap_append, announced] at queue
    rw [messageCount, stored, List.length_append]
    exact (queue ▸ (numbered.queued organizationId userId).append).of_append
  · exact idle_of_step step numbered.idle
  · intro after there subscribed
    obtain ⟨ctx, here, stays, before | ⟨unsubscribed, rfl, -, -, rfl⟩⟩ := subscribed_of_step step there subscribed
    · obtain ⟨_, same, organization, device, -, told⟩ := notifications_of_step step here before stays room
      cases there.symm.trans same
      obtain ⟨more, stored, announced⟩ := messages_of_step step ctx.organizationId ctx.userId
      rw [announced] at told
      rw [organization, show after.userId = ctx.userId from congrArg DeviceID.userId device, messageCount, stored,
        List.length_append]
      exact (told ▸ (numbered.pending ctx here before).append).of_append
    · have empty := numbered.idle ctx here unsubscribed
      rw [subscribe, if_neg (by simp [unsubscribed]), pendingMessages]
      rw [empty]
      exact numbered.queued ctx.organizationId ctx.userId

/-- What a client has been told since it subscribed, with what it has yet to be told, is what it is served when it
asks for its messages from the first of them on. A listen takes at once what is in the channel; a listen that is
cancelled while it waits is left out. -/
theorem notified_of_every_message {client : ℕ} {earlier later : List (ServerEvent β)}
    {before after : MemoryServer β} (roomyBefore : Along step? (HasRoom client) {} earlier)
    (reached : run? step? {} earlier = some before) (roomy : Along step? (HasRoom client) before later)
    (run : run? step? before later = some after) {ctx : AuthenticatedClientContext}
    (there : before.clients client = some ctx) (subscribed : ctx.eventsSubscribed = true)
    (stays : ∀ label ∈ later, label ≠ .disconnect client) :
    ∃ now, after.clients client = some now ∧
      before.messages.received ctx.organizationId ctx.userId <+:
        after.messages.received ctx.organizationId ctx.userId ∧
      (heardAlong client before later).filterMap APIEvent.messageIndex? ++ after.pendingMessages now =
        (after.messages.apiMessageGet ctx.organizationId ctx.userId
          (before.messageCount ctx.organizationId ctx.userId - (before.pendingMessages ctx).length)).map
            (·.count) := by
  have numbered : before.Numbered client :=
    run?_invariant (fun _ _ _ step room numbered => Numbered.step numbered step room) roomyBefore reached
      (numbered_empty client)
  obtain ⟨now, more, here, received, told⟩ := notifications_of_run roomy run there subscribed stays
  refine ⟨now, here, ⟨more, received.symm⟩, told.trans ?_⟩
  have last := numbered.pending ctx there subscribed
  have counts (offset : ℕ) : (after.messages.apiMessageGet ctx.organizationId ctx.userId offset).map (·.count) =
      List.range' (offset + 1) ((after.messages.received ctx.organizationId ctx.userId).length - offset) := by
    rw [MemoryMessageComponent.apiMessageGet, List.map_map, MemoryMessageComponent.get, ← List.length_drop]
    exact List.zipIdx_map_snd ..
  have short := last.length_le
  have first := last.eq_range'
  rw [counts, received, List.length_append]
  rw [messageCount] at short first ⊢
  generalize (before.pendingMessages ctx).length = pending at short first ⊢
  generalize (before.messages.received ctx.organizationId ctx.userId).length = stored at short first ⊢
  rw [first, show stored + 1 = stored - pending + 1 + pending by omega, List.range'_append_1]
  congr 1
  omega

section Example

private def sharedBy (user : String) (role : RealmRole) (date : DateTime) : RealmGrantedRole where
  certificate := ⟨⟨0⟩, some ⟨⟨"alice", "dev"⟩, date, 1, user, some role⟩⟩
  realmId := 1
  userId := user
  role := some role
  grantedBy := ⟨"alice", "dev"⟩
  grantedOn := date

private def listening : List (ServerEvent String) :=
  [.request 0 (.data (.vlob (.realmCreate "org" (sharedBy "alice" .owner 1)))), .connect 0 "org" ⟨"bob", "pc"⟩,
    .subscribe 0]

/-- Alice shares her realm with Bob, and a message comes with the role. -/
private def sharing : List (ServerEvent String) :=
  [.dispatch,
    .request 0 (.data (.updateRoles (fun _ _ => some ⟨.standard, none⟩) "org" (sharedBy "bob" .reader 2) [1, 2])),
    .sendNext 0, .dispatch, .dispatch, .listen 0, .listen 0]

theorem notified_of_every_message_sharing : ∃ (before after : MemoryServer String) (ctx : AuthenticatedClientContext),
    run? step? {} listening = some before ∧ run? step? before sharing = some after ∧
    before.clients 0 = some ctx ∧
    (heardAlong 0 before sharing).filterMap APIEvent.messageIndex? ++ [] =
      (after.messages.apiMessageGet ctx.organizationId ctx.userId 0).map (·.count) := by
  obtain ⟨now, here, -, told⟩ := notified_of_every_message
    (by decide : Along step? (HasRoom 0) {} listening) rfl (by decide : Along step? (HasRoom 0) _ sharing)
    (by rfl : run? _ _ sharing = some _) (by rfl : MemoryServer.clients _ 0 = some _) rfl (by simp [sharing])
  cases here
  exact ⟨_, _, _, rfl, rfl, rfl, told⟩

end Example

end MemoryServer

end Guardata
