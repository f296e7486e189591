import Guardata.Proofs.UserRequests

/-! # Emails of active users

The index of human handles always holds the handles of exactly those users that were never revoked. Whether
a user is active is another matter: a revocation may be dated after its reception, and until that date the
user is not revoked although its handle is released. Two active users then share an email if the handle is
given to a new user before that date, and only then.
-/

namespace Guardata

open Machine

namespace OrganizationStore

variable {store next : OrganizationStore} {instant : DateTime}

/-- A user that is not revoked at some instant has a human handle with this email. -/
def HasEmail (store : OrganizationStore) (instant : DateTime) (userId : UserID) (email : String) : Prop :=
  ∃ user, store.users.get? userId = some user ∧ user.isRevoked instant = false ∧
    user.humanHandle.map (·.email) = some email

def EmailsUnique (store : OrganizationStore) (instant : DateTime) : Prop :=
  ∀ email first second, store.HasEmail instant first email → store.HasEmail instant second email →
    first = second

/-- `human_handle_to_user_id` maps exactly the handles of the users never revoked. -/
def IndexExact (store : OrganizationStore) : Prop :=
  ∀ email handle userId, store.humanHandleToUserId.get? email = some (handle, userId) ↔
    handle.email = email ∧ ∃ user, store.users.get? userId = some user ∧ user.humanHandle = some handle ∧
      user.revokedOn = none

section Users

/-- Only users matter. -/
theorem emailsUnique_congr (same : next.users = store.users) :
    next.EmailsUnique instant ↔ store.EmailsUnique instant := by
  simp only [EmailsUnique, HasEmail, same]

theorem IndexExact.congr (exact : store.IndexExact) (users : next.users = store.users)
    (handles : next.humanHandleToUserId = store.humanHandleToUserId) : next.IndexExact := by
  unfold IndexExact at exact ⊢
  rwa [users, handles]

end Users

section CreateUser

variable {user : UserRecord} {device : Device}

theorem IndexExact.createUser (exact : store.IndexExact)
    (created : store.createUser user device = .ok next) (active : user.revokedOn = none) :
    next.IndexExact := by
  have users := users_createUser created
  obtain ⟨new, free, rfl⟩ := createUser_spec created
  intro email handle userId
  rw [get?_claimHumanHandle, users]
  by_cases claimed : user.humanHandle.map (·.email) = some email
  · obtain ⟨own, isOwn, rfl⟩ := Option.map_eq_some_iff.mp claimed
    simp only [isOwn, Option.map_some, ↓reduceIte, Option.some.injEq, Prod.mk.injEq]
    constructor
    · rintro ⟨rfl, rfl⟩
      exact ⟨rfl, user, if_pos rfl, isOwn, active⟩
    · rintro ⟨same, other, found, isHandle, unrevoked⟩
      split at found
      · next isUser =>
        cases found
        exact ⟨Option.some_inj.mp (isOwn.symm.trans isHandle), isUser.symm⟩
      · have indexed := (exact own.email handle userId).mpr ⟨same, other, found, isHandle, unrevoked⟩
        rw [free own isOwn] at indexed
        cases indexed
  · rw [if_neg claimed, humanHandleToUserId_setDevice, exact]
    refine and_congr_right fun same => exists_congr fun other => ?_
    split
    · next isUser =>
      subst isUser
      refine iff_of_false (fun found => ?_) fun found => ?_
      · rw [new] at found
        cases found.1
      · obtain ⟨rfl⟩ := Option.some_inj.mp found.1
        rw [found.2.1, Option.map_some, same] at claimed
        exact claimed rfl
    · exact Iff.rfl

theorem hasEmail_createUser (created : store.createUser user device = .ok next)
    (active : user.revokedOn = none) {userId : UserID} {email : String} :
    next.HasEmail instant userId email ↔ store.HasEmail instant userId email ∨
      userId = user.userId ∧ user.humanHandle.map (·.email) = some email := by
  have users := users_createUser created
  obtain ⟨new, -⟩ := createUser_spec created
  simp only [HasEmail, users]
  by_cases isUser : userId = user.userId
  · subst isUser
    simp [new, UserRecord.isRevoked, active]
  · simp [isUser]

/-- A new user keeps emails unique if nobody active has its email. -/
theorem emailsUnique_createUser (created : store.createUser user device = .ok next)
    (active : user.revokedOn = none) (unique : store.EmailsUnique instant) :
    next.EmailsUnique instant ↔ ∀ email other, user.humanHandle.map (·.email) = some email →
      ¬ store.HasEmail instant other email := by
  obtain ⟨new, -⟩ := createUser_spec created
  have absent (email : String) : ¬ store.HasEmail instant user.userId email := by
    rintro ⟨found, isUser, -⟩
    rw [new] at isUser
    cases isUser
  simp only [EmailsUnique, hasEmail_createUser created active]
  constructor
  · intro all email other claimed has
    obtain rfl := all email other user.userId (.inl has) (.inr ⟨rfl, claimed⟩)
    exact absent email has
  · rintro free email first second (hasFirst | ⟨rfl, claimed⟩) (hasSecond | ⟨rfl, claimed'⟩)
    · exact unique email first second hasFirst hasSecond
    · exact absurd hasFirst (free email first claimed')
    · exact absurd hasSecond (free email second claimed)
    · rfl

/-- The users that have an email for now although their revocation is recorded. -/
theorem IndexExact.not_hasEmail_iff (exact : store.IndexExact)
    (created : store.createUser user device = .ok next) {email : String}
    (claimed : user.humanHandle.map (·.email) = some email) :
    (∀ other, ¬ store.HasEmail instant other email) ↔ ∀ userId other date,
      store.users.get? userId = some other → other.humanHandle.map (·.email) = some email →
        other.revokedOn = some date → date ≤ instant := by
  obtain ⟨-, free, -⟩ := createUser_spec created
  obtain ⟨own, isOwn, rfl⟩ := Option.map_eq_some_iff.mp claimed
  constructor
  · intro nobody userId other date found has revoked
    by_contra later
    exact nobody userId ⟨other, found, by simpa [UserRecord.isRevoked, revoked] using later, has⟩
  · rintro past userId ⟨other, found, active, has⟩
    cases revoked : other.revokedOn with
    | none =>
      obtain ⟨handle, isHandle, same⟩ := Option.map_eq_some_iff.mp has
      have indexed := (exact own.email handle userId).mpr ⟨same, other, found, isHandle, revoked⟩
      rw [free own isOwn] at indexed
      cases indexed
    | some date =>
      have ended := past userId other date found has revoked
      simp only [UserRecord.isRevoked, revoked, Option.any_some, decide_eq_false_iff_not] at active
      exact active ended

end CreateUser

section RevokeUser

variable {userId : UserID} {certificate : Signed RevokedUserCertificateContent} {certifier : DeviceID}
  {date now : DateTime}

theorem IndexExact.revokeUser (exact : store.IndexExact)
    (done : store.revokeUser userId certificate certifier (some date) now = .ok next) :
    next.IndexExact := by
  obtain ⟨user, found, active, users, -, handles⟩ := revokeUser_spec done
  intro email handle other
  rw [handles, users, Dict.get?_insert]
  by_cases released : user.humanHandle.map (·.email) = some email
  · obtain ⟨own, isOwn, rfl⟩ := Option.map_eq_some_iff.mp released
    have indexed := (exact own.email own userId).mpr ⟨rfl, user, found, isOwn, active⟩
    simp only [released, ↓reduceIte, reduceCtorEq, false_iff]
    rintro ⟨same, record, isRecord, isHandle, unrevoked⟩
    split at isRecord
    · cases isRecord
      cases unrevoked
    · next foreign =>
      have also := (exact own.email handle other).mpr ⟨same, record, isRecord, isHandle, unrevoked⟩
      rw [indexed] at also
      cases also
      exact foreign rfl
  · rw [if_neg released, exact]
    refine and_congr_right fun same => ?_
    by_cases isUser : other = userId
    · subst isUser
      refine iff_of_false ?_ ?_
      · rintro ⟨record, isRecord, isHandle, -⟩
        obtain rfl := Option.some_inj.mp (found.symm.trans isRecord)
        rw [isHandle, Option.map_some, same] at released
        exact released rfl
      · rintro ⟨record, isRecord, -, unrevoked⟩
        rw [if_pos rfl] at isRecord
        cases isRecord
        cases unrevoked
    · simp [isUser]

theorem EmailsUnique.revokeUser (unique : store.EmailsUnique instant)
    (done : store.revokeUser userId certificate certifier (some date) now = .ok next) :
    next.EmailsUnique instant := by
  obtain ⟨user, found, active, users, -, -⟩ := revokeUser_spec done
  have before {other : UserID} {email : String} (has : next.HasEmail instant other email) :
      store.HasEmail instant other email := by
    obtain ⟨record, isRecord, unrevoked, isEmail⟩ := has
    rw [users, Dict.get?_insert] at isRecord
    split at isRecord
    · next isUser =>
      cases isRecord
      exact ⟨user, isUser ▸ found, by simp [UserRecord.isRevoked, active], isEmail⟩
    · exact ⟨record, isRecord, unrevoked, isEmail⟩
  exact fun email first second hasFirst hasSecond =>
    unique email first second (before hasFirst) (before hasSecond)

end RevokeUser

/-- Nobody whose recorded revocation is still to come has the email of a new user. -/
def EmailReleased (store : OrganizationStore) (now : DateTime)
    (certificate : Signed FullUserCertificateContent) : Prop :=
  ∀ content handle, certificate.payload = some content → content.humanHandle = some handle →
    ∀ userId user date, store.users.get? userId = some user →
      user.humanHandle.map (·.email) = some handle.email → user.revokedOn = some date → date ≤ now

end OrganizationStore

namespace UserBackend

variable {backend next served : UserBackend} {now : DateTime} {event : DateTime × UserRequest}

/-- No two users that are active at an instant from now on share an email, and the index is exact. -/
def EmailsExclusive (backend : UserBackend) : Prop :=
  ∀ organizationId, (backend.user.store organizationId).IndexExact ∧
    ∀ instant, backend.clock ≤ instant → (backend.user.store organizationId).EmailsUnique instant

/-- A request that creates a user does not give it an email of a user whose revocation is to come. -/
def ReleasesEmails (backend : UserBackend) : DateTime × UserRequest → Prop
  | (now, .organizationBootstrap id msg) => (backend.user.store id).EmailReleased now msg.userCertificate
  | (now, .userCreate answer msg) =>
      (backend.user.store answer.organizationId).EmailReleased now msg.userCertificate
  | _ => True

/-- The emails of one organization stay exclusive exactly if the email of a new user is released. -/
theorem exclusive_createUser_iff {store next : OrganizationStore} {user : UserRecord} {device : Device}
    {key : VerifyKey} {author : Option DeviceID} {certificate : Signed FullUserCertificateContent}
    (accepted : AcceptedUser key author certificate user device)
    (created : store.createUser user device = .ok next) (exact : store.IndexExact)
    (unique : ∀ instant, now ≤ instant → store.EmailsUnique instant) :
    (next.IndexExact ∧ ∀ instant, now ≤ instant → next.EmailsUnique instant) ↔
      store.EmailReleased now certificate := by
  obtain ⟨content, payload, -, sameHandle, -⟩ := accepted.declared
  have step (instant : DateTime) (later : now ≤ instant) : next.EmailsUnique instant ↔
      ∀ email, user.humanHandle.map (·.email) = some email → ∀ userId other date,
        store.users.get? userId = some other → other.humanHandle.map (·.email) = some email →
          other.revokedOn = some date → date ≤ instant := by
    rw [OrganizationStore.emailsUnique_createUser created accepted.revokedOn (unique instant later)]
    constructor
    · intro free email claimed
      exact (exact.not_hasEmail_iff created claimed).mp fun other => free email other claimed
    · intro past email other claimed
      exact (exact.not_hasEmail_iff created claimed).mpr (past email claimed) other
  constructor
  · rintro ⟨-, all⟩ other handle isContent isHandle
    cases payload.symm.trans isContent
    rw [sameHandle] at isHandle
    exact (step now le_rfl).mp (all now le_rfl) handle.email (by rw [isHandle, Option.map_some])
  · refine fun released => ⟨exact.createUser created accepted.revokedOn, fun instant later => ?_⟩
    refine (step instant later).mpr fun email claimed userId other date found has revoked => ?_
    obtain ⟨handle, isHandle, rfl⟩ := Option.map_eq_some_iff.mp claimed
    exact (released content handle payload (sameHandle.trans isHandle) userId other date found has
      revoked).trans later

/-- Only the organization of a request matters. -/
theorem emailsExclusive_iff_of_replaced {organizationId : OrganizationID} {store : OrganizationStore}
    (stores : ∀ other, served.user.store other =
      if other = organizationId then store else backend.user.store other)
    (later : backend.clock ≤ now) (exclusive : backend.EmailsExclusive) :
    EmailsExclusive { served with clock := now } ↔
      store.IndexExact ∧ ∀ instant, now ≤ instant → store.EmailsUnique instant := by
  constructor
  · intro all
    have here := all organizationId
    rwa [stores, if_pos rfl] at here
  · intro here other
    rw [stores]
    split
    · exact here
    · exact ⟨(exclusive other).1, fun instant le => (exclusive other).2 instant (later.trans le)⟩

/-- What an accepted request does to the emails. -/
theorem Accepted.emailsExclusive_iff {request : UserRequest}
    (accepted : backend.Accepted now request served) (later : backend.clock ≤ now)
    (exclusive : backend.EmailsExclusive) :
    EmailsExclusive { served with clock := now } ↔ backend.ReleasesEmails (now, request) := by
  have unique (organizationId : OrganizationID) (instant : DateTime) (le : now ≤ instant) :
      (backend.user.store organizationId).EmailsUnique instant :=
    (exclusive organizationId).2 instant (later.trans le)
  cases accepted with
  | organizationCreate fresh created same =>
    refine iff_of_true (fun other => ?_) trivial
    rw [same]
    exact ⟨(exclusive other).1, unique other⟩
  | @organizationBootstrap id _ _ _ _ _ _ found fresh bootstrapped admin accepted created stores =>
    rw [emailsExclusive_iff_of_replaced stores later exclusive]
    exact exclusive_createUser_iff accepted created (exclusive id).1 (unique id)
  | @userCreate answer _ _ _ _ _ _ _ _ connected admin accepted created stores =>
    rw [emailsExclusive_iff_of_replaced stores.2 later exclusive]
    exact exclusive_createUser_iff accepted created (exclusive answer.organizationId).1
      (unique answer.organizationId)
  | @deviceCreate answer _ _ _ _ _ _ _ _ _ connected payload date certifier owner certified created stores =>
    obtain ⟨-, -, rfl⟩ := OrganizationStore.createDevice_spec created
    rw [emailsExclusive_iff_of_replaced stores.2 later exclusive]
    exact iff_of_true ⟨(exclusive answer.organizationId).1.congr rfl rfl, fun instant le =>
      (OrganizationStore.emailsUnique_congr rfl).mpr (unique answer.organizationId instant le)⟩ trivial
  | @userRevoke answer _ _ _ _ _ _ connected admin authored foreign revoked stores =>
    rw [emailsExclusive_iff_of_replaced stores.2 later exclusive]
    exact iff_of_true ⟨(exclusive answer.organizationId).1.revokeUser revoked, fun instant le =>
      (unique answer.organizationId instant le).revokeUser revoked⟩ trivial

/-- Nobody is there in the beginning. -/
theorem emailsExclusive_init (start : DateTime) : EmailsExclusive { clock := start } := by
  intro organizationId
  refine ⟨fun email handle userId => iff_of_false (by simp [MemoryUserComponent.store]) ?_, ?_⟩
  · rintro ⟨-, user, found, -⟩
    cases found
  · rintro instant - email first second ⟨user, found, -⟩
    cases found

end UserBackend

/-- In every state that a run of accepted requests goes through, the index of human handles is exact and
active users have different emails, at that instant and every later one, exactly if every user that the run
creates has an email that no user with a pending revocation has. -/
theorem active_emails_unique_iff (start : DateTime) (events : List (DateTime × UserRequest)) :
    Along UserBackend.step? (fun _ _ next => next.EmailsExclusive) { clock := start } events ↔
      Along UserBackend.step? (fun backend event _ => backend.ReleasesEmails event) { clock := start }
        events := by
  have agree (backend : UserBackend) (event : DateTime × UserRequest) (next : UserBackend)
      (exclusive : backend.EmailsExclusive) (step : backend.step? event = some next) :
      next.EmailsExclusive ↔ backend.ReleasesEmails event := by
    obtain ⟨served, later, accepted, rfl⟩ := UserBackend.step?_spec step
    exact accepted.emailsExclusive_iff later exclusive
  refine along_congr UserBackend.EmailsExclusive agree ?_ (UserBackend.emailsExclusive_init start) events
  intro backend event next exclusive step released
  exact (agree backend event next exclusive step).mpr released

section Example

/-- Alice revokes Bob as of ten minutes later and gives his email to Bill. -/
private def reusedEmail : List (DateTime × UserRequest) :=
  let alice := newcomer 0 none 0 "alice" "alice@example.com" .admin 1
  [(0, .organizationCreate "org" "token" none),
    (0, .organizationBootstrap "org" ⟨"token", ⟨0⟩, alice.userCertificate, alice.deviceCertificate,
      none, none⟩),
    (1, .userCreate fromAlice (newcomer 1 (some alicesLaptop) 1 "bob" "bob@example.com" .standard 2)),
    (2, .userRevoke fromAlice ⟨⟨1⟩, some ⟨alicesLaptop, 600000000, "bob"⟩⟩),
    (3, .userCreate fromAlice (newcomer 1 (some alicesLaptop) 3 "bill" "bob@example.com" .standard 3))]

/-- Bob is active until his revocation, and Bill shares his email. -/
theorem revoked_later_shares_email :
    ∃ final, run? UserBackend.step? { clock := 0 } reusedEmail = some final ∧ ¬ final.EmailsExclusive := by
  refine ⟨_, rfl, fun exclusive => ?_⟩
  have unique := (exclusive "org").2 3 le_rfl "bob@example.com" "bob" "bill"
  exact absurd (unique ⟨_, rfl, rfl, rfl⟩ ⟨_, rfl, rfl, rfl⟩) (by decide)

end Example

end Guardata
