import Mathlib.Data.Set.Basic
import Guardata.Proofs.TrustchainLoads

/-! # Loads with a cache

A load takes the contents that are cached and adds the others to the cache. Where the cached contents and those
of the certificates say the same of each id, a load that succeeds leaves a cache that still does, and that has
an entry for every id that either the cache or a certificate had.
-/

namespace Guardata

section Cache

variable {κ α : Type}

/-- There is one true content for an id, which carries the id. -/
structure Truthful (idOf : α → κ) (truth : κ → α → Prop) : Prop where
  named : ∀ id content, truth id content → idOf content = id
  unique : ∀ id first second, truth id first → truth id second → first = second

variable [DecidableEq κ] {idOf : α → κ} {truth : κ → α → Prop} {dates : Set DateTime} {cacheValidity : ℤ}
  {cache : CertificateCache κ α} {now : DateTime}

namespace CertificateCache

/-- All contents are true. -/
def Holds (truth : κ → α → Prop) (cache : CertificateCache κ α) : Prop :=
  ∀ id cachedOn content, cache.get? id = some (cachedOn, content) → truth id content

/-- No entry has expired at one of the dates. -/
def ValidAt (cacheValidity : ℤ) (dates : Set DateTime) (cache : CertificateCache κ α) : Prop :=
  ∀ id cachedOn content, cache.get? id = some (cachedOn, content) → ∀ date ∈ dates,
    date - cachedOn < cacheValidity * 1000000

theorem ValidAt.getCached_eq (valid : cache.ValidAt cacheValidity dates) (present : now ∈ dates) (id : κ) :
    getCached cacheValidity cache now id = (cache.get? id).map Prod.snd := by
  unfold getCached
  split
  · next cachedOn content found =>
    rw [found, if_pos (valid id cachedOn content found now present)]
    rfl
  · next missing =>
    rw [missing]
    rfl

theorem ValidAt.getCached_eq_some_iff (valid : cache.ValidAt cacheValidity dates) (present : now ∈ dates)
    {id : κ} {content : α} : getCached cacheValidity cache now id = some content ↔
      ∃ cachedOn, cache.get? id = some (cachedOn, content) := by
  rw [valid.getCached_eq present, Option.map_eq_some_iff]
  constructor
  · rintro ⟨⟨cachedOn, _⟩, found, rfl⟩
    exact ⟨cachedOn, found⟩
  · rintro ⟨cachedOn, found⟩
    exact ⟨_, found, rfl⟩

theorem ValidAt.isSome_getCached (valid : cache.ValidAt cacheValidity dates) (present : now ∈ dates) (id : κ) :
    (getCached cacheValidity cache now id).isSome = cache.contains id := by
  rw [valid.getCached_eq present, Option.isSome_map, Dict.contains]

end CertificateCache

/-- The certificates can be read and are true. -/
def Genuine (idOf : α → κ) (truth : κ → α → Prop) (certifs : List (Signed α)) : Prop :=
  ∀ certif ∈ certifs, ∃ content, certif.payload = some content ∧ truth (idOf content) content

/-- Some certificate is about an id. -/
def About (idOf : α → κ) (certifs : List (Signed α)) (id : κ) : Prop :=
  ∃ certif ∈ certifs, ∃ content, certif.payload = some content ∧ idOf content = id

/-- What the states of a table are: those whose content was cached are verified. -/
def ReadTable (truth : κ → α → Prop) (cached : κ → Option α) (table : Dict κ (CertifState α)) : Prop :=
  ∀ id state, table.get? id = some state → truth id state.content ∧
    state.certif.payload = some state.content ∧ state.verified = (cached id).isSome

section Tables

variable {cached : κ → Option α} {states table : Dict κ (CertifState α)}

/-- A cached content says what the certificate says. -/
theorem loadState_eq (facts : Truthful idOf truth)
    (known : ∀ id content, cached id = some content → truth id content) {certif : Signed α} {content : α}
    (payload : certif.payload = some content) (true_ : truth (idOf content) content) :
    loadState idOf cached states certif =
      .ok (states.insert (idOf content) ⟨certif, content, (cached (idOf content)).isSome⟩) := by
  rw [loadState, Signed.unsecureLoad_eq_ok_iff.mpr payload, Except.mapError_ok, Except.ok_bind]
  cases found : cached (idOf content) with
  | none => rfl
  | some verified =>
    obtain rfl := facts.unique _ _ _ (known _ _ found) true_
    rfl

theorem loadStates_spec (facts : Truthful idOf truth)
    (known : ∀ id content, cached id = some content → truth id content) {certifs : List (Signed α)}
    (genuine : Genuine idOf truth certifs) (loaded : loadStates idOf cached certifs = .ok table) :
    ReadTable truth cached table ∧ ∀ id, table.contains id = true ↔ About idOf certifs id := by
  have from_ (start : Dict κ (CertifState α)) (read : ReadTable truth cached start)
      (loaded : certifs.foldlM (loadState idOf cached) start = .ok table) : ReadTable truth cached table ∧
        ∀ id, table.contains id = true ↔ start.contains id = true ∨ About idOf certifs id := by
    clear * - facts known genuine read loaded
    induction certifs generalizing start with
    | nil =>
      cases loaded
      exact ⟨read, fun id => by simp [About]⟩
    | cons certif rest ih =>
      obtain ⟨content, payload, true_⟩ := genuine certif (List.mem_cons_self ..)
      rw [List.foldlM_cons, loadState_eq facts known payload true_, Except.ok_bind] at loaded
      have next : ReadTable truth cached
          (start.insert (idOf content) ⟨certif, content, (cached (idOf content)).isSome⟩) := by
        intro id state found
        rw [Dict.get?_insert] at found
        split at found
        · next same =>
          cases found
          subst same
          exact ⟨true_, payload, rfl⟩
        · exact read id state found
      obtain ⟨final, contains⟩ :=
        ih (fun other member => genuine other (List.mem_cons_of_mem _ member)) _ next loaded
      refine ⟨final, fun id => ?_⟩
      simp only [contains, Dict.contains_insert_iff, About, List.mem_cons, exists_eq_or_imp, payload,
        Option.some.injEq, exists_eq_left', eq_comm (a := id)]
      tauto
  obtain ⟨read, contains⟩ := from_ ∅ (by simp [ReadTable]) loaded
  exact ⟨read, fun id => (contains id).trans (by simp [Dict.contains])⟩

/-- A verification that returns what the certificate says changes no state. -/
theorem verifyStates_eq {verify : CertifState α → Except TrustchainError α} {states out : List (CertifState α)}
    (same : ∀ state ∈ states, ∀ content, verify state = .ok content → content = state.content)
    (verified : verifyStates verify states = .ok out) : out = states := by
  rw [verifyStates, Except.mapM_eq_ok_iff] at verified
  induction verified with
  | nil => rfl
  | @cons state next states out done _ ih =>
    rw [ih fun other member => same other (List.mem_cons_of_mem _ member)]
    congr 1
    split at done
    · cases done
      rfl
    · obtain ⟨content, accepted, rfl⟩ := Except.map_eq_ok_iff.mp done
      rw [same state (List.mem_cons_self ..) content accepted]

end Tables

/-- Where an entry of a populated cache comes from. -/
theorem get?_populateCache {states : List (CertifState α)} {id : κ} {entry : DateTime × α}
    (found : (populateCache idOf now states cache).get? id = some entry) :
    cache.get? id = some entry ∨
      ∃ state ∈ states, idOf state.content = id ∧ entry = (now, state.content) := by
  unfold populateCache at found
  induction states generalizing cache with
  | nil => exact .inl found
  | cons state rest ih =>
    rcases ih found with before | ⟨other, member, named, is⟩
    · dsimp only at before
      split at before
      · exact .inl before
      · rw [Dict.get?_insert] at before
        split at before
        · next same =>
          cases before
          exact .inr ⟨state, List.mem_cons_self .., same.symm, rfl⟩
        · exact .inl before
    · exact .inr ⟨other, List.mem_cons_of_mem _ member, named, is⟩

theorem contains_populateCache_iff {states : List (CertifState α)} {id : κ} :
    (populateCache idOf now states cache).contains id = true ↔
      cache.contains id = true ∨ ∃ state ∈ states, state.verified = false ∧ idOf state.content = id := by
  unfold populateCache
  induction states generalizing cache with
  | nil => simp
  | cons state rest ih =>
    rw [List.foldl_cons, ih]
    cases verified : state.verified with
    | true => simp [verified]
    | false =>
      simp only [Bool.false_eq_true, ↓reduceIte, Dict.contains_insert_iff, List.mem_cons, exists_eq_or_imp,
        verified, true_and]
      rw [or_comm (a := id = _), or_assoc, eq_comm (a := id)]

theorem CertificateCache.Holds.getCached (holds : cache.Holds truth)
    (valid : cache.ValidAt cacheValidity dates) (present : now ∈ dates) (id : κ) (content : α)
    (found : getCached cacheValidity cache now id = some content) : truth id content := by
  obtain ⟨cachedOn, found⟩ := (valid.getCached_eq_some_iff present).mp found
  exact holds id cachedOn content found

/-- A cache after a load. -/
structure Populated (truth : κ → α → Prop) (cacheValidity : ℤ) (dates : Set DateTime) (idOf : α → κ)
    (certifs : List (Signed α)) (cache next : CertificateCache κ α) : Prop where
  holds : next.Holds truth
  validAt : next.ValidAt cacheValidity dates
  contains : ∀ id, next.contains id = true ↔ cache.contains id = true ∨ About idOf certifs id

/-- A load keeps a cache true, and fills it with what its certificates are about. -/
theorem populated_of_load (facts : Truthful idOf truth) (holds : cache.Holds truth)
    (valid : cache.ValidAt cacheValidity dates) (present : now ∈ dates)
    (soon : ∀ date ∈ dates, date - now < cacheValidity * 1000000) {certifs : List (Signed α)}
    (genuine : Genuine idOf truth certifs) {table : Dict κ (CertifState α)}
    (loaded : loadStates idOf (getCached cacheValidity cache now) certifs = .ok table) :
    Populated truth cacheValidity dates idOf certifs cache (populateCache idOf now table.values cache) := by
  obtain ⟨read, about⟩ := loadStates_spec facts (holds.getCached valid present) genuine loaded
  have listed {state : CertifState α} (member : state ∈ table.values) :
      ∃ id, table.get? id = some state ∧ truth id state.content ∧ idOf state.content = id := by
    obtain ⟨id, found⟩ := Dict.mem_values_iff.mp member
    exact ⟨id, found, (read id state found).1, facts.named _ _ (read id state found).1⟩
  refine ⟨fun id cachedOn content found => ?_, fun id cachedOn content found date within => ?_, fun id => ?_⟩
  · rcases get?_populateCache found with old | ⟨state, member, rfl, new⟩
    · exact holds id cachedOn content old
    · obtain ⟨id, -, true_, rfl⟩ := listed member
      cases new
      exact true_
  · rcases get?_populateCache found with old | ⟨state, -, -, new⟩
    · exact valid id cachedOn content old date within
    · cases new
      exact soon date within
  · rw [contains_populateCache_iff, ← about]
    constructor
    · rintro (old | ⟨state, member, -, rfl⟩)
      · exact .inl old
      · obtain ⟨id, found, -, rfl⟩ := listed member
        exact .inr (Dict.contains_eq_true_iff.mpr ⟨state, found⟩)
    · rintro (old | new)
      · exact .inl old
      · obtain ⟨state, found⟩ := Dict.contains_eq_true_iff.mp new
        obtain ⟨true_, -, verified⟩ := read id state found
        rw [valid.isSome_getCached present] at verified
        cases cachedBefore : cache.contains id with
        | true => exact .inl rfl
        | false => exact .inr ⟨state, Dict.mem_values_iff.mpr ⟨id, found⟩, verified.trans cachedBefore,
            facts.named _ _ true_⟩

end Cache

section Load

variable {rootVerifyKey : VerifyKey} {states : TrustchainStates}

theorem payload_of_verifyCreatedByDevice {α : Type} [CertificateContent α]
    {verifyAuthor : DeviceID → List ChainLink → Except TrustchainError DeviceCertificateContent}
    {certif : Signed α} {content : α} {author : DeviceID} {chain : List ChainLink}
    (accepted : verifyCreatedByDevice states verifyAuthor certif author chain = .ok content) :
    certif.payload = some content := by
  obtain ⟨-, -, -, payload, -⟩ := verifyCreatedByDevice_eq_ok_iff.mp accepted
  exact payload

theorem payload_of_verifyDevice {deviceId : DeviceID} {chain : List ChainLink}
    {content : DeviceCertificateContent}
    (accepted : verifyDevice rootVerifyKey states deviceId chain = .ok content) :
    ∃ state, states.devices.get? deviceId = some state ∧ state.certif.payload = some content := by
  unfold verifyDevice recursiveVerifyDevice at accepted
  split at accepted
  · cases accepted
  · split at accepted
    · cases accepted
    · next state found =>
      refine ⟨state, found, ?_⟩
      split at accepted
      · exact (verifyCreatedByRoot_eq_ok_iff.mp accepted).2.1
      · exact payload_of_verifyCreatedByDevice accepted

theorem payload_of_verifyUser {certif : Signed UserCertificateContent}
    {unverified content : UserCertificateContent}
    (accepted : verifyUser rootVerifyKey states unverified certif = .ok content) :
    certif.payload = some content := by
  unfold verifyUser at accepted
  split at accepted
  · exact (verifyCreatedByRoot_eq_ok_iff.mp accepted).2.1
  · split at accepted
    · cases accepted
    · exact payload_of_verifyCreatedByDevice accepted

theorem payload_of_verifyRevokedUser {certif : Signed RevokedUserCertificateContent}
    {unverified content : RevokedUserCertificateContent}
    (accepted : verifyRevokedUser rootVerifyKey states unverified certif = .ok content) :
    certif.payload = some content := by
  unfold verifyRevokedUser at accepted
  split at accepted
  · cases accepted
  · exact payload_of_verifyCreatedByDevice accepted

/-- What is true of users, of devices and of revocations. -/
structure CertificateTruths where
  user : UserID → UserCertificateContent → Prop
  device : DeviceID → DeviceCertificateContent → Prop
  revocation : UserID → RevokedUserCertificateContent → Prop

structure CertificateTruths.Truthful (truths : CertificateTruths) : Prop where
  user : Guardata.Truthful (·.userId) truths.user
  device : Guardata.Truthful (·.deviceId) truths.device
  revocation : Guardata.Truthful (·.userId) truths.revocation

/-- The caches of a context are true and have no entry that has expired. -/
structure TrustchainContext.Reliable (context : TrustchainContext) (truths : CertificateTruths)
    (dates : Set DateTime) : Prop where
  user : context.usersCache.Holds truths.user
  device : context.devicesCache.Holds truths.device
  revocation : context.revokedUsersCache.Holds truths.revocation
  userValid : context.usersCache.ValidAt context.cacheValidity dates
  deviceValid : context.devicesCache.ValidAt context.cacheValidity dates
  revocationValid : context.revokedUsersCache.ValidAt context.cacheValidity dates

/-- A load into the caches of a context. -/
structure TrustchainContext.Loads (context next : TrustchainContext) (truths : CertificateTruths)
    (dates : Set DateTime) (trustchain : TrustchainCertificates) (verified : VerifiedTrustchain) : Prop where
  reliable : next.Reliable truths dates
  cacheValidity : next.cacheValidity = context.cacheValidity
  users : ∀ id, next.usersCache.contains id = true ↔ context.usersCache.contains id = true ∨
    About (·.userId) trustchain.users id
  devices : ∀ id, next.devicesCache.contains id = true ↔ context.devicesCache.contains id = true ∨
    About (·.deviceId) trustchain.devices id
  revokedUsers : ∀ id, next.revokedUsersCache.contains id = true ↔
    context.revokedUsersCache.contains id = true ∨ About (·.userId) trustchain.revokedUsers id
  verifiedUsers : ∀ content ∈ verified.users, truths.user content.userId content ∧
    About (·.userId) trustchain.users content.userId
  verifiedDevices : ∀ content ∈ verified.devices, truths.device content.deviceId content ∧
    About (·.deviceId) trustchain.devices content.deviceId

def TrustchainCertificates.Genuine (certifs : TrustchainCertificates) (truths : CertificateTruths) : Prop :=
  Guardata.Genuine (·.userId) truths.user certifs.users ∧
    Guardata.Genuine (·.deviceId) truths.device certifs.devices ∧
    Guardata.Genuine (·.userId) truths.revocation certifs.revokedUsers

/-- The contents of a table are true, and each of them is that of a certificate. -/
theorem true_of_mem_values {κ α : Type} [DecidableEq κ] {idOf : α → κ} {truth : κ → α → Prop}
    {cached : κ → Option α} (facts : Truthful idOf truth)
    (known : ∀ id content, cached id = some content → truth id content) {certifs : List (Signed α)}
    (genuine : Genuine idOf truth certifs) {table : Dict κ (CertifState α)}
    (loaded : loadStates idOf cached certifs = .ok table) {content : α}
    (member : content ∈ table.values.map (·.content)) :
    truth (idOf content) content ∧ About idOf certifs (idOf content) := by
  obtain ⟨read, about⟩ := loadStates_spec facts known genuine loaded
  obtain ⟨state, listed, rfl⟩ := List.mem_map.mp member
  obtain ⟨id, found⟩ := Dict.mem_values_iff.mp listed
  have true_ := (read id state found).1
  rw [facts.named id _ true_]
  exact ⟨true_, (about id).mp (Dict.contains_eq_true_iff.mpr ⟨state, found⟩)⟩

/-- A verification that returns the payload returns the content of the state. -/
theorem verifyStates_eq_of_payload {κ α : Type} [DecidableEq κ] {truth : κ → α → Prop}
    {cached : κ → Option α} {table : Dict κ (CertifState α)} (read : ReadTable truth cached table)
    {verify : CertifState α → Except TrustchainError α} {out : List (CertifState α)}
    (returns : ∀ id state content, table.get? id = some state → verify state = .ok content →
      state.certif.payload = some content)
    (verified : verifyStates verify table.values = .ok out) : out = table.values := by
  refine verifyStates_eq (fun state member content accepted => ?_) verified
  obtain ⟨id, found⟩ := Dict.mem_values_iff.mp member
  have payload := (read id state found).2.1
  exact Option.some_inj.mp ((returns id state content found accepted).symm.trans payload)

theorem TrustchainContext.Reliable.load {context next : TrustchainContext} {truths : CertificateTruths}
    {dates : Set DateTime} {now : DateTime} {certifs : TrustchainCertificates} {verified : VerifiedTrustchain}
    (reliable : context.Reliable truths dates) (facts : truths.Truthful) (genuine : certifs.Genuine truths)
    (present : now ∈ dates) (soon : ∀ date ∈ dates, date - now < context.cacheValidity * 1000000)
    (loaded : context.loadTrustchain certifs.users certifs.revokedUsers certifs.devices now =
      .ok (verified, next)) : context.Loads next truths dates certifs verified := by
  obtain ⟨genuineUsers, genuineDevices, genuineRevoked⟩ := genuine
  simp only [loadTrustchain, loadTables, Except.bind_eq_ok_iff, Except.pure_eq_ok_iff, Prod.mk.injEq]
    at loaded
  obtain ⟨_, ⟨deviceTable, readDevices, userTable, readUsers, revokedTable, readRevoked, rfl⟩, devices,
    verifiedDevices, users, verifiedUsers, revoked, verifiedRevoked, rfl, rfl⟩ := loaded
  have knownUsers := reliable.user.getCached reliable.userValid present
  have knownDevices := reliable.device.getCached reliable.deviceValid present
  have knownRevoked := reliable.revocation.getCached reliable.revocationValid present
  have deviceStates := (loadStates_spec facts.device knownDevices genuineDevices readDevices).1
  have userStates := (loadStates_spec facts.user knownUsers genuineUsers readUsers).1
  have revokedStates := (loadStates_spec facts.revocation knownRevoked genuineRevoked readRevoked).1
  -- A device is verified through the table, so it is the payload of its own certificate that comes back.
  obtain rfl := verifyStates_eq_of_payload deviceStates (fun id state content found accepted => by
    obtain ⟨other, isOther, payload⟩ := payload_of_verifyDevice accepted
    rw [facts.device.named id _ (deviceStates id state found).1] at isOther
    cases found.symm.trans isOther
    exact payload) verifiedDevices
  obtain rfl := verifyStates_eq_of_payload userStates
    (fun _ _ _ _ accepted => payload_of_verifyUser accepted) verifiedUsers
  obtain rfl := verifyStates_eq_of_payload revokedStates
    (fun _ _ _ _ accepted => payload_of_verifyRevokedUser accepted) verifiedRevoked
  have newUsers := populated_of_load facts.user reliable.user reliable.userValid present soon genuineUsers
    readUsers
  have newDevices := populated_of_load facts.device reliable.device reliable.deviceValid present soon
    genuineDevices readDevices
  have newRevoked := populated_of_load facts.revocation reliable.revocation reliable.revocationValid present
    soon genuineRevoked readRevoked
  exact {
    reliable := ⟨newUsers.holds, newDevices.holds, newRevoked.holds, newUsers.validAt, newDevices.validAt,
      newRevoked.validAt⟩
    cacheValidity := rfl
    users := newUsers.contains
    devices := newDevices.contains
    revokedUsers := newRevoked.contains
    verifiedUsers := fun _ => true_of_mem_values facts.user knownUsers genuineUsers readUsers
    verifiedDevices := fun _ => true_of_mem_values facts.device knownDevices genuineDevices readDevices }

theorem mem_of_firstVerified {α : Type} {contents : List α} {content : α}
    (first : firstVerified contents = .ok content) : content ∈ contents := by
  rw [firstVerified, Option.elim_eq_ok_iff] at first
  exact List.mem_of_head? first

theorem checkExpectedUser_eq_ok_iff {expected userId : UserID} {err : UserID → TrustchainError} {done : Unit} :
    checkExpectedUser (some expected) userId err = .ok done ↔ userId = expected :=
  Except.require_eq_ok_iff

/-- What a load of an expected user returns, and where it comes from. -/
theorem loadUserAndDevices_spec {context next : TrustchainContext} {trustchain : TrustchainCertificates}
    {userCertif : Signed UserCertificateContent}
    {revokedUserCertif : Option (Signed RevokedUserCertificateContent)}
    {devicesCertifs : List (Signed DeviceCertificateContent)} {userId : UserID} {now : DateTime}
    {loaded : VerifiedUserAndDevices}
    (done : context.loadUserAndDevices trustchain userCertif revokedUserCertif devicesCertifs (some userId)
      now = .ok (loaded, next)) :
    ∃ verified, context.loadTrustchain (userCertif :: trustchain.users)
        (revokedUserCertif.toList ++ trustchain.revokedUsers) (devicesCertifs ++ trustchain.devices) now =
          .ok (verified, next) ∧
      loaded.user ∈ verified.users ∧ loaded.user.userId = userId ∧ loaded.devices ⊆ verified.devices ∧
      loaded.revokedUser.isSome = revokedUserCertif.isSome := by
  simp only [TrustchainContext.loadUserAndDevices, Except.bind_eq_ok_iff, Except.pure_eq_ok_iff,
    Prod.mk.injEq, checkExpectedUser_eq_ok_iff, Except.exists_done] at done
  obtain ⟨⟨verified, populated⟩, isLoaded, user, first, named, revoked, isRevoked, -, rfl, rfl⟩ := done
  refine ⟨verified, isLoaded, mem_of_firstVerified first, named, List.take_subset _ _, ?_⟩
  cases revokedUserCertif with
  | none =>
    cases isRevoked
    rfl
  | some certif =>
    simp only [firstRevoked, Except.bind_eq_ok_iff, Except.pure_eq_ok_iff] at isRevoked
    obtain ⟨content, -, -, -, rfl⟩ := isRevoked
    rfl

end Load

end Guardata
