import Guardata.Proofs.Trustchain

/-! # Loads that succeed

Certificates that can be read, and that agree wherever they are about the same user or device, make up tables
in which every one of them is found. If all that the tables hold is endorsed, and the signatures on devices
lead back to older and older devices, then a load with an empty cache succeeds and returns the contents of
the tables.
-/

namespace Guardata

open CertificateContent

section Tables

variable {κ α : Type} [DecidableEq κ] {idOf : α → κ}

/-- How a certificate is entered in a table, if it can be read. -/
def tableEntry (idOf : α → κ) (certif : Signed α) : Option (κ × CertifState α) :=
  certif.payload.map fun content => (idOf content, ⟨certif, content, false⟩)

/-- The table of readable certificates. -/
def freshTable (idOf : α → κ) (certifs : List (Signed α)) : Dict κ (CertifState α) :=
  .ofList (certifs.filterMap (tableEntry idOf))

/-- All can be read, and those about the same user or device are the same. -/
structure Agree (idOf : α → κ) (certifs : List (Signed α)) : Prop where
  readable : ∀ certif ∈ certifs, ∃ content, certif.payload = some content
  same : ∀ first ∈ certifs, ∀ second ∈ certifs, ∀ content other, first.payload = some content →
    second.payload = some other → idOf content = idOf other → first = second

theorem loadStates_eq_ok {certifs : List (Signed α)}
    (readable : ∀ certif ∈ certifs, ∃ content, certif.payload = some content) :
    loadStates idOf (fun _ => none) certifs = .ok (freshTable idOf certifs) := by
  have from_ (start : Dict κ (CertifState α)) : certifs.foldlM (loadState idOf fun _ => none) start =
      .ok (start.insertMany (certifs.filterMap (tableEntry idOf))) := by
    induction certifs generalizing start with
    | nil => rfl
    | cons certif rest ih =>
      obtain ⟨content, payload⟩ := readable certif (by simp)
      have loaded : loadState idOf (fun _ => none) start certif =
          .ok (start.insert (idOf content) ⟨certif, content, false⟩) := by
        rw [loadState, Signed.unsecureLoad_eq_ok_iff.mpr payload]
        rfl
      rw [List.foldlM_cons, loaded, Except.ok_bind, ih fun other member => readable other (by simp [member])]
      simp [tableEntry, payload, Dict.insertMany]
  exact from_ ∅

theorem Agree.get?_eq_some_iff {certifs : List (Signed α)} (agree : Agree idOf certifs) {id : κ}
    {state : CertifState α} : (freshTable idOf certifs).get? id = some state ↔
      state.certif ∈ certifs ∧ state.certif.payload = some state.content ∧ state.verified = false ∧
        idOf state.content = id := by
  have entered {key : κ} {value : CertifState α} :
      (key, value) ∈ certifs.filterMap (tableEntry idOf) ↔ value.certif ∈ certifs ∧
        value.certif.payload = some value.content ∧ value.verified = false ∧ idOf value.content = key := by
    simp only [List.mem_filterMap, tableEntry, Option.map_eq_some_iff, Prod.mk.injEq]
    constructor
    · rintro ⟨certif, member, content, payload, rfl, rfl⟩
      exact ⟨member, payload, rfl, rfl⟩
    · rintro ⟨member, payload, unverified, rfl⟩
      refine ⟨value.certif, member, value.content, payload, rfl, ?_⟩
      rw [← unverified]
  rw [freshTable, Dict.get?_ofList_eq_some_iff, entered]
  intro key first second isFirst isSecond
  obtain ⟨member, payload, unverified, named⟩ := entered.mp isFirst
  obtain ⟨member', payload', unverified', named'⟩ := entered.mp isSecond
  have same := agree.same _ member _ member' _ _ payload payload' (named.trans named'.symm)
  cases first
  cases second
  simp_all

omit [DecidableEq κ] in
theorem tableEntries_of_read (idOf : α → κ) {front : List (Signed α)} {contents : List α}
    (read : front.map (·.payload) = contents.map some) :
    (front.filterMap (tableEntry idOf)).map (fun entry => (entry.1, entry.2.content)) =
      contents.map fun content => (idOf content, content) := by
  induction front generalizing contents with
  | nil =>
    cases contents with
    | nil => rfl
    | cons content others => cases read
  | cons certif others ih =>
    cases contents with
    | nil => cases read
    | cons content later =>
      obtain ⟨payload, read⟩ := List.cons.inj read
      simp [tableEntry, payload, ih read]

/-- The entries of agreeing certificates stay where the first ones were put. -/
theorem Agree.items_freshTable {front rest : List (Signed α)} (agree : Agree idOf (front ++ rest))
    (distinct : ((front.filterMap (tableEntry idOf)).map Prod.fst).Nodup) :
    ∃ others, (freshTable idOf (front ++ rest)).items = front.filterMap (tableEntry idOf) ++ others := by
  have starts : (Dict.ofList (front.filterMap (tableEntry idOf))).items =
      front.filterMap (tableEntry idOf) ++ [] := by
    rw [List.append_nil, Dict.items_ofList_of_nodup distinct]
  rw [freshTable, List.filterMap_append, Dict.ofList, Dict.insertMany, List.foldl_append]
  refine Dict.items_insertMany_of_agree starts fun entry isEntry first isFirst sameKey => ?_
  obtain ⟨certif, member, entered⟩ := List.mem_filterMap.mp isEntry
  obtain ⟨other, otherMember, otherEntered⟩ := List.mem_filterMap.mp isFirst
  obtain ⟨content, payload, rfl⟩ := Option.map_eq_some_iff.mp entered
  obtain ⟨otherContent, otherPayload, rfl⟩ := Option.map_eq_some_iff.mp otherEntered
  have same := agree.same other (by simp [otherMember]) certif (by simp [member]) _ _ otherPayload payload
    sameKey
  subst same
  cases payload.symm.trans otherPayload
  rfl

/-- The certificates that come first in a list, about different users or devices, are the first ones
of the table. -/
theorem Agree.take_values {front rest : List (Signed α)} {contents : List α}
    (agree : Agree idOf (front ++ rest)) (read : front.map (·.payload) = contents.map some)
    (distinct : (contents.map idOf).Nodup) :
    ((freshTable idOf (front ++ rest)).values.map (·.content)).take contents.length = contents := by
  have entries := tableEntries_of_read idOf read
  have keys : (front.filterMap (tableEntry idOf)).map Prod.fst = contents.map idOf := by
    have := congrArg (List.map Prod.fst) entries
    simpa [Function.comp_def] using this
  have values : (front.filterMap (tableEntry idOf)).map (fun entry => entry.2.content) = contents := by
    have := congrArg (List.map Prod.snd) entries
    simpa [Function.comp_def] using this
  obtain ⟨others, items⟩ := agree.items_freshTable (keys ▸ distinct)
  have length : contents.length = (front.filterMap (tableEntry idOf)).length := by
    rw [← values, List.length_map]
  rw [Dict.values, items, List.map_append, List.map_append, List.map_map, length]
  simpa [Function.comp_def] using values

theorem Agree.firstVerified {certif : Signed α} {rest : List (Signed α)} {content : α}
    (agree : Agree idOf (certif :: rest)) (payload : certif.payload = some content) :
    firstVerified ((freshTable idOf (certif :: rest)).values.map (·.content)) = .ok content := by
  have listed : Agree idOf ([certif] ++ rest) := agree
  have read : [certif].map (·.payload) = [content].map some := by simp [payload]
  have front : ((freshTable idOf (certif :: rest)).values.map (·.content)).take 1 = [content] :=
    listed.take_values read (List.nodup_singleton _)
  generalize (freshTable idOf (certif :: rest)).values.map (·.content) = contents at front ⊢
  cases contents with
  | nil => cases front
  | cons first others =>
    cases front
    rfl

end Tables

section Devices

variable {rootVerifyKey : VerifyKey} {states : TrustchainStates} {rank : DeviceID → ℕ}

/-- Signatures on devices lead back to devices of lower rank. -/
def TrustchainStates.RankedBy (states : TrustchainStates) (rank : DeviceID → ℕ) : Prop :=
  ∀ id state author, states.devices.get? id = some state → state.content.author = some author →
    rank author < rank id

/-- Where signatures lead back to older devices, the devices of the tables verify. -/
theorem recursiveVerifyDevice_complete (verified : states.Verified rootVerifyKey)
    (older : states.RankedBy rank) {bound : ℕ} {deviceId : DeviceID} {chain : List ChainLink}
    {state : CertifState DeviceCertificateContent} (found : states.devices.get? deviceId = some state)
    (above : ∀ other, ChainLink.device other ∈ chain → rank deviceId < rank other) :
    recursiveVerifyDevice rootVerifyKey states bound deviceId chain = .ok state.content ∨
      recursiveVerifyDevice rootVerifyKey states bound deviceId chain = .error .recursionBound := by
  induction bound generalizing deviceId chain state with
  | zero => exact .inr rfl
  | succ bound ih =>
    have unseen : ChainLink.device deviceId ∉ chain := fun seen => lt_irrefl _ (above deviceId seen)
    obtain ⟨-, payload, named⟩ := verified.fresh.devices deviceId state found
    unfold recursiveVerifyDevice
    rw [if_neg unseen, found]
    rcases verified.devices deviceId state found with ⟨unsigned, signer⟩ |
      ⟨authorId, device, authored, isAuthor, signer, profile, dates⟩
    · have unsigned : state.content.author = none := unsigned
      simp only [unsigned]
      exact .inl (verifyCreatedByRoot_eq_ok_iff.mpr ⟨signer, payload, unsigned⟩)
    · have authored : state.content.author = some authorId := authored
      simp only [authored]
      have lower := older deviceId state authorId found authored
      have aboveAuthor (other : DeviceID)
          (member : ChainLink.device other ∈ chain ++ [ChainLink.device deviceId]) :
          rank authorId < rank other := by
        rcases List.mem_append.mp member with before | last
        · exact lower.trans (above other before)
        · cases List.mem_singleton.mp last
          exact lower
      have authorNamed : device.content.deviceId = authorId := (verified.fresh.devices _ _ isAuthor).2.2
      rcases ih isAuthor aboveAuthor with accepted | exhausted
      · refine .inl (verifyCreatedByDevice_eq_ok_iff.mpr ⟨device.content, accepted, signer, payload, ?_, ?_,
          dates⟩)
        · rw [authorNamed]
          exact authored
        · rwa [authorNamed]
      · right
        rw [verifyCreatedByDevice, exhausted]
        rfl

theorem verifyDevice_complete (verified : states.Verified rootVerifyKey)
    (older : states.RankedBy rank) {deviceId : DeviceID} {chain : List ChainLink}
    {state : CertifState DeviceCertificateContent} (found : states.devices.get? deviceId = some state)
    (above : ∀ other, ChainLink.device other ∈ chain → rank deviceId < rank other) :
    verifyDevice rootVerifyKey states deviceId chain = .ok state.content :=
  (recursiveVerifyDevice_complete verified older found above).resolve_right
    (verifyDevice_ne_recursionBound deviceId chain)

end Devices

section Load

variable {rootVerifyKey : VerifyKey} {states : TrustchainStates} {rank : DeviceID → ℕ}

/-- A certificate that is not about a device starts a chain. -/
theorem verifyCreatedByDevice_complete {α : Type} [CertificateContent α]
    (verified : states.Verified rootVerifyKey)
    (older : states.RankedBy rank) {certif : Signed α} {content : α} {authorId : DeviceID} {link : ChainLink}
    (payload : certif.payload = some content) (start : ∀ other, link ≠ .device other)
    (endorsed : Endorsed rootVerifyKey states certif.signer content)
    (authored : author content = some authorId) :
    verifyCreatedByDevice states (verifyDevice rootVerifyKey states) certif authorId
    [link] = .ok content := by
  rcases endorsed with ⟨unsigned, -⟩ | ⟨other, device, same, isAuthor, signer, profile, dates⟩
  · rw [authored] at unsigned
    cases unsigned
  · cases authored.symm.trans same
    have named : device.content.deviceId = authorId := (verified.fresh.devices _ _ isAuthor).2.2
    refine verifyCreatedByDevice_eq_ok_iff.mpr ⟨device.content, ?_, signer, payload, ?_, ?_, dates⟩
    · exact verifyDevice_complete verified older isAuthor fun other member =>
        absurd (List.mem_singleton.mp member).symm (start other)
    · rwa [named]
    · rwa [named]

theorem verifyUser_complete (verified : states.Verified rootVerifyKey)
    (older : states.RankedBy rank) {userId : UserID} {state : CertifState UserCertificateContent}
    (found : states.users.get? userId = some state) :
    verifyUser rootVerifyKey states state.content state.certif = .ok state.content := by
  obtain ⟨-, payload, -⟩ := verified.fresh.users userId state found
  obtain ⟨endorsed, foreign⟩ := verified.users userId state found
  unfold verifyUser
  split
  · next unsigned =>
    rcases endorsed with ⟨-, signer⟩ | ⟨authorId, -, authored, -⟩
    · exact verifyCreatedByRoot_eq_ok_iff.mpr ⟨signer, payload, unsigned⟩
    · cases unsigned.symm.trans authored
  · next authorId authored =>
    rw [if_neg (foreign authorId authored)]
    exact verifyCreatedByDevice_complete verified older payload (by simp) endorsed authored

theorem verifyRevokedUser_complete (verified : states.Verified rootVerifyKey)
    (older : states.RankedBy rank) {userId : UserID} {state : CertifState RevokedUserCertificateContent}
    (found : states.revokedUsers.get? userId = some state) :
    verifyRevokedUser rootVerifyKey states state.content state.certif = .ok state.content := by
  obtain ⟨-, payload, -⟩ := verified.fresh.revokedUsers userId state found
  obtain ⟨endorsed, foreign⟩ := verified.revokedUsers userId state found
  rw [verifyRevokedUser, if_neg foreign]
  exact verifyCreatedByDevice_complete verified older payload (by simp) endorsed rfl

theorem verifyStates_complete {α : Type} {verify : CertifState α → Except TrustchainError α}
    {states : List (CertifState α)} (accepted : ∀ state ∈ states, verify state = .ok state.content) :
    verifyStates verify states = .ok states := by
  induction states with
  | nil => rfl
  | cons state rest ih =>
    have head : (if state.verified then Except.ok state
        else (verify state).map fun content => { state with content := content }) =
          (.ok state : Except TrustchainError (CertifState α)) := by
      rw [accepted state (by simp)]
      split <;> rfl
    have tail : rest.mapM (fun state => if state.verified then Except.ok state
        else (verify state).map fun content => { state with content := content }) = .ok rest :=
      ih fun other member => accepted other (by simp [member])
    rw [verifyStates, List.mapM_cons, head, Except.ok_bind, tail]
    rfl

/-- A load succeeds on tables that are backed. -/
theorem loadTrustchain_complete {cacheValidity : ℤ} {users : List (Signed UserCertificateContent)}
    {revokedUsers : List (Signed RevokedUserCertificateContent)}
    {devices : List (Signed DeviceCertificateContent)} {now : DateTime}
    (tables : TrustchainContext.loadTables { rootVerifyKey, cacheValidity } users revokedUsers devices now =
      .ok states) (verified : states.Verified rootVerifyKey)
    (older : states.RankedBy rank) :
    ∃ context, TrustchainContext.loadTrustchain { rootVerifyKey, cacheValidity } users revokedUsers devices
      now = .ok (⟨states.users.values.map (·.content), states.revokedUsers.values.map (·.content),
        states.devices.values.map (·.content)⟩, context) := by
  have devicesVerified : verifyStates
      (fun state => verifyDevice rootVerifyKey states state.content.deviceId []) states.devices.values =
        .ok states.devices.values := by
    refine verifyStates_complete fun state member => ?_
    obtain ⟨id, found⟩ := Dict.mem_values_iff.mp member
    have named : state.content.deviceId = id := (verified.fresh.devices id state found).2.2
    rw [named]
    exact verifyDevice_complete verified older found (by simp)
  have usersVerified : verifyStates
      (fun state => verifyUser rootVerifyKey states state.content state.certif) states.users.values =
        .ok states.users.values := by
    refine verifyStates_complete fun state member => ?_
    obtain ⟨id, found⟩ := Dict.mem_values_iff.mp member
    exact verifyUser_complete verified older found
  have revokedVerified : verifyStates
      (fun state => verifyRevokedUser rootVerifyKey states state.content state.certif)
        states.revokedUsers.values = .ok states.revokedUsers.values := by
    refine verifyStates_complete fun state member => ?_
    obtain ⟨id, found⟩ := Dict.mem_values_iff.mp member
    exact verifyRevokedUser_complete verified older found
  rw [TrustchainContext.loadTrustchain, tables, Except.ok_bind, devicesVerified, Except.ok_bind,
    usersVerified, Except.ok_bind, revokedVerified]
  exact ⟨_, rfl⟩

theorem loadTables_complete {cacheValidity : ℤ} {users : List (Signed UserCertificateContent)}
    {revokedUsers : List (Signed RevokedUserCertificateContent)}
    {devices : List (Signed DeviceCertificateContent)} (now : DateTime)
    (usersAgree : Agree (·.userId) users) (revokedAgree : Agree (·.userId) revokedUsers)
    (devicesAgree : Agree (·.deviceId) devices) :
    TrustchainContext.loadTables { rootVerifyKey, cacheValidity } users revokedUsers devices now =
      .ok ⟨freshTable (·.userId) users, freshTable (·.userId) revokedUsers,
        freshTable (·.deviceId) devices⟩ := by
  have devicesRead : loadStates (DeviceCertificateContent.deviceId) (fun _ => none) devices = .ok _ :=
    loadStates_eq_ok devicesAgree.readable
  have usersRead : loadStates (UserCertificateContent.userId) (fun _ => none) users = .ok _ :=
    loadStates_eq_ok usersAgree.readable
  have revokedRead : loadStates (RevokedUserCertificateContent.userId) (fun _ => none) revokedUsers = .ok _ :=
    loadStates_eq_ok revokedAgree.readable
  change (loadStates DeviceCertificateContent.deviceId (fun _ => none) devices >>= fun devices =>
    loadStates UserCertificateContent.userId (fun _ => none) users >>= fun users =>
      loadStates RevokedUserCertificateContent.userId (fun _ => none) revokedUsers >>= fun revokedUsers =>
        pure (⟨users, revokedUsers, devices⟩ : TrustchainStates)) = _
  rw [devicesRead, Except.ok_bind, usersRead, Except.ok_bind, revokedRead]
  rfl

/-- The tables of a bundle: the certificates about one user, and its trustchain. -/
def bundleTables (trustchain : TrustchainCertificates) (userCertif : Signed UserCertificateContent)
    (revokedUserCertif : Option (Signed RevokedUserCertificateContent))
    (devicesCertifs : List (Signed DeviceCertificateContent)) : TrustchainStates :=
  ⟨freshTable (·.userId) (userCertif :: trustchain.users),
    freshTable (·.userId) (revokedUserCertif.toList ++ trustchain.revokedUsers),
    freshTable (·.deviceId) (devicesCertifs ++ trustchain.devices)⟩

/-- All certificates of a bundle can be read, and those about the same user or device are the same. -/
structure BundleAgrees (trustchain : TrustchainCertificates) (userCertif : Signed UserCertificateContent)
    (revokedUserCertif : Option (Signed RevokedUserCertificateContent))
    (devicesCertifs : List (Signed DeviceCertificateContent)) : Prop where
  users : Agree (·.userId) (userCertif :: trustchain.users)
  revokedUsers : Agree (·.userId) (revokedUserCertif.toList ++ trustchain.revokedUsers)
  devices : Agree (·.deviceId) (devicesCertifs ++ trustchain.devices)

section Bundle

variable {cacheValidity : ℤ} {trustchain : TrustchainCertificates}
  {userCertif : Signed UserCertificateContent}
  {revokedUserCertif : Option (Signed RevokedUserCertificateContent)}
  {devicesCertifs : List (Signed DeviceCertificateContent)} {user : UserCertificateContent}
  {revokedUser : Option RevokedUserCertificateContent} {devices : List DeviceCertificateContent}

theorem checkExpectedUser_eq_ok {expectedUserId : Option UserID} {userId : UserID}
    {err : UserID → TrustchainError} (expected : ∀ expected, expectedUserId = some expected →
    userId = expected) :
    checkExpectedUser expectedUserId userId err = .ok () := by
  cases expectedUserId with
  | none => rfl
  | some expectedUserId => exact Except.require_eq_ok_iff.mpr (expected _ rfl)

theorem forM_eq_ok {α ε : Type} {check : α → Except ε PUnit} {values : List α}
    (all : ∀ value ∈ values, check value = .ok ()) : values.forM check = .ok () := by
  induction values with
  | nil => rfl
  | cons value rest ih =>
    change (check value >>= fun _ => rest.forM check) = .ok ()
    rw [all value (by simp), Except.ok_bind]
    exact ih fun other member => all other (by simp [member])

/-- The contents are about the expected user. -/
structure AsExpected (expectedUserId : Option UserID) (loaded : VerifiedUserAndDevices) : Prop where
  user : ∀ expected, expectedUserId = some expected → loaded.user.userId = expected
  revokedUser : ∀ expected, expectedUserId = some expected → ∀ revoked, loaded.revokedUser = some revoked →
    revoked.userId = expected
  devices : ∀ expected, expectedUserId = some expected → ∀ device ∈ loaded.devices,
    device.deviceId.userId = expected

theorem firstRevoked_eq_ok {revokedUsers : List RevokedUserCertificateContent}
    {expectedUserId : Option UserID}
    (isRevoked : revokedUserCertif.map (·.payload) = revokedUser.map some)
    (first : ∀ revoked, revokedUser = some revoked → firstVerified revokedUsers = .ok revoked)
    (expected : ∀ expected, expectedUserId = some expected → ∀ revoked, revokedUser = some revoked →
      revoked.userId = expected) :
    firstRevoked revokedUserCertif revokedUsers expectedUserId = .ok revokedUser := by
  cases revokedUserCertif with
  | none =>
    cases revokedUser with
    | none => rfl
    | some revokedUser => cases isRevoked
  | some revokedUserCertif =>
    cases revokedUser with
    | none => cases isRevoked
    | some revokedUser =>
      have wanted : checkExpectedUser expectedUserId revokedUser.userId
          (fun expected => .unexpectedUser expected revokedUser.userId) = .ok () :=
        checkExpectedUser_eq_ok fun wanted is => expected wanted is revokedUser rfl
      rw [firstRevoked, first revokedUser rfl, Except.ok_bind, wanted]
      rfl

/-- What a load of a trustchain returns is picked from it. -/
theorem loadUserAndDevices_of_loadTrustchain {root context : TrustchainContext}
    {verified : VerifiedTrustchain}
    {expectedUserId : Option UserID} {now : DateTime}
    (loaded : root.loadTrustchain (userCertif :: trustchain.users)
      (revokedUserCertif.toList ++ trustchain.revokedUsers) (devicesCertifs ++ trustchain.devices) now =
        .ok (verified, context))
    (firstUser : firstVerified verified.users = .ok user)
    (revoked : firstRevoked revokedUserCertif verified.revokedUsers expectedUserId = .ok revokedUser)
    (firstDevices : verified.devices.take devicesCertifs.length = devices)
    (expected : AsExpected expectedUserId ⟨user, revokedUser, devices⟩) :
    root.loadUserAndDevices trustchain userCertif revokedUserCertif devicesCertifs expectedUserId now =
      .ok (⟨user, revokedUser, devices⟩, context) := by
  have userExpected : checkExpectedUser expectedUserId user.userId
      (fun expected => .unexpectedUser expected user.userId) = .ok () :=
    checkExpectedUser_eq_ok expected.user
  have devicesExpected : devices.forM (fun device => checkExpectedUser expectedUserId device.deviceId.userId
      fun expected => .unexpectedDevice expected device.deviceId) = .ok () :=
    forM_eq_ok fun device member =>
      checkExpectedUser_eq_ok fun wanted is => expected.devices wanted is device member
  rw [TrustchainContext.loadUserAndDevices, loaded, Except.ok_bind]
  simp only [firstUser, Except.ok_bind, userExpected, revoked, firstDevices, devicesExpected]
  rfl

/-- A bundle whose tables are backed loads, and yields what its certificates say. -/
theorem loadUserAndDevices_complete (now : DateTime)
    (agrees : BundleAgrees trustchain userCertif revokedUserCertif devicesCertifs)
    (verified : (bundleTables trustchain userCertif revokedUserCertif devicesCertifs).Verified rootVerifyKey)
    (older : (bundleTables trustchain userCertif revokedUserCertif devicesCertifs).RankedBy rank)
    (isUser : userCertif.payload = some user)
    (isRevoked : revokedUserCertif.map (·.payload) = revokedUser.map some)
    (areDevices : devicesCertifs.map (·.payload) = devices.map some)
    (distinct : (devices.map (·.deviceId)).Nodup) {expectedUserId : Option UserID}
    (expected : AsExpected expectedUserId ⟨user, revokedUser, devices⟩) :
    ∃ context, TrustchainContext.loadUserAndDevices { rootVerifyKey, cacheValidity } trustchain userCertif
      revokedUserCertif devicesCertifs expectedUserId now = .ok (⟨user, revokedUser, devices⟩, context) := by
  have tables : TrustchainContext.loadTables { rootVerifyKey, cacheValidity } _ _ _ now =
      .ok (bundleTables trustchain userCertif revokedUserCertif devicesCertifs) :=
    loadTables_complete now agrees.users agrees.revokedUsers agrees.devices
  obtain ⟨context, loaded⟩ := loadTrustchain_complete tables verified older
  have length : devicesCertifs.length = devices.length := by simpa using congrArg List.length areDevices
  refine ⟨context, loadUserAndDevices_of_loadTrustchain loaded (agrees.users.firstVerified isUser) ?_ ?_
    expected⟩
  · refine firstRevoked_eq_ok isRevoked ?_ expected.revokedUser
    rintro revoked rfl
    cases revokedUserCertif with
    | none => cases isRevoked
    | some certif => exact agrees.revokedUsers.firstVerified (Option.some_inj.mp isRevoked)
  · rw [length]
    exact agrees.devices.take_values areDevices distinct

end Bundle

end Load

end Guardata
