import Guardata.Model.Trustchain

/-! # What a verified trustchain guarantees about each certificate

Every content that the tables of a successful load hold is endorsed: it is signed with the root
key, or with the key that the table of devices has for its author; then the author signs one of
its own devices or the table of users says that it is an admin, and no revocation of the author in
the tables is older. All of this is about the tables, not yet about what justifies them.
-/

namespace Guardata

open CertificateContent

section Verify

variable {α : Type} [CertificateContent α] {rootVerifyKey : VerifyKey} {states : TrustchainStates}
  {certif : Signed α} {content : α} {path : List ChainLink}

theorem verifyCreatedByRoot_eq_ok_iff :
    verifyCreatedByRoot rootVerifyKey certif path = .ok content ↔
      certif.signer = rootVerifyKey ∧ certif.payload = some content ∧ author content = none := by
  rw [verifyCreatedByRoot, Except.mapError_eq_ok_iff, Signed.verifyAndLoad_eq_ok_iff]

theorem checkAuthorProfile_eq_ok_iff {authorDevice : DeviceCertificateContent} {authorId : DeviceID}
    {done : Unit} :
    checkAuthorProfile states authorDevice authorId content path = .ok done ↔
      (authorDevice.deviceId.userId ≠ verifiedUserId content → ∃ authorUser,
        states.users.get? authorId.userId = some authorUser ∧ authorUser.content.profile = .admin) := by
  unfold checkAuthorProfile
  split
  · next same => simp [same]
  · next other => cases states.users.get? authorId.userId <;> simp [other]

theorem checkAuthorNotRevoked_eq_ok_iff {authorId : DeviceID} {done : Unit} :
    checkAuthorNotRevoked states authorId content path = .ok done ↔
      ∀ revoked, states.revokedUsers.get? authorId.userId = some revoked →
        timestamp content ≤ revoked.content.timestamp := by
  unfold checkAuthorNotRevoked
  cases states.revokedUsers.get? authorId.userId <;> simp

theorem verifyCreatedByDevice_eq_ok_iff
    {verifyAuthor : DeviceID → List ChainLink → Except TrustchainError DeviceCertificateContent}
    {authorId : DeviceID} :
    verifyCreatedByDevice states verifyAuthor certif authorId path = .ok content ↔
      ∃ authorDevice, verifyAuthor authorId path = .ok authorDevice ∧
        certif.signer = authorDevice.verifyKey ∧ certif.payload = some content ∧
        author content = some authorDevice.deviceId ∧
        (authorDevice.deviceId.userId ≠ verifiedUserId content → ∃ authorUser,
          states.users.get? authorId.userId = some authorUser ∧ authorUser.content.profile = .admin) ∧
        ∀ revoked, states.revokedUsers.get? authorId.userId = some revoked →
          timestamp content ≤ revoked.content.timestamp := by
  simp only [verifyCreatedByDevice, Except.bind_eq_ok_iff, Except.mapError_eq_ok_iff,
    Signed.verifyAndLoad_eq_ok_iff, checkAuthorProfile_eq_ok_iff, checkAuthorNotRevoked_eq_ok_iff,
    exists_const, Except.pure_eq_ok_iff]
  constructor
  · rintro ⟨authorDevice, found, verified, ⟨signer, payload, authored⟩, profile, revoked, rfl⟩
    exact ⟨authorDevice, found, signer, payload, authored, profile, revoked⟩
  · rintro ⟨authorDevice, found, signer, payload, authored, profile, revoked⟩
    exact ⟨authorDevice, found, content, ⟨signer, payload, authored⟩, profile, revoked, rfl⟩

/-- A content of the tables, with the key of its signature, is backed by the tables. -/
def Endorsed (rootVerifyKey : VerifyKey) (states : TrustchainStates) (signer : VerifyKey)
    (content : α) : Prop :=
  (author content = none ∧ signer = rootVerifyKey) ∨
  ∃ authorId device, author content = some authorId ∧ states.devices.get? authorId = some device ∧
    signer = device.content.verifyKey ∧
    (authorId.userId ≠ verifiedUserId content → ∃ authorUser,
      states.users.get? authorId.userId = some authorUser ∧ authorUser.content.profile = .admin) ∧
    ∀ revoked, states.revokedUsers.get? authorId.userId = some revoked →
      timestamp content ≤ revoked.content.timestamp

end Verify

/-- A table as it is read with an empty cache. -/
def FreshTable {κ α : Type} [DecidableEq κ] (idOf : α → κ) (table : Dict κ (CertifState α)) : Prop :=
  ∀ id state, table.get? id = some state →
    state.verified = false ∧ state.certif.payload = some state.content ∧ idOf state.content = id

structure TrustchainStates.Fresh (states : TrustchainStates) : Prop where
  users : FreshTable (·.userId) states.users
  revokedUsers : FreshTable (·.userId) states.revokedUsers
  devices : FreshTable (·.deviceId) states.devices

private theorem freshTable_foldlM {κ α : Type} [DecidableEq κ] {idOf : α → κ}
    {certifs : List (Signed α)} {start table : Dict κ (CertifState α)} (fresh : FreshTable idOf start)
    (loaded : certifs.foldlM (loadState idOf fun _ => none) start = .ok table) :
    FreshTable idOf table := by
  induction certifs generalizing start with
  | nil =>
    cases loaded
    exact fresh
  | cons certif rest ih =>
    simp only [List.foldlM_cons, Except.bind_eq_ok_iff, loadState, Except.mapError_eq_ok_iff,
      Signed.unsecureLoad_eq_ok_iff, Except.pure_eq_ok_iff] at loaded
    obtain ⟨next, ⟨content, payload, rfl⟩, tail⟩ := loaded
    refine ih ?_ tail
    intro id state found
    rw [Dict.get?_insert] at found
    split at found
    · next same =>
      cases found
      exact ⟨rfl, payload, same.symm⟩
    · exact fresh id state found

theorem freshTable_of_loadStates {κ α : Type} [DecidableEq κ] {idOf : α → κ}
    {certifs : List (Signed α)} {table : Dict κ (CertifState α)}
    (loaded : loadStates idOf (fun _ => none) certifs = .ok table) : FreshTable idOf table := by
  refine freshTable_foldlM ?_ loaded
  intro id state found
  cases found

theorem fresh_of_loadTables {rootVerifyKey : VerifyKey} {cacheValidity : ℤ}
    {users : List (Signed UserCertificateContent)}
    {revokedUsers : List (Signed RevokedUserCertificateContent)}
    {devices : List (Signed DeviceCertificateContent)} {now : DateTime} {states : TrustchainStates}
    (loaded : TrustchainContext.loadTables { rootVerifyKey, cacheValidity } users revokedUsers devices now =
      .ok states) : states.Fresh := by
  simp only [TrustchainContext.loadTables, Except.bind_eq_ok_iff, Except.pure_eq_ok_iff] at loaded
  obtain ⟨deviceTable, devicesRead, userTable, usersRead, revokedTable, revokedRead, rfl⟩ := loaded
  exact ⟨freshTable_of_loadStates usersRead, freshTable_of_loadStates revokedRead,
    freshTable_of_loadStates devicesRead⟩

section Devices

variable {rootVerifyKey : VerifyKey} {states : TrustchainStates}

/-- A device that verifies is the one of the table, and endorsed. -/
theorem recursiveVerifyDevice_spec (fresh : states.Fresh) {bound : ℕ} {deviceId : DeviceID}
    {chain : List ChainLink} {content : DeviceCertificateContent}
    (verified : recursiveVerifyDevice rootVerifyKey states bound deviceId chain = .ok content) :
    ∃ state, states.devices.get? deviceId = some state ∧ state.content = content ∧
      Endorsed rootVerifyKey states state.certif.signer state.content := by
  induction bound generalizing deviceId chain content with
  | zero => cases verified
  | succ bound ih =>
    unfold recursiveVerifyDevice at verified
    split at verified
    · cases verified
    split at verified
    · cases verified
    next state found =>
    obtain ⟨-, payload, -⟩ := fresh.devices deviceId state found
    split at verified
    · next unsigned =>
      obtain ⟨signer, decoded, -⟩ := verifyCreatedByRoot_eq_ok_iff.mp verified
      cases payload.symm.trans decoded
      exact ⟨state, found, rfl, .inl ⟨unsigned, signer⟩⟩
    · next authorId authored =>
      obtain ⟨authorDevice, authorVerified, signer, decoded, same, profile, revoked⟩ :=
        verifyCreatedByDevice_eq_ok_iff.mp verified
      cases payload.symm.trans decoded
      obtain ⟨authorState, authorFound, rfl, -⟩ := ih authorVerified
      have named : authorState.content.deviceId = authorId := (fresh.devices _ _ authorFound).2.2
      rw [named] at profile
      exact ⟨state, found, rfl,
        .inr ⟨authorId, authorState, authored, authorFound, signer, profile, revoked⟩⟩

/-- The devices of the table that are not part of a chain yet. -/
private def unvisited (states : TrustchainStates) (chain : List ChainLink) : List DeviceID :=
  states.devices.keys.filter fun deviceId => decide (ChainLink.device deviceId ∉ chain)

private theorem unvisited_lt {deviceId : DeviceID} {chain : List ChainLink}
    {state : CertifState DeviceCertificateContent} (found : states.devices.get? deviceId = some state)
    (unseen : ChainLink.device deviceId ∉ chain) :
    (unvisited states (chain ++ [.device deviceId])).length < (unvisited states chain).length := by
  have fewer : unvisited states (chain ++ [.device deviceId]) =
      (unvisited states chain).filter fun other => decide (other ≠ deviceId) := by
    rw [unvisited, unvisited, List.filter_filter]
    apply List.filter_congr
    intro other _
    simp [and_comm]
  rw [fewer, List.length_filter_lt_length_iff_exists]
  refine ⟨deviceId, List.mem_filter.mpr ⟨Dict.mem_keys_iff.mpr ⟨state, found⟩, by simpa using unseen⟩, ?_⟩
  simp

/-- The loop detection stops the recursion before it runs out of its bound. -/
private theorem recursiveVerifyDevice_ne_bound {bound : ℕ} {deviceId : DeviceID}
    {chain : List ChainLink} (room : (unvisited states chain).length < bound) :
    recursiveVerifyDevice rootVerifyKey states bound deviceId chain ≠ .error .recursionBound := by
  have translated {ε α : Type} {result : Except ε α} {translate : ε → TrustchainError}
      (other : ∀ err, translate err ≠ .recursionBound) :
      result.mapError translate ≠ .error .recursionBound := by
    cases result <;> simp [Except.mapError, other]
  induction bound generalizing deviceId chain with
  | zero => cases room
  | succ bound ih =>
    unfold recursiveVerifyDevice
    split
    · simp
    next unseen =>
    split
    · simp
    next state found =>
    split
    · exact translated (by simp)
    · refine Except.bind_ne_error (ih ?_) fun authorDevice => ?_
      · have fewer := unvisited_lt found unseen
        omega
      refine Except.bind_ne_error (translated (by simp)) fun verified => ?_
      refine Except.bind_ne_error ?_ fun _ => Except.bind_ne_error ?_ fun _ => by simp [pure, Except.pure]
      · unfold checkAuthorProfile Except.require
        split_ifs <;> (try split) <;> (try split) <;> simp
      · unfold checkAuthorNotRevoked Except.require
        split <;> (try split) <;> simp

theorem verifyDevice_ne_recursionBound (deviceId : DeviceID) (chain : List ChainLink) :
    verifyDevice rootVerifyKey states deviceId chain ≠ .error .recursionBound := by
  apply recursiveVerifyDevice_ne_bound
  have atMost : (unvisited states chain).length ≤ states.devices.keys.length := List.length_filter_le _ _
  rw [Dict.keys, List.length_map] at atMost
  omega

/-- What endorses a certificate that its author's device signed. -/
theorem endorsed_of_verifyCreatedByDevice {α : Type} [CertificateContent α] (fresh : states.Fresh)
    {certif : Signed α} {content verified : α} {authorId : DeviceID} {path : List ChainLink}
    (payload : certif.payload = some content) (authored : author content = some authorId)
    (created : verifyCreatedByDevice states (verifyDevice rootVerifyKey states) certif authorId path =
      .ok verified) : verified = content ∧ Endorsed rootVerifyKey states certif.signer content := by
  obtain ⟨authorDevice, authorVerified, signer, decoded, -, profile, revoked⟩ :=
    verifyCreatedByDevice_eq_ok_iff.mp created
  cases payload.symm.trans decoded
  obtain ⟨state, found, rfl, -⟩ := recursiveVerifyDevice_spec fresh authorVerified
  have named : state.content.deviceId = authorId := (fresh.devices _ _ found).2.2
  rw [named] at profile
  exact ⟨rfl, .inr ⟨authorId, state, authored, found, signer, profile, revoked⟩⟩

theorem verifyUser_spec (fresh : states.Fresh) {certif : Signed UserCertificateContent}
    {content verified : UserCertificateContent} (payload : certif.payload = some content)
    (accepted : verifyUser rootVerifyKey states content certif = .ok verified) :
    verified = content ∧ Endorsed rootVerifyKey states certif.signer content ∧
      ∀ authorId, content.author = some authorId → authorId.userId ≠ content.userId := by
  unfold verifyUser at accepted
  split at accepted
  · next unsigned =>
    obtain ⟨signer, decoded, -⟩ := verifyCreatedByRoot_eq_ok_iff.mp accepted
    cases payload.symm.trans decoded
    exact ⟨rfl, .inl ⟨unsigned, signer⟩, by simp [unsigned]⟩
  · next authorId authored =>
    split at accepted
    · cases accepted
    · next other =>
      obtain ⟨same, endorsed⟩ := endorsed_of_verifyCreatedByDevice fresh payload authored accepted
      exact ⟨same, endorsed, by simpa [authored] using other⟩

theorem verifyRevokedUser_spec (fresh : states.Fresh) {certif : Signed RevokedUserCertificateContent}
    {content verified : RevokedUserCertificateContent} (payload : certif.payload = some content)
    (accepted : verifyRevokedUser rootVerifyKey states content certif = .ok verified) :
    verified = content ∧ Endorsed rootVerifyKey states certif.signer content ∧
      content.author.userId ≠ content.userId := by
  unfold verifyRevokedUser at accepted
  split at accepted
  · cases accepted
  · next other =>
    obtain ⟨same, endorsed⟩ := endorsed_of_verifyCreatedByDevice fresh payload rfl accepted
    exact ⟨same, endorsed, other⟩

end Devices

/-- Verifying a fresh table whose contents verify to themselves changes nothing in it. -/
theorem verifyStates_spec {κ α : Type} [DecidableEq κ] {idOf : α → κ} {table : Dict κ (CertifState α)}
    {verify : CertifState α → Except TrustchainError α} (holds : CertifState α → Prop)
    (fresh : FreshTable idOf table)
    (same : ∀ state content, state.certif.payload = some state.content →
      table.get? (idOf state.content) = some state → verify state = .ok content →
      content = state.content ∧ holds state)
    {verified : List (CertifState α)} (accepted : verifyStates verify table.values = .ok verified) :
    verified = table.values ∧ ∀ id state, table.get? id = some state → holds state := by
  have each : ∀ (states verified : List (CertifState α)), (∀ state ∈ states, state ∈ table.values) →
      verifyStates verify states = .ok verified → verified = states ∧ ∀ state ∈ states, holds state := by
    intro states
    induction states with
    | nil =>
      intro verified _ accepted
      cases accepted
      exact ⟨rfl, by simp⟩
    | cons state rest ih =>
      intro verified listed accepted
      obtain ⟨id, found⟩ := Dict.mem_values_iff.mp (listed state (by simp))
      obtain ⟨unverified, payload, named⟩ := fresh id state found
      simp only [verifyStates, List.mapM_cons, unverified, Bool.false_eq_true, ↓reduceIte,
        Except.bind_eq_ok_iff, Except.pure_eq_ok_iff] at accepted
      obtain ⟨head, headAccepted, tail, tailAccepted, rfl⟩ := accepted
      obtain ⟨rfl, others⟩ := ih tail (fun other member => listed other (by simp [member])) tailAccepted
      cases content : verify state with
      | error err => simp [content, Except.map] at headAccepted
      | ok value =>
        obtain ⟨rfl, here⟩ := same state value payload (named ▸ found) content
        simp only [content, Except.map, Except.ok.injEq] at headAccepted
        rw [← unverified] at headAccepted
        subst headAccepted
        exact ⟨rfl, by simpa using ⟨here, others⟩⟩
  obtain ⟨unchanged, all⟩ := each _ _ (fun _ member => member) accepted
  exact ⟨unchanged, fun id state found => all state (Dict.mem_values_iff.mpr ⟨id, found⟩)⟩

/-- The certificates of the tables, with their signatures, are backed by the tables. -/
structure TrustchainStates.Verified (root : VerifyKey) (states : TrustchainStates) : Prop where
  fresh : states.Fresh
  users : ∀ id state, states.users.get? id = some state →
    Endorsed root states state.certif.signer state.content ∧
      ∀ authorId, state.content.author = some authorId → authorId.userId ≠ state.content.userId
  revokedUsers : ∀ id state, states.revokedUsers.get? id = some state →
    Endorsed root states state.certif.signer state.content ∧
      state.content.author.userId ≠ state.content.userId
  devices : ∀ id state, states.devices.get? id = some state →
    Endorsed root states state.certif.signer state.content

end Guardata
