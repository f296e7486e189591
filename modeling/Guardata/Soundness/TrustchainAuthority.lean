import Mathlib.Order.WellFoundedSet
import Guardata.Proofs.Trustchain

/-! # The authority behind a verified trustchain

A certificate is justified if its authority goes back to the root key in finitely many steps. The
verification asks less: that the tables back every certificate, where a table may say that an
author is an admin on the strength of a certificate that this author stands behind itself. A load
that succeeds returns justified certificates if nothing that was given last for its id rests on
itself; where no id comes with two different certificates, that is the only way. The dates of
revocations are respected in any case.
-/

namespace Guardata

open Relation

/-- A certificate content of any kind. -/
inductive Certificate where
  | user (content : UserCertificateContent)
  | revokedUser (content : RevokedUserCertificateContent)
  | device (content : DeviceCertificateContent)
deriving DecidableEq

namespace Certificate

def author : Certificate → Option DeviceID
  | user content => CertificateContent.author content
  | revokedUser content => CertificateContent.author content
  | device content => CertificateContent.author content

def timestamp : Certificate → DateTime
  | user content => CertificateContent.timestamp content
  | revokedUser content => CertificateContent.timestamp content
  | device content => CertificateContent.timestamp content

/-- The user that a certificate is about. -/
def subject : Certificate → UserID
  | user content => CertificateContent.verifiedUserId content
  | revokedUser content => CertificateContent.verifiedUserId content
  | device content => CertificateContent.verifiedUserId content

end Certificate

/-- The tables hold a certificate, signed with a key. -/
def TrustchainStates.SignedWith (states : TrustchainStates) (key : VerifyKey) : Certificate → Prop
  | .user content => ∃ state, states.users.get? content.userId = some state ∧ state.content = content ∧
      state.certif.signer = key
  | .revokedUser content => ∃ state, states.revokedUsers.get? content.userId = some state ∧
      state.content = content ∧ state.certif.signer = key
  | .device content => ∃ state, states.devices.get? content.deviceId = some state ∧
      state.content = content ∧ state.certif.signer = key

namespace TrustchainCertificates

/-- A certificate is given, signed with a key. -/
def SignedWith (given : TrustchainCertificates) (key : VerifyKey) : Certificate → Prop
  | .user content => ⟨key, some content⟩ ∈ given.users
  | .revokedUser content => ⟨key, some content⟩ ∈ given.revokedUsers
  | .device content => ⟨key, some content⟩ ∈ given.devices

end TrustchainCertificates

/-- The least set of given certificates whose authority goes back to the root key. -/
inductive Justified (root : VerifyKey) (given : TrustchainCertificates) : Certificate → Prop
  | root {certificate : Certificate} : given.SignedWith root certificate → certificate.author = none →
      Justified root given certificate
  | ownDevice {content device : DeviceCertificateContent} : Justified root given (.device device) →
      given.SignedWith device.verifyKey (.device content) → content.author = some device.deviceId →
      device.deviceId.userId = content.deviceId.userId → Justified root given (.device content)
  | admin {certificate : Certificate} {device : DeviceCertificateContent} {user : UserCertificateContent} :
      Justified root given (.device device) → Justified root given (.user user) →
      given.SignedWith device.verifyKey certificate → certificate.author = some device.deviceId →
      user.userId = device.deviceId.userId → user.profile = .admin → Justified root given certificate

section Last

variable {κ α : Type} [DecidableEq κ]

/-- The content of the last certificate about an id. -/
def lastAbout (idOf : α → κ) (certifs : List (Signed α)) (id : κ) : Option α :=
  (certifs.filterMap (·.payload)).reverse.find? fun content => idOf content = id

/-- Certificates about the same id say the same. -/
def SameById (idOf : α → κ) (certifs : List (Signed α)) : Prop :=
  ∀ first ∈ certifs.filterMap (·.payload), ∀ second ∈ certifs.filterMap (·.payload),
    idOf first = idOf second → first = second

theorem mem_of_lastAbout {idOf : α → κ} {certifs : List (Signed α)} {id : κ} {content : α}
    (last : lastAbout idOf certifs id = some content) :
    content ∈ certifs.filterMap (·.payload) ∧ idOf content = id :=
  ⟨List.mem_reverse.mp (List.mem_of_find?_eq_some last), by simpa using List.find?_some last⟩

end Last

namespace TrustchainCertificates

/-- A certificate rests on the device that signed it and, unless that is a device of the user it is
about, on the certificate of the user of that device, as these are given last. -/
inductive Rests (given : TrustchainCertificates) : Certificate → Certificate → Prop
  | device {certificate : Certificate} {authorId : DeviceID} {device : DeviceCertificateContent} :
      certificate.author = some authorId → lastAbout (·.deviceId) given.devices authorId = some device →
      given.Rests certificate (.device device)
  | user {certificate : Certificate} {authorId : DeviceID} {user : UserCertificateContent} :
      certificate.author = some authorId → authorId.userId ≠ certificate.subject →
      lastAbout (·.userId) given.users authorId.userId = some user → given.Rests certificate (.user user)

/-- No certificate rests on itself, directly or through others. -/
def Acyclic (given : TrustchainCertificates) : Prop :=
  ∀ certificate, ¬ TransGen given.Rests certificate certificate

/-- No user and no device comes with two different certificates. -/
structure Unambiguous (given : TrustchainCertificates) : Prop where
  users : SameById (·.userId) given.users
  devices : SameById (·.deviceId) given.devices

end TrustchainCertificates

/-- What a load returns. -/
def VerifiedTrustchain.Returned (result : VerifiedTrustchain) : Certificate → Prop
  | .user content => content ∈ result.users
  | .revokedUser content => content ∈ result.revokedUsers
  | .device content => content ∈ result.devices

variable {root : VerifyKey} {states : TrustchainStates} {given : TrustchainCertificates}

theorem TrustchainStates.Verified.endorsed (verified : states.Verified root) {certificate : Certificate}
    {key : VerifyKey} (signed : states.SignedWith key certificate) :
    (certificate.author = none ∧ key = root) ∨
    ∃ authorId device, certificate.author = some authorId ∧ states.devices.get? authorId = some device ∧
      key = device.content.verifyKey ∧
      (authorId.userId ≠ certificate.subject → ∃ authorUser,
        states.users.get? authorId.userId = some authorUser ∧ authorUser.content.profile = .admin) ∧
      ∀ revoked, states.revokedUsers.get? authorId.userId = some revoked →
        certificate.timestamp ≤ revoked.content.timestamp := by
  cases certificate with
  | user content =>
    obtain ⟨state, found, rfl, rfl⟩ := signed
    exact (verified.users _ state found).1
  | revokedUser content =>
    obtain ⟨state, found, rfl, rfl⟩ := signed
    exact (verified.revokedUsers _ state found).1
  | device content =>
    obtain ⟨state, found, rfl, rfl⟩ := signed
    exact verified.devices _ state found

theorem signedWith_device (fresh : states.Fresh) {id : DeviceID}
    {state : CertifState DeviceCertificateContent} (found : states.devices.get? id = some state) :
    states.SignedWith state.certif.signer (.device state.content) := by
  have named : state.content.deviceId = id := (fresh.devices id state found).2.2
  exact ⟨state, named ▸ found, rfl, rfl⟩

theorem signedWith_user (fresh : states.Fresh) {id : UserID}
    {state : CertifState UserCertificateContent} (found : states.users.get? id = some state) :
    states.SignedWith state.certif.signer (.user state.content) := by
  have named : state.content.userId = id := (fresh.users id state found).2.2
  exact ⟨state, named ▸ found, rfl, rfl⟩

/-- A table holds what is given last about every id, and nothing that is not given. -/
structure ReadFrom {κ α : Type} [DecidableEq κ] (idOf : α → κ) (certifs : List (Signed α))
    (table : Dict κ (CertifState α)) : Prop where
  last : ∀ id, (table.get? id).map (·.content) = lastAbout idOf certifs id
  given : ∀ id state, table.get? id = some state → state.certif ∈ certifs

private theorem readFrom_foldlM {κ α : Type} [DecidableEq κ] {idOf : α → κ} {certifs : List (Signed α)}
    {start table : Dict κ (CertifState α)}
    (loaded : certifs.foldlM (loadState idOf fun _ => none) start = .ok table) :
    (∀ id, (table.get? id).map (·.content) =
      (lastAbout idOf certifs id).or ((start.get? id).map (·.content))) ∧
    ∀ id state, table.get? id = some state → state.certif ∈ certifs ∨ start.get? id = some state := by
  induction certifs generalizing start with
  | nil =>
    cases loaded
    exact ⟨fun id => rfl, fun id state found => .inr found⟩
  | cons certif rest ih =>
    simp only [List.foldlM_cons, loadState, Except.bind_eq_ok_iff, Except.mapError_eq_ok_iff,
      Signed.unsecureLoad_eq_ok_iff, Except.pure_eq_ok_iff] at loaded
    obtain ⟨next, ⟨content, payload, rfl⟩, later⟩ := loaded
    obtain ⟨last, among⟩ := ih later
    refine ⟨fun id => ?_, fun id state found => ?_⟩
    · rw [last, lastAbout, lastAbout, List.filterMap_cons_some payload, List.reverse_cons, List.find?_append,
        Option.or_assoc, Dict.get?_insert]
      congr 1
      by_cases here : id = idOf content
      · simp [here]
      · simp [here, Ne.symm here]
    · rcases among id state found with listed | earlier
      · exact .inl (List.mem_cons_of_mem _ listed)
      · rw [Dict.get?_insert] at earlier
        split_ifs at earlier
        · cases earlier
          exact .inl (List.mem_cons_self ..)
        · exact .inr earlier

theorem readFrom_of_loadStates {κ α : Type} [DecidableEq κ] {idOf : α → κ} {certifs : List (Signed α)}
    {table : Dict κ (CertifState α)} (loaded : loadStates idOf (fun _ => none) certifs = .ok table) :
    ReadFrom idOf certifs table := by
  obtain ⟨last, among⟩ := readFrom_foldlM loaded
  exact ⟨fun id => by simpa using last id, fun id state found => by simpa using among id state found⟩

/-- The tables are those that the given certificates are read into. -/
structure TrustchainStates.Reads (states : TrustchainStates) (given : TrustchainCertificates) : Prop where
  users : ReadFrom (·.userId) given.users states.users
  revokedUsers : ReadFrom (·.userId) given.revokedUsers states.revokedUsers
  devices : ReadFrom (·.deviceId) given.devices states.devices

theorem reads_of_loadTables {cacheValidity : ℤ} {now : DateTime}
    (tables : TrustchainContext.loadTables { rootVerifyKey := root, cacheValidity } given.users
      given.revokedUsers given.devices now = .ok states) : states.Reads given := by
  simp only [TrustchainContext.loadTables, Except.bind_eq_ok_iff, Except.pure_eq_ok_iff] at tables
  obtain ⟨deviceTable, devicesRead, userTable, usersRead, revokedTable, revokedRead, rfl⟩ := tables
  exact ⟨readFrom_of_loadStates usersRead, readFrom_of_loadStates revokedRead, readFrom_of_loadStates devicesRead⟩

theorem TrustchainStates.Reads.last_device (reads : states.Reads given) {id : DeviceID}
    {state : CertifState DeviceCertificateContent} (found : states.devices.get? id = some state) :
    lastAbout (·.deviceId) given.devices id = some state.content := by
  rw [← reads.devices.last, found, Option.map_some]

theorem TrustchainStates.Reads.last_user (reads : states.Reads given) {id : UserID}
    {state : CertifState UserCertificateContent} (found : states.users.get? id = some state) :
    lastAbout (·.userId) given.users id = some state.content := by
  rw [← reads.users.last, found, Option.map_some]

/-- What the tables hold is given. -/
theorem TrustchainStates.Reads.signedWith (reads : states.Reads given) (fresh : states.Fresh)
    {certificate : Certificate} {key : VerifyKey} (signed : states.SignedWith key certificate) :
    given.SignedWith key certificate := by
  have same {α : Type} {certif : Signed α} {content : α} (payload : certif.payload = some content) :
      certif = ⟨certif.signer, some content⟩ := by
    rw [← payload]
  cases certificate with
  | user content =>
    obtain ⟨state, found, rfl, rfl⟩ := signed
    exact same (fresh.users _ _ found).2.1 ▸ reads.users.given _ _ found
  | revokedUser content =>
    obtain ⟨state, found, rfl, rfl⟩ := signed
    exact same (fresh.revokedUsers _ _ found).2.1 ▸ reads.revokedUsers.given _ _ found
  | device content =>
    obtain ⟨state, found, rfl, rfl⟩ := signed
    exact same (fresh.devices _ _ found).2.1 ▸ reads.devices.given _ _ found

theorem Justified.signed {certificate : Certificate} (justified : Justified root given certificate) :
    ∃ key, given.SignedWith key certificate := by
  cases justified with
  | root signed _ => exact ⟨_, signed⟩
  | ownDevice _ signed _ _ => exact ⟨_, signed⟩
  | admin _ _ signed _ _ _ => exact ⟨_, signed⟩

/-- What rests on justified certificates only is justified. -/
theorem justified_of_rests (verified : states.Verified root) (reads : states.Reads given)
    {certificate : Certificate} {key : VerifyKey} (present : states.SignedWith key certificate)
    (below : ∀ other, given.Rests certificate other → Justified root given other) :
    Justified root given certificate := by
  have signed := reads.signedWith verified.fresh present
  rcases verified.endorsed present with ⟨unsigned, rfl⟩ |
    ⟨authorId, device, authored, found, rfl, profile, -⟩
  · exact .root signed unsigned
  have named : device.content.deviceId = authorId := (verified.fresh.devices _ _ found).2.2
  have justified := below _ (.device authored (reads.last_device found))
  by_cases own : authorId.userId = certificate.subject
  · cases certificate with
    | user content =>
      obtain ⟨state, held, rfl, -⟩ := present
      exact absurd own ((verified.users _ state held).2 authorId authored)
    | revokedUser content =>
      obtain ⟨state, held, rfl, -⟩ := present
      cases authored
      exact absurd own (verified.revokedUsers _ state held).2
    | device content => exact .ownDevice justified signed (named ▸ authored) (named ▸ own)
  · obtain ⟨authorUser, held, admin⟩ := profile own
    have user : authorUser.content.userId = authorId.userId := (verified.fresh.users _ _ held).2.2
    refine .admin justified (below _ (.user authored own (reads.last_user held))) signed (named ▸ authored) ?_ admin
    rw [user, named]

theorem mem_payloads {α : Type} {certifs : List (Signed α)} {key : VerifyKey} {content : α}
    (given : (⟨key, some content⟩ : Signed α) ∈ certifs) : content ∈ certifs.filterMap (·.payload) :=
  List.mem_filterMap.mpr ⟨_, given, rfl⟩

/-- The device behind a justified certificate is the one that is given last, if there is only one. -/
private theorem device_of_justified (single : given.Unambiguous) {device last : DeviceCertificateContent}
    (justified : Justified root given (.device device))
    (found : lastAbout (·.deviceId) given.devices device.deviceId = some last) : last = device := by
  obtain ⟨key, signed⟩ := justified.signed
  obtain ⟨listed, named⟩ := mem_of_lastAbout found
  exact single.devices _ listed _ (mem_payloads signed) named

private theorem user_of_justified (single : given.Unambiguous) {user last : UserCertificateContent}
    {userId : UserID} (justified : Justified root given (.user user)) (named : user.userId = userId)
    (found : lastAbout (·.userId) given.users userId = some last) : last = user := by
  obtain ⟨key, signed⟩ := justified.signed
  obtain ⟨listed, same⟩ := mem_of_lastAbout found
  exact single.users _ listed _ (mem_payloads signed) (same.trans named.symm)

/-- Where ids are unambiguous, the chains of certificates below a justified one are finite. -/
theorem Justified.acc (single : given.Unambiguous) {certificate : Certificate}
    (justified : Justified root given certificate) : Acc (Function.swap given.Rests) certificate := by
  induction justified with
  | root _ unsigned =>
    refine ⟨_, fun other rests => ?_⟩
    cases rests with
    | device authored _ => rw [unsigned] at authored; cases authored
    | user authored _ _ => rw [unsigned] at authored; cases authored
  | ownDevice below _ authored own ih =>
    refine ⟨_, fun other rests => ?_⟩
    cases rests with
    | device again found =>
      cases authored.symm.trans again
      rwa [device_of_justified single below found]
    | user again foreign _ =>
      cases authored.symm.trans again
      exact absurd own foreign
  | admin below belowUser _ authored named _ ih ihUser =>
    refine ⟨_, fun other rests => ?_⟩
    cases rests with
    | device again found =>
      cases authored.symm.trans again
      rwa [device_of_justified single below found]
    | user again _ found =>
      cases authored.symm.trans again
      rwa [user_of_justified single belowUser named found]

theorem not_transGen_of_acc {α : Type} {rel : α → α → Prop} {start : α}
    (acc : Acc (Function.swap rel) start) :
    ¬ TransGen rel start start := by
  intro cycle
  have back : TransGen (Function.swap rel) start start := transGen_swap.mpr cycle
  have deep := acc.transGen
  clear acc cycle
  induction deep with
  | intro current _ ih => exact ih current back back

theorem finite_signed (states : TrustchainStates) :
    {certificate | ∃ key, states.SignedWith key certificate}.Finite := by
  refine (List.finite_toSet (states.users.values.map (fun state => Certificate.user state.content) ++
    states.revokedUsers.values.map (fun state => Certificate.revokedUser state.content) ++
    states.devices.values.map fun state => Certificate.device state.content)).subset ?_
  rintro certificate ⟨key, signed⟩
  simp only [List.mem_append, List.mem_map, Set.mem_ofPred_eq]
  cases certificate with
  | user content =>
    obtain ⟨state, found, rfl, -⟩ := signed
    exact .inl (.inl ⟨state, Dict.mem_values_iff.mpr ⟨_, found⟩, rfl⟩)
  | revokedUser content =>
    obtain ⟨state, found, rfl, -⟩ := signed
    exact .inl (.inr ⟨state, Dict.mem_values_iff.mpr ⟨_, found⟩, rfl⟩)
  | device content =>
    obtain ⟨state, found, rfl, -⟩ := signed
    exact .inr ⟨state, Dict.mem_values_iff.mpr ⟨_, found⟩, rfl⟩

/-- The tables hold whatever a certificate rests on. -/
theorem signed_of_rests (fresh : states.Fresh) (reads : states.Reads given) {certificate other : Certificate}
    (rests : given.Rests certificate other) : ∃ key, states.SignedWith key other := by
  cases rests with
  | device _ last =>
    rw [← reads.devices.last] at last
    obtain ⟨state, found, rfl⟩ := Option.map_eq_some_iff.mp last
    exact ⟨_, signedWith_device fresh found⟩
  | user _ _ last =>
    rw [← reads.users.last] at last
    obtain ⟨state, found, rfl⟩ := Option.map_eq_some_iff.mp last
    exact ⟨_, signedWith_user fresh found⟩

/-- Verified tables are justified throughout if nothing in them rests on itself. -/
theorem justified_of_acyclic (verified : states.Verified root) (reads : states.Reads given)
    (acyclic : given.Acyclic) {certificate : Certificate} {key : VerifyKey}
    (signed : states.SignedWith key certificate) : Justified root given certificate := by
  have : IsStrictOrder Certificate (TransGen (Function.swap given.Rests)) :=
    { irrefl := fun start cycle => acyclic start (transGen_swap.mp cycle)
      trans := fun _ _ _ => TransGen.trans }
  have founded := (finite_signed states).wellFoundedOn (r := TransGen (Function.swap given.Rests))
  refine founded.induction (P := Justified root given) ⟨key, signed⟩ ?_
  rintro current ⟨currentKey, currentSigned⟩ below
  refine justified_of_rests verified reads currentSigned fun other rests => ?_
  exact below other (signed_of_rests verified.fresh reads rests) (.single rests)

/-- Where ids are unambiguous, nothing rests on itself if the tables are justified throughout. -/
theorem acyclic_of_justified (verified : states.Verified root) (reads : states.Reads given)
    (single : given.Unambiguous)
    (justified : ∀ certificate key, states.SignedWith key certificate → Justified root given certificate) :
    given.Acyclic := by
  intro certificate cycle
  obtain ⟨previous, -, last⟩ := TransGen.tail'_iff.mp cycle
  obtain ⟨key, signed⟩ := signed_of_rests verified.fresh reads last
  exact not_transGen_of_acc ((justified certificate key signed).acc single) cycle

section Load

variable {cacheValidity : ℤ} {users : List (Signed UserCertificateContent)}
  {revokedUsers : List (Signed RevokedUserCertificateContent)}
  {devices : List (Signed DeviceCertificateContent)} {now : DateTime} {result : VerifiedTrustchain}
  {context : TrustchainContext}

/-- A load that succeeds verified its tables and returns what stands in them. -/
theorem verified_of_load
    (tables : TrustchainContext.loadTables { rootVerifyKey := root, cacheValidity } users revokedUsers
      devices now = .ok states)
    (loaded : TrustchainContext.loadTrustchain { rootVerifyKey := root, cacheValidity } users revokedUsers
      devices now = .ok (result, context)) :
    states.Verified root ∧ ∀ certificate, result.Returned certificate ↔
      ∃ key, states.SignedWith key certificate := by
  have fresh := fresh_of_loadTables tables
  simp only [TrustchainContext.loadTrustchain, tables, Except.bind_eq_ok_iff, Except.ok.injEq,
    exists_eq_left', Except.pure_eq_ok_iff, Prod.mk.injEq] at loaded
  obtain ⟨deviceStates, devicesVerified, userStates, usersVerified, revokedStates, revokedVerified, rfl, -⟩ :=
    loaded
  obtain ⟨rfl, deviceEndorsed⟩ := verifyStates_spec
    (fun state => Endorsed root states state.certif.signer state.content) fresh.devices
    (fun state content payload found verified => by
      obtain ⟨other, present, same, endorsed⟩ := recursiveVerifyDevice_spec fresh verified
      cases found.symm.trans present
      exact ⟨same.symm, endorsed⟩) devicesVerified
  obtain ⟨rfl, userEndorsed⟩ := verifyStates_spec _ fresh.users
    (fun state content payload _ verified => verifyUser_spec fresh payload verified) usersVerified
  obtain ⟨rfl, revokedEndorsed⟩ := verifyStates_spec _ fresh.revokedUsers
    (fun state content payload _ verified => verifyRevokedUser_spec fresh payload verified) revokedVerified
  refine ⟨⟨fresh, userEndorsed, revokedEndorsed, deviceEndorsed⟩, fun certificate => ?_⟩
  cases certificate with
  | user content =>
    simp only [VerifiedTrustchain.Returned, List.mem_map, Dict.mem_values_iff]
    constructor
    · rintro ⟨state, ⟨id, found⟩, rfl⟩
      exact ⟨_, signedWith_user fresh found⟩
    · rintro ⟨key, state, found, same, -⟩
      exact ⟨state, ⟨_, found⟩, same⟩
  | revokedUser content =>
    simp only [VerifiedTrustchain.Returned, List.mem_map, Dict.mem_values_iff]
    constructor
    · rintro ⟨state, ⟨id, found⟩, rfl⟩
      have named : state.content.userId = id := (fresh.revokedUsers id state found).2.2
      exact ⟨_, state, named ▸ found, rfl, rfl⟩
    · rintro ⟨key, state, found, same, -⟩
      exact ⟨state, ⟨_, found⟩, same⟩
  | device content =>
    simp only [VerifiedTrustchain.Returned, List.mem_map, Dict.mem_values_iff]
    constructor
    · rintro ⟨state, ⟨id, found⟩, rfl⟩
      exact ⟨_, signedWith_device fresh found⟩
    · rintro ⟨key, state, found, same, -⟩
      exact ⟨state, ⟨_, found⟩, same⟩

/-- No certificate that a load returns is dated after a revocation of its author that it returns. -/
def VerifiedTrustchain.RespectsRevocations (result : VerifiedTrustchain) : Prop :=
  ∀ certificate, result.Returned certificate → ∀ revoked ∈ result.revokedUsers, ∀ authorId,
    certificate.author = some authorId → authorId.userId = revoked.userId →
    certificate.timestamp ≤ revoked.timestamp

theorem respectsRevocations_of_verified (verified : states.Verified root)
    (returned : ∀ certificate, result.Returned certificate ↔ ∃ key, states.SignedWith key certificate) :
    result.RespectsRevocations := by
  intro certificate present revoked listed authorId authored named
  obtain ⟨key, signed⟩ := (returned certificate).mp present
  obtain ⟨-, state, found, rfl, -⟩ := (returned (.revokedUser revoked)).mp listed
  rcases verified.endorsed signed with ⟨unsigned, -⟩ | ⟨other, device, same, -, -, -, older⟩
  · rw [authored] at unsigned
    cases unsigned
  · cases authored.symm.trans same
    exact older state (named ▸ found)

end Load

/-- Every certificate that a load with an empty cache returns is justified by the given ones and respects the
returned revocations, if no certificate rests on itself. Where no user and no device comes with two different
certificates, this is so only then. -/
theorem trustchain_well_founded_iff (root : VerifyKey) (cacheValidity : ℤ) (given : TrustchainCertificates)
    (now : DateTime) (result : VerifiedTrustchain) (context : TrustchainContext)
    (loaded : TrustchainContext.loadTrustchain { rootVerifyKey := root, cacheValidity } given.users
      given.revokedUsers given.devices now = .ok (result, context)) :
    (given.Acyclic →
      (∀ certificate, result.Returned certificate → Justified root given certificate) ∧
        result.RespectsRevocations) ∧
    (given.Unambiguous →
      (∀ certificate, result.Returned certificate → Justified root given certificate) ∧
        result.RespectsRevocations → given.Acyclic) := by
  obtain ⟨states, tables, -⟩ := Except.bind_eq_ok_iff.mp loaded
  obtain ⟨verified, returned⟩ := verified_of_load tables loaded
  have reads := reads_of_loadTables tables
  refine ⟨fun acyclic => ⟨fun certificate present => ?_, respectsRevocations_of_verified verified returned⟩,
    fun single claim => acyclic_of_justified verified reads single fun certificate key signed => ?_⟩
  · obtain ⟨key, signed⟩ := (returned certificate).mp present
    exact justified_of_acyclic verified reads acyclic signed
  · exact claim.1 certificate ((returned certificate).mpr ⟨key, signed⟩)

section Example

private def deviceNamed (user : String) : DeviceID := ⟨user, "dev"⟩

/-- The key of the root is zero, that of a device its own number. -/
private def userCertificate (signer : ℕ) (author : Option DeviceID) (userId : UserID)
    (profile : UserProfile) : Signed UserCertificateContent :=
  ⟨⟨signer⟩, some ⟨author, 0, userId, profile⟩⟩

private def deviceCertificate (signer : ℕ) (author : Option DeviceID) (userId : UserID) (key : ℕ) :
    Signed DeviceCertificateContent :=
  ⟨⟨signer⟩, some ⟨author, 0, deviceNamed userId, ⟨key⟩⟩⟩

/-- Alice is the admin that the root key signed; she signed a device of Mallory, who signed one of Nina. -/
private def someDevices : List (Signed DeviceCertificateContent) :=
  [deviceCertificate 0 none "alice" 1, deviceCertificate 1 (some (deviceNamed "alice")) "mallory" 2,
    deviceCertificate 2 (some (deviceNamed "mallory")) "nina" 3]

private def honestUsers : List (Signed UserCertificateContent) :=
  [userCertificate 0 none "alice" .admin,
    userCertificate 1 (some (deviceNamed "alice")) "mallory" .admin,
    userCertificate 2 (some (deviceNamed "mallory")) "nina" .standard]

/-- Mallory and Nina declare each other admins. -/
private def mutualAdmins : List (Signed UserCertificateContent) :=
  [userCertificate 0 none "alice" .admin,
    userCertificate 3 (some (deviceNamed "nina")) "mallory" .admin,
    userCertificate 2 (some (deviceNamed "mallory")) "nina" .admin]

private def honest : TrustchainCertificates := ⟨honestUsers, [], someDevices⟩

private def mutuallyForged : TrustchainCertificates := ⟨mutualAdmins, [], someDevices⟩

/-- How far the author of a certificate is from the root key. -/
private def distance (certificate : Certificate) : ℕ :=
  certificate.author.elim 0 fun author =>
    if author.userId = "alice" then 1 else if author.userId = "mallory" then 2 else 3

private theorem distance_lt {certificate other : Certificate} (rests : honest.Rests certificate other) :
    distance other < distance certificate := by
  cases rests with
  | @device authorId device authored found =>
    obtain ⟨listed, rfl⟩ := mem_of_lastAbout found
    have one : device ∈ [⟨none, 0, deviceNamed "alice", ⟨1⟩⟩,
        ⟨some (deviceNamed "alice"), 0, deviceNamed "mallory", ⟨2⟩⟩,
        ⟨some (deviceNamed "mallory"), 0, deviceNamed "nina", ⟨3⟩⟩] := listed
    simp only [List.mem_cons, List.not_mem_nil, or_false] at one
    rcases one with rfl | rfl | rfl <;> rw [distance, distance, authored] <;> decide
  | @user authorId user authored _ found =>
    obtain ⟨listed, named⟩ := mem_of_lastAbout found
    have one : user ∈ [⟨none, 0, "alice", .admin⟩, ⟨some (deviceNamed "alice"), 0, "mallory", .admin⟩,
        ⟨some (deviceNamed "mallory"), 0, "nina", .standard⟩] := listed
    simp only [List.mem_cons, List.not_mem_nil, or_false] at one
    rw [distance, distance, authored, Option.elim_some, ← named]
    rcases one with rfl | rfl | rfl <;> decide

private theorem acyclic_honest : honest.Acyclic := by
  have lower {certificate other : Certificate} (rests : TransGen honest.Rests certificate other) :
      distance other < distance certificate := by
    induction rests with
    | single rests => exact distance_lt rests
    | tail _ rests ih => exact (distance_lt rests).trans ih
  exact fun certificate cycle => (lower cycle).false

theorem trustchain_well_founded_iff_honest :
    ∃ result context,
      TrustchainContext.loadTrustchain { rootVerifyKey := ⟨0⟩, cacheValidity := 3600 } honest.users
        honest.revokedUsers honest.devices 0 = .ok (result, context) ∧ honest.Acyclic ∧
      (∀ certificate, result.Returned certificate → Justified ⟨0⟩ honest certificate) ∧
        result.RespectsRevocations :=
  ⟨_, _, rfl, acyclic_honest, (trustchain_well_founded_iff ⟨0⟩ 3600 honest 0 _ _ rfl).1 acyclic_honest⟩

private theorem unambiguous_mutuallyForged : mutuallyForged.Unambiguous where
  users := by unfold SameById; decide
  devices := by unfold SameById; decide

/-- Alice never made Mallory an admin, yet the load returns a certificate that says so: it is signed
by Nina, whom Mallory made an admin. -/
theorem mutual_admins_unjustified :
    ∃ result context,
      TrustchainContext.loadTrustchain { rootVerifyKey := ⟨0⟩, cacheValidity := 3600 } mutuallyForged.users
        mutuallyForged.revokedUsers mutuallyForged.devices 0 = .ok (result, context) ∧
      result.Returned (.user ⟨some (deviceNamed "nina"), 0, "mallory", .admin⟩) ∧
      ¬ Justified ⟨0⟩ mutuallyForged (.user ⟨some (deviceNamed "nina"), 0, "mallory", .admin⟩) := by
  have foreign : (deviceNamed "nina").userId ≠ "mallory" ∧ (deviceNamed "mallory").userId ≠ "nina" := by
    decide
  refine ⟨_, _, rfl, .tail _ (.head _), fun justified => ?_⟩
  refine not_transGen_of_acc (justified.acc unambiguous_mutuallyForged) ?_
  exact .tail (.single (.user rfl foreign.1 rfl)) (.user rfl foreign.2 rfl)

/-- The root key made Mallory an admin; Nina, whom Mallory made one, says so again. -/
private def twice : TrustchainCertificates :=
  ⟨[userCertificate 0 none "mallory" .admin, userCertificate 3 (some (deviceNamed "nina")) "mallory" .admin,
      userCertificate 2 (some (deviceNamed "mallory")) "nina" .admin],
    [], [deviceCertificate 0 none "mallory" 2, deviceCertificate 2 (some (deviceNamed "mallory")) "nina" 3]⟩

/-- With two certificates about Mallory, the ones that are given last may rest on each other, and still all of
them are justified, thanks to the one that the load has overwritten. -/
theorem justified_by_overwritten :
    ∃ result context,
      TrustchainContext.loadTrustchain { rootVerifyKey := ⟨0⟩, cacheValidity := 3600 } twice.users
        twice.revokedUsers twice.devices 0 = .ok (result, context) ∧
      (∀ certificate, result.Returned certificate → Justified ⟨0⟩ twice certificate) ∧ ¬ twice.Acyclic := by
  have foreign : (deviceNamed "nina").userId ≠ "mallory" ∧ (deviceNamed "mallory").userId ≠ "nina" := by
    decide
  have malloryDevice : Justified ⟨0⟩ twice (.device ⟨none, 0, deviceNamed "mallory", ⟨2⟩⟩) := .root (.head _) rfl
  have mallory : Justified ⟨0⟩ twice (.user ⟨none, 0, "mallory", .admin⟩) := .root (.head _) rfl
  have ninaDevice : Justified ⟨0⟩ twice (.device ⟨some (deviceNamed "mallory"), 0, deviceNamed "nina", ⟨3⟩⟩) :=
    .admin malloryDevice mallory (.tail _ (.head _)) rfl rfl rfl
  have nina : Justified ⟨0⟩ twice (.user ⟨some (deviceNamed "mallory"), 0, "nina", .admin⟩) :=
    .admin malloryDevice mallory (.tail _ (.tail _ (.head _))) rfl rfl rfl
  have again : Justified ⟨0⟩ twice (.user ⟨some (deviceNamed "nina"), 0, "mallory", .admin⟩) :=
    .admin ninaDevice nina (.tail _ (.head _)) rfl rfl rfl
  refine ⟨⟨[⟨some (deviceNamed "nina"), 0, "mallory", .admin⟩, ⟨some (deviceNamed "mallory"), 0, "nina", .admin⟩],
    [], [⟨none, 0, deviceNamed "mallory", ⟨2⟩⟩, ⟨some (deviceNamed "mallory"), 0, deviceNamed "nina", ⟨3⟩⟩]⟩, _,
    rfl, fun certificate returned => ?_, fun acyclic => ?_⟩
  · cases certificate with
    | user content =>
      rcases List.mem_cons.mp returned with rfl | rest
      · exact again
      · exact List.mem_singleton.mp rest ▸ nina
    | revokedUser content => cases returned
    | device content =>
      rcases List.mem_cons.mp returned with rfl | rest
      · exact malloryDevice
      · exact List.mem_singleton.mp rest ▸ ninaDevice
  · refine acyclic (.user ⟨some (deviceNamed "nina"), 0, "mallory", .admin⟩) ?_
    exact .tail (.single (.user rfl foreign.1 rfl)) (.user rfl foreign.2 rfl)

end Example

end Guardata
