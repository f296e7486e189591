import Guardata.Model.Server
import Guardata.Proofs.RoleReplay

/-! # What an accepted vlob request and a cached role say

The inversion lemmas of the vlob component, and the reading of a list of role certificates at a
date. The certificates of a realm that were dated in the order of their reception are searched
from the end, so the answer is the newest one that the date admits: `roleAt_canWrite`. A client
that lacks only certificates about other users or of later dates reads the same: `roleAt_isPrefix`.
-/

namespace Guardata

open MemoryRealmComponent

namespace MemoryVlobComponent

variable {β : Type}

theorem getVlob_eq_ok_iff {component : MemoryVlobComponent β} {organizationId : OrganizationID}
    {vlobId : UUID} {vlob : Vlob β} :
    component.getVlob organizationId vlobId = .ok vlob ↔
      component.vlobs.get? (organizationId, vlobId) = some vlob := by
  unfold getVlob
  cases component.vlobs.get? (organizationId, vlobId) <;> simp

/-- Everything that an access check looks at. -/
theorem checkRealmAccess_eq_ok_iff {realms : MemoryRealmComponent} {organizationId : OrganizationID}
    {realmId : UUID} {userId : UserID} {revision : Option ℕ} {allowed : List (Option RealmRole)}
    {maintenance : Option Bool} {done : Unit} :
    checkRealmAccess realms organizationId realmId userId revision allowed maintenance = .ok done ↔
      ∃ realm, realms.realms.get? (organizationId, realmId) = some realm ∧
        realm.roles.get? userId ∈ allowed ∧ checkMaintenance realmId realm maintenance = .ok () ∧
        revision ∈ [none, some realm.status.encryptionRevision] := by
  simp only [checkRealmAccess, Except.bind_eq_ok_iff, Except.mapError_eq_ok_iff, getRealm_eq_ok_iff,
    Except.require_eq_ok_iff, exists_const, Except.exists_done]

/-- Access is granted in an existing realm, to a user with one of the roles. -/
theorem role_of_checkRealmAccess {realms : MemoryRealmComponent} {organizationId : OrganizationID}
    {realmId : UUID} {userId : UserID} {revision : Option ℕ} {allowed : List (Option RealmRole)}
    {maintenance : Option Bool} {done : Unit}
    (checked : checkRealmAccess realms organizationId realmId userId revision allowed maintenance =
      .ok done) :
    ∃ realm, realms.getRealm organizationId realmId = .ok realm ∧
      realm.roles.get? userId ∈ allowed := by
  obtain ⟨realm, found, allowed, -⟩ := checkRealmAccess_eq_ok_iff.mp checked
  exact ⟨realm, getRealm_eq_ok_iff.mpr found, allowed⟩

/-- No writing during a maintenance. -/
theorem not_inMaintenance_of_checkRealmWriteAccess {realms : MemoryRealmComponent}
    {organizationId : OrganizationID} {realmId : UUID} {userId : UserID} {revision : Option ℕ} {done : Unit}
    (checked : checkRealmWriteAccess realms organizationId realmId userId revision = .ok done) :
    ∃ realm, realms.realms.get? (organizationId, realmId) = some realm ∧
      realm.status.inMaintenance = false := by
  obtain ⟨realm, found, -, maintenance, -⟩ := checkRealmAccess_eq_ok_iff.mp checked
  exact ⟨realm, found, by simpa [checkMaintenance] using maintenance⟩

theorem create_spec {component next : MemoryVlobComponent β} {realms : MemoryRealmComponent}
    {organizationId : OrganizationID} {author : DeviceID} {realmId vlobId : UUID} {revision : ℕ}
    {timestamp : DateTime} {blob : β}
    (created : component.create realms organizationId author realmId revision vlobId timestamp blob =
      .ok next) :
    (∃ realm, realms.realms.get? (organizationId, realmId) = some realm ∧
      realm.status.inMaintenance = false) ∧
    component.vlobs.get? (organizationId, vlobId) = none ∧
    next.vlobs = component.vlobs.insert (organizationId, vlobId) ⟨realmId, [⟨blob, author, timestamp⟩]⟩ := by
  simp only [create, Except.bind_eq_ok_iff, Except.require_eq_ok_iff, exists_const, Except.pure_eq_ok_iff,
    Except.exists_done] at created
  obtain ⟨checked, absent, rfl⟩ := created
  exact ⟨not_inMaintenance_of_checkRealmWriteAccess checked, absent, rfl⟩

theorem update_spec {component next : MemoryVlobComponent β} {realms : MemoryRealmComponent}
    {organizationId : OrganizationID} {author : DeviceID} {vlobId : UUID} {revision version : ℕ}
    {timestamp : DateTime} {blob : β}
    (updated : component.update realms organizationId author revision vlobId version timestamp blob =
      .ok next) :
    ∃ vlob, component.vlobs.get? (organizationId, vlobId) = some vlob ∧
      (∃ realm, realms.realms.get? (organizationId, vlob.realmId) = some realm ∧
        realm.status.inMaintenance = false) ∧
      next.vlobs = component.vlobs.insert (organizationId, vlobId)
        { vlob with data := vlob.data ++ [⟨blob, author, timestamp⟩] } := by
  simp only [update, Except.bind_eq_ok_iff, Except.require_eq_ok_iff, exists_const, Except.pure_eq_ok_iff,
    Except.exists_done] at updated
  obtain ⟨vlob, found, checked, -, -, rfl⟩ := updated
  exact ⟨vlob, getVlob_eq_ok_iff.mp found, not_inMaintenance_of_checkRealmWriteAccess checked, rfl⟩

theorem apiVlobCreate_spec {component next : MemoryVlobComponent β} {realms : MemoryRealmComponent}
    {ctx : ClientContext} {realmId vlobId : UUID} {revision : ℕ} {timestamp now : DateTime} {blob : β}
    (created : component.apiVlobCreate realms ctx realmId revision vlobId timestamp blob now = .ok next) :
    (∃ realm, realms.getRealm ctx.organizationId realmId = .ok realm) ∧
    next.vlobs = component.vlobs.insert (ctx.organizationId, vlobId)
      ⟨realmId, [⟨blob, ctx.deviceId, timestamp⟩]⟩ := by
  simp only [apiVlobCreate, Except.bind_eq_ok_iff, Except.mapError_eq_ok_iff, Except.require_eq_ok_iff,
    exists_const] at created
  obtain ⟨⟨realm, found, -⟩, -, stored⟩ := create_spec created.2
  exact ⟨⟨realm, getRealm_eq_ok_iff.mpr found⟩, stored⟩

theorem apiVlobUpdate_spec {component next : MemoryVlobComponent β} {realms : MemoryRealmComponent}
    {ctx : ClientContext} {vlobId : UUID} {revision version : ℕ} {timestamp now : DateTime} {blob : β}
    (updated : component.apiVlobUpdate realms ctx revision vlobId version timestamp blob now = .ok next) :
    ∃ vlob, component.getVlob ctx.organizationId vlobId = .ok vlob ∧
      next.vlobs = component.vlobs.insert (ctx.organizationId, vlobId)
        { vlob with data := vlob.data ++ [⟨blob, ctx.deviceId, timestamp⟩] } := by
  simp only [apiVlobUpdate, Except.bind_eq_ok_iff, Except.mapError_eq_ok_iff, Except.require_eq_ok_iff,
    exists_const] at updated
  obtain ⟨vlob, found, -, stored⟩ := update_spec updated.2.2
  exact ⟨vlob, getVlob_eq_ok_iff.mpr found, stored⟩

private theorem mem_of_versionAt? {data : List (VlobVersion β)} {number : ℕ} {version : VlobVersion β}
    (found : versionAt? data number = some version) : version ∈ data := by
  cases number with
  | zero => exact List.mem_of_getLast? found
  | succ index => exact List.mem_of_getElem? found

/-- What is read is a version of the vlob, and the reader has a role in its realm. -/
theorem apiVlobRead_spec {component : MemoryVlobComponent β} {realms : MemoryRealmComponent}
    {ctx : ClientContext} {vlobId : UUID} {revision number : ℕ} {version : Option ℕ}
    {timestamp : Option DateTime} {data : VlobVersion β}
    (served : component.apiVlobRead realms ctx revision vlobId version timestamp = .ok (number, data)) :
    ∃ vlob realm, component.vlobs.get? (ctx.organizationId, vlobId) = some vlob ∧ data ∈ vlob.data ∧
      realms.getRealm ctx.organizationId vlob.realmId = .ok realm ∧
      realm.roles.contains ctx.deviceId.userId = true := by
  simp only [apiVlobRead, read, Except.bind_eq_ok_iff, Except.mapError_eq_ok_iff,
    Except.require_eq_ok_iff, exists_const, Except.exists_done] at served
  obtain ⟨-, vlob, found, checked, chosen, -, served⟩ := served
  obtain ⟨realm, present, allowed⟩ := role_of_checkRealmAccess checked
  refine ⟨vlob, realm, getVlob_eq_ok_iff.mp found, ?_, present, ?_⟩
  · cases stored : versionAt? vlob.data chosen with
    | none => simp [stored] at served
    | some version =>
      simp only [stored, Except.pure_eq_ok_iff, Prod.mk.injEq] at served
      exact served.2 ▸ mem_of_versionAt? stored
  · rw [Dict.contains_eq_true_iff]
    cases held : realm.roles.get? ctx.deviceId.userId with
    | some role => exact ⟨role, rfl⟩
    | none => simp [held, canReadRoles] at allowed

end MemoryVlobComponent

/-- The grants of a realm were received in the order of their dates. -/
def Realm.Chronological (realm : Realm) : Prop :=
  realm.grantedRoles.Pairwise fun earlier later => earlier.grantedOn < later.grantedOn

/-- At a date, the newest grant about a user that the date admits lets the user write. -/
def Realm.CanWriteAt (realm : Realm) (userId : UserID) (timestamp : DateTime) : Prop :=
  ∃ grant ∈ realm.grantedRoles, grant.userId = userId ∧ grant.grantedOn ≤ timestamp ∧
    grant.role ∈ canWriteRoles ∧
    ∀ other ∈ realm.grantedRoles, other.userId = userId → other.grantedOn ≤ timestamp →
      other.grantedOn ≤ grant.grantedOn

theorem roleAt_canWrite {realm : Realm} {userId : UserID} {timestamp : DateTime}
    (chronological : realm.Chronological) (writable : realm.CanWriteAt userId timestamp) :
    roleAt (realm.grantedRoles.map (·.content)) userId timestamp ∈ canWriteRoles := by
  obtain ⟨grant, member, about, dated, role, newest⟩ := writable
  obtain ⟨before, after, split⟩ := List.append_of_mem member
  have silent : (after.map (·.content)).reverse.find?
      (fun certif => certif.userId = userId ∧ certif.timestamp ≤ timestamp) = none := by
    rw [List.find?_eq_none]
    intro certif listed admitted
    obtain ⟨later, laterMem, rfl⟩ := List.mem_map.mp (List.mem_reverse.mp listed)
    obtain ⟨aboutLater, datedLater⟩ := of_decide_eq_true admitted
    have bounded := newest later (by rw [split]; simp [laterMem]) aboutLater datedLater
    rw [Realm.Chronological, split, List.pairwise_append] at chronological
    exact absurd ((List.pairwise_cons.mp chronological.2.1).1 later laterMem) (not_lt.mpr bounded)
  have here : (decide (grant.content.userId = userId ∧ grant.content.timestamp ≤ timestamp)) = true :=
    decide_eq_true ⟨about, dated⟩
  rw [roleAt, split, List.map_append, List.map_cons, List.reverse_append, List.reverse_cons,
    List.append_assoc, List.find?_append, silent, Option.none_or, List.singleton_append, List.find?_cons,
    here]
  exact role

theorem roleAt_isPrefix {realm : Realm} {certifs : List RealmRoleCertificateContent} {userId : UserID}
    {timestamp : DateTime} (chronological : realm.Chronological)
    (cached : certifs <+: realm.grantedRoles.map (·.content))
    (complete : ∀ grant ∈ realm.grantedRoles, grant.userId = userId → grant.grantedOn ≤ timestamp →
      grant.content ∈ certifs) :
    roleAt certifs userId timestamp = roleAt (realm.grantedRoles.map (·.content)) userId timestamp := by
  obtain ⟨rest, split⟩ := cached
  have ordered : (realm.grantedRoles.map (·.content)).Pairwise fun earlier later =>
      earlier.timestamp < later.timestamp := List.pairwise_map.mpr chronological
  have silent : rest.reverse.find?
      (fun certif => certif.userId = userId ∧ certif.timestamp ≤ timestamp) = none := by
    rw [List.find?_eq_none]
    intro certif listed admitted
    have listed := List.mem_reverse.mp listed
    obtain ⟨grant, member, rfl⟩ := List.mem_map.mp (split ▸ List.mem_append_right certifs listed)
    obtain ⟨about, dated⟩ := of_decide_eq_true admitted
    -- The certificate would stand in the cache and behind it, with one date.
    rw [← split, List.pairwise_append] at ordered
    exact absurd (ordered.2.2 _ (complete grant member about dated) _ listed) (lt_irrefl _)
  rw [roleAt, roleAt, ← split, List.reverse_append, List.find?_append, silent, Option.none_or]

theorem checkAuthorRole_of_canWrite {author : DeviceID} {timestamp : DateTime}
    {role : Option RealmRole} (writes : role ∈ canWriteRoles) :
    checkAuthorRole author timestamp role = .ok () := by
  simp only [canWriteRoles, List.mem_cons, List.not_mem_nil, or_false] at writes
  rcases writes with rfl | rfl | rfl <;> rfl

theorem RemoteLoader.cache_of_cachedCertificates? {loader : RemoteLoader} {timestamp : DateTime}
    {certifs : List RealmRoleCertificateContent}
    (reused : loader.cachedCertificates? timestamp = some certifs) :
    ∃ date, loader.realmRoleCertificatesCache = some (certifs, date) := by
  unfold cachedCertificates? at reused
  split at reused
  · next stored date filled =>
    split at reused
    · cases reused
    · cases reused
      exact ⟨date, filled⟩
  · cases reused

section Load

variable {γ : Type} {directory : DeviceDirectory} {entry : WorkspaceEntry} {entryId : UUID}
  {version : Option ℕ} {expected : Option DateTime} {manifest : RemoteManifest γ}
  {data : VlobVersion (ManifestBlob γ)}

theorem served_of_verified {reply : Except VlobRefusal (ℕ × VlobVersion (ManifestBlob γ))}
    (verified : verifyManifest directory entry entryId version expected reply = .ok (manifest, data)) :
    ∃ number, reply = .ok (number, data) := by
  simp only [verifyManifest, Except.bind_eq_ok_iff, Except.mapError_eq_ok_iff, Except.require_eq_ok_iff,
    exists_const, Except.pure_eq_ok_iff, Prod.mk.injEq, Prod.exists] at verified
  obtain ⟨number, read, served, -, -, -, -, -, -, -, rfl⟩ := verified
  exact ⟨number, served⟩

/-- A verified manifest whose author is found to have written with the right to is returned. -/
theorem RemoteLoader.loadManifest_of_role {loader : RemoteLoader} {timestamp : Option DateTime}
    {vlobRead : Option ℕ → Option DateTime → Except VlobRefusal (ℕ × VlobVersion (ManifestBlob γ))}
    {certificates : Except RealmRefusal (List (Signed RealmRoleCertificateContent))} {now : DateTime}
    {role : Option RealmRole} (exclusive : version = none ∨ timestamp = none)
    (verified : verifyManifest directory entry entryId version expected (vlobRead version timestamp) =
      .ok (manifest, data))
    (found : (loader.getUserRealmRoleAt (loadRealmRoleCertificates directory certificates) now
      data.author.userId data.timestamp).1 = .ok role)
    (writes : role ∈ canWriteRoles) :
    (loader.loadManifest directory entry entryId version timestamp expected vlobRead certificates
      now).1 = .ok manifest := by
  unfold loadManifest
  split
  · simp at exclusive
  · rw [verified]
    simp only [found, Except.bind, checkAuthorRole_of_canWrite writes]
    rfl

end Load

end Guardata
