import Guardata.Model.RemoteLoader
import Guardata.Proofs.RealmRoles

/-! # Replaying the role certificates of a realm

The client walks through the grants of a realm in the order of their dates and asks of each that
its author could sign it at that point. `Replays` states this about the grants themselves, and
`load_of_replays` carries it to the certificates that the backend serves. A new grant keeps the
walk valid when it commutes with every grant dated later: `replays_grant`.
-/

namespace Guardata

/-- What the certificate of a grant says. -/
def RealmGrantedRole.content (grant : RealmGrantedRole) : RealmRoleCertificateContent :=
  ⟨grant.grantedBy, grant.grantedOn, grant.realmId, grant.userId, grant.role⟩

/-- The certificate of a grant says what the backend recorded and is signed by its author. -/
def RealmGrantedRole.Certified (directory : DeviceDirectory) (grant : RealmGrantedRole) : Prop :=
  ∃ key, directory grant.grantedBy = some key ∧ grant.certificate = ⟨key, some grant.content⟩

/-- The author of a grant may sign it when the roles are these. -/
def Signable (roles : Dict UserID RealmRole) (grant : RealmGrantedRole) : Prop :=
  roles.get? grant.grantedBy.userId ∈ rolesNeededToSign roles grant.grantedBy grant.content

/-- Every grant of the list is signable once those before it are applied. -/
def Replays : Dict UserID RealmRole → List RealmGrantedRole → Prop
  | _, [] => True
  | roles, grant :: rest => Signable roles grant ∧ Replays (applyGrant roles grant) rest

theorem replays_append {roles : Dict UserID RealmRole} {before after : List RealmGrantedRole} :
    Replays roles (before ++ after) ↔
      Replays roles before ∧ Replays (before.foldl applyGrant roles) after := by
  induction before generalizing roles with
  | nil => simp [Replays]
  | cons grant rest ih => simp [Replays, ih, and_assoc]

theorem verifyRoleCertificate_certified {directory : DeviceDirectory} {roles : Dict UserID RealmRole}
    {grant : RealmGrantedRole} (certified : grant.Certified directory) (signable : Signable roles grant) :
    verifyRoleCertificate directory roles (grant.content, grant.certificate) =
      .ok (applyGrant roles grant) := by
  obtain ⟨key, registered, signed⟩ := certified
  have author : getDevice directory grant.content.author = .ok ⟨grant.grantedBy, key⟩ := by
    rw [getDevice, show grant.content.author = grant.grantedBy from rfl, registered]
  have verified : RealmRoleCertificateContent.verifyAndLoad grant.certificate key grant.grantedBy =
      .ok grant.content :=
    Signed.verifyAndLoad_eq_ok_iff.mpr ⟨by rw [signed], by rw [signed], rfl⟩
  simp only [verifyRoleCertificate, author, verified, Except.mapError, Except.bind_eq_ok_iff,
    Except.require_eq_ok_iff, Except.exists_done, Except.ok.injEq, exists_eq_left', Except.pure_eq_ok_iff]
  exact ⟨signable, rfl⟩

private theorem foldlM_verify {directory : DeviceDirectory} (grants : List RealmGrantedRole)
    {roles : Dict UserID RealmRole} (certified : ∀ grant ∈ grants, grant.Certified directory)
    (replays : Replays roles grants) :
    (grants.map fun grant => (grant.content, grant.certificate)).foldlM (verifyRoleCertificate directory)
      roles = .ok (grants.foldl applyGrant roles) := by
  induction grants generalizing roles with
  | nil => rfl
  | cons grant rest ih =>
    rw [List.map_cons, List.foldlM_cons, verifyRoleCertificate_certified (certified grant (by simp))
      replays.1]
    exact ih (fun other member => certified other (by simp [member])) replays.2

/-- Genuine certificates are read, whatever becomes of the error. -/
theorem mapM_unsecureLoad {ε : Type} (translate : DataError → ε) (grants : List RealmGrantedRole)
    (genuine : ∀ grant ∈ grants, grant.certificate.payload = some grant.content) :
    ((grants.map (·.certificate)).mapM fun raw =>
      (raw.unsecureLoad.mapError translate).map fun certif => (certif, raw)) =
      .ok (grants.map fun grant => (grant.content, grant.certificate)) := by
  induction grants with
  | nil => rfl
  | cons grant rest ih =>
    have loaded : grant.certificate.unsecureLoad = .ok grant.content :=
      Signed.unsecureLoad_eq_ok_iff.mpr (genuine grant (by simp))
    rw [List.map_cons, List.mapM_cons, ih fun other member => genuine other (by simp [member]), loaded]
    rfl

/-- The certificates of grants are sorted as the grants are. -/
theorem sortedBy_certificates (grants : List RealmGrantedRole) :
    (grants.map fun grant => (grant.content, grant.certificate)).sortedBy (·.1.timestamp) =
      (grants.sortedBy (·.grantedOn)).map fun grant => (grant.content, grant.certificate) :=
  (List.map_sortedBy _ _ _).symm

theorem foldl_applyCertificate (grants : List RealmGrantedRole) (roles : Dict UserID RealmRole) :
    (grants.map (·.content)).foldl applyCertificate roles = grants.foldl applyGrant roles :=
  List.foldl_map

/-- Certified grants that replay in the order of their dates are accepted by the client, which
computes the backend's own table of roles. -/
theorem load_of_replays {directory : DeviceDirectory} {realm : Realm}
    (certified : ∀ grant ∈ realm.grantedRoles, grant.Certified directory)
    (replays : Replays ∅ (realm.grantedRoles.sortedBy (·.grantedOn))) :
    loadRealmRoleCertificates directory (.ok (realm.grantedRoles.map (·.certificate))) =
      .ok ((realm.grantedRoles.sortedBy (·.grantedOn)).map (·.content), realm.roles) := by
  have payload (grant : RealmGrantedRole) (member : grant ∈ realm.grantedRoles) :
      grant.certificate.payload = some grant.content := by
    obtain ⟨key, -, signed⟩ := certified grant member
    rw [signed]
  have accepted := foldlM_verify (realm.grantedRoles.sortedBy (·.grantedOn))
    (fun grant member => certified grant ((List.mem_sortedBy _).mp member)) replays
  rw [← sortedBy_certificates] at accepted
  simp only [loadRealmRoleCertificates, Except.bind_eq_ok_iff, Except.pure_eq_ok_iff]
  refine ⟨_, rfl, _, mapM_unsecureLoad _ _ payload, _, accepted, ?_⟩
  rw [sortedBy_certificates, List.map_map]
  rfl

/-- Another grant reads and writes nothing that a grant writes, and does not touch its author. -/
def RealmGrantedRole.Unrelated (grant other : RealmGrantedRole) : Prop :=
  other.userId ≠ grant.userId ∧ other.userId ≠ grant.grantedBy.userId ∧
    other.grantedBy.userId ≠ grant.userId

/-- Only an empty table lets a user sign for itself. -/
theorem rolesNeededToSign_of_some {roles : Dict UserID RealmRole} {keeper : UserID} {role : RealmRole}
    (held : roles.get? keeper = some role) (author : DeviceID) (certif : RealmRoleCertificateContent) :
    rolesNeededToSign roles author certif = neededRoles (roles.get? certif.userId) certif.role := by
  have inhabited : roles.items ≠ [] := List.ne_nil_of_mem (Dict.get?_eq_some_iff.mp held)
  rw [rolesNeededToSign, if_neg fun both => inhabited both.1]

theorem applyGrant_get?_of_ne {roles : Dict UserID RealmRole} {grant : RealmGrantedRole}
    {userId : UserID} (other : userId ≠ grant.userId) :
    (applyGrant roles grant).get? userId = roles.get? userId := by
  unfold applyGrant
  split <;> simp [other]

theorem foldl_applyGrant_get?_of_ne {grants : List RealmGrantedRole} {roles : Dict UserID RealmRole}
    {userId : UserID} (others : ∀ grant ∈ grants, grant.userId ≠ userId) :
    (grants.foldl applyGrant roles).get? userId = roles.get? userId := by
  induction grants generalizing roles with
  | nil => rfl
  | cons grant rest ih =>
    rw [List.foldl_cons, ih fun other member => others other (by simp [member]),
      applyGrant_get?_of_ne (others grant (by simp)).symm]

/-- Grants that neither look at one user nor touch a second one, who holds a role, replay whatever
role the first user has. -/
theorem replays_congr {grants : List RealmGrantedRole} {left right : Dict UserID RealmRole}
    (userId : UserID) {keeper : UserID} {role : RealmRole}
    (agree : ∀ other, other ≠ userId → left.get? other = right.get? other) (distinct : keeper ≠ userId)
    (held : left.get? keeper = some role)
    (untouched : ∀ grant ∈ grants,
      grant.userId ≠ userId ∧ grant.userId ≠ keeper ∧ grant.grantedBy.userId ≠ userId)
    (replays : Replays left grants) : Replays right grants := by
  induction grants generalizing left right with
  | nil => trivial
  | cons grant rest ih =>
    obtain ⟨target, kept, author⟩ := untouched grant (by simp)
    obtain ⟨signable, later⟩ := replays
    refine ⟨?_, ih ?_ ?_ (fun other member => untouched other (by simp [member])) later⟩
    · rw [Signable, rolesNeededToSign_of_some held] at signable
      rw [Signable, rolesNeededToSign_of_some ((agree keeper distinct).symm.trans held),
        ← agree _ author, ← agree _ (show grant.content.userId ≠ userId from target)]
      exact signable
    · intro other different
      unfold applyGrant
      split <;> simp [agree other different]
    · rw [applyGrant_get?_of_ne kept.symm, held]

/-- A grant that the backend accepts keeps the walk valid if every grant dated later is unrelated. -/
theorem replays_grant {realm : Realm} {grant : RealmGrantedRole}
    (other : grant.grantedBy.userId ≠ grant.userId)
    (checked : MemoryRealmComponent.checkUpdateRoles realm grant = .ok ())
    (inOrder : ∀ later ∈ realm.grantedRoles, grant.grantedOn < later.grantedOn → grant.Unrelated later)
    (replays : Replays ∅ (realm.grantedRoles.sortedBy (·.grantedOn))) :
    Replays ∅ ((realm.grant grant).grantedRoles.sortedBy (·.grantedOn)) := by
  obtain ⟨before, after, split, inserted, -, upper⟩ :=
    List.sortedBy_append_split (·.grantedOn) realm.grantedRoles grant
  have unrelated : ∀ later ∈ after, grant.Unrelated later := fun later member =>
    inOrder later ((List.mem_sortedBy (·.grantedOn)).mp (split ▸ List.mem_append_right _ member))
      (upper later member)
  obtain ⟨-, entitled, -⟩ := MemoryRealmComponent.checkUpdateRoles_eq_ok_iff.mp checked
  change Replays ∅ ((realm.grantedRoles ++ [grant]).sortedBy (·.grantedOn))
  rw [split, replays_append] at replays
  rw [inserted, replays_append]
  obtain ⟨early, late⟩ := replays
  -- What the check read at the end of the list is what stood there before the later grants.
  have unchanged (userId : UserID) (others : ∀ later ∈ after, later.userId ≠ userId) :
      realm.roles.get? userId = (before.foldl applyGrant ∅).get? userId := by
    rw [Realm.roles, split, List.foldl_append, foldl_applyGrant_get?_of_ne others]
  rw [unchanged _ fun later member => (unrelated later member).2.1,
    unchanged _ fun later member => (unrelated later member).1] at entitled
  obtain ⟨role, held⟩ : ∃ role, (before.foldl applyGrant ∅).get? grant.grantedBy.userId = some role := by
    cases authorRole : (before.foldl applyGrant ∅).get? grant.grantedBy.userId with
    | some role => exact ⟨role, rfl⟩
    | none =>
      rw [authorRole, neededRoles] at entitled
      split at entitled <;> simp [ownerOnly, ownerOrManager] at entitled
  refine ⟨early, ?_, replays_congr grant.userId ?_ other held ?_ late⟩
  · rw [Signable, rolesNeededToSign_of_some held]
    exact entitled
  · exact fun userId different => (applyGrant_get?_of_ne different).symm
  · exact fun later member => unrelated later member

/-- The grant that opens a realm is the one that a user signs for itself. -/
theorem replays_created {grant : RealmGrantedRole} (self : grant.grantedBy.userId = grant.userId) :
    Replays ∅ (List.sortedBy (·.grantedOn) [grant]) := by
  refine ⟨?_, trivial⟩
  rw [Signable, rolesNeededToSign, if_pos ⟨rfl, self.symm⟩]
  simp

end Guardata
