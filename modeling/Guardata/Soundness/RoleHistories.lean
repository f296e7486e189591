import Mathlib.Data.List.Induction
import Guardata.Model.RemoteLoader

/-! # The role histories that a client accepts

A malicious backend may serve any list of role certificates that were once signed. Those that
`_load_realm_role_certificates` accepts need not be histories that the backend itself would have
built: a user may sign for itself whenever nobody holds a role, and with any role. What a client
really enforces is the authority of every author as long as somebody is an owner, so an accepted
history is authorised exactly when it begins with an owner and the last owner never steps back.
-/

namespace Guardata

/-- The role that the latest certificate about a user gives. -/
def heldRole (certifs : List RealmRoleCertificateContent) (userId : UserID) : Option RealmRole :=
  (certifs.reverse.find? fun certif => certif.userId = userId).bind (·.role)

/-- A history as the backend would build it, in the order of the dates. -/
structure AuthorisedHistory (certifs : List RealmRoleCertificateContent) : Prop where
  /-- It begins with a grant of ownership that a user signs for itself. -/
  first : ∀ certif rest, certifs = certif :: rest →
    certif.userId = certif.author.userId ∧ certif.role = some .owner
  /-- The author of a later certificate is an owner, or a manager where no privileged role is
  given or taken. -/
  entitled : ∀ before certif after, certifs = before ++ certif :: after → before ≠ [] →
    heldRole before certif.author.userId = some .owner ∨
      (heldRole before certif.author.userId = some .manager ∧
        heldRole before certif.userId ∉ [some .owner, some .manager] ∧
        certif.role ∉ [some .owner, some .manager])
  owned : ∀ before after, certifs = before ++ after → before ≠ [] →
    ∃ userId, heldRole before userId = some .owner

/-- The history begins with a grant of ownership, and whoever gives up a role of their own leaves
another owner behind. -/
structure LeavesAnOwner (certifs : List RealmRoleCertificateContent) : Prop where
  first : ∀ certif rest, certifs = certif :: rest → certif.role = some .owner
  stepsBack : ∀ before certif after, certifs = before ++ certif :: after → before ≠ [] →
    certif.userId = certif.author.userId → certif.role ≠ some .owner →
    ∃ other ≠ certif.userId, heldRole before other = some .owner

section Replay

variable {directory : DeviceDirectory} {certif : RealmRoleCertificateContent}
  {before certifs : List RealmRoleCertificateContent}

theorem heldRole_append_self : heldRole (before ++ [certif]) certif.userId = certif.role := by
  simp [heldRole]

theorem heldRole_append_of_ne {userId : UserID} (other : certif.userId ≠ userId) :
    heldRole (before ++ [certif]) userId = heldRole before userId := by
  simp [heldRole, other]

/-- The table of current roles has the latest role of every user. -/
theorem get?_foldl_applyCertificate (userId : UserID) :
    (certifs.foldl applyCertificate ∅).get? userId = heldRole certifs userId := by
  induction certifs using List.reverseRecOn with
  | nil => rfl
  | append_singleton before certif ih =>
    rw [List.foldl_append, List.foldl_cons, List.foldl_nil]
    by_cases same : certif.userId = userId
    · subst same
      rw [heldRole_append_self, applyCertificate]
      cases certif.role <;> simp
    · rw [heldRole_append_of_ne same, ← ih, applyCertificate]
      have other : userId ≠ certif.userId := Ne.symm same
      cases certif.role <;> simp [other]

theorem entitled_of_verifyRoleCertificate {roles next : Dict UserID RealmRole}
    {raw : Signed RealmRoleCertificateContent}
    (verified : verifyRoleCertificate directory roles (certif, raw) = .ok next) :
    roles.get? certif.author.userId ∈ rolesNeededToSign roles certif.author certif ∧
      next = applyCertificate roles certif := by
  simp only [verifyRoleCertificate, Except.bind_eq_ok_iff, Except.require_eq_ok_iff, Except.exists_done,
    Except.pure_eq_ok_iff] at verified
  obtain ⟨author, registered, -, -, entitled, applied⟩ := verified
  have same : author.deviceId = certif.author := by
    unfold getDevice at registered
    split at registered <;> cases registered
    rfl
  rw [same] at entitled
  exact ⟨entitled, applied.symm⟩

/-- The run lemma: whatever stands before a certificate, its author could sign it there. -/
theorem foldlM_verify_entitled
    {unsecure : List (RealmRoleCertificateContent × Signed RealmRoleCertificateContent)}
    {roles final : Dict UserID RealmRole} (verified : unsecure.foldlM (verifyRoleCertificate directory)
      roles = .ok final) {before after : List RealmRoleCertificateContent}
    (stands : unsecure.map Prod.fst = before ++ certif :: after) :
    (before.foldl applyCertificate roles).get? certif.author.userId ∈
      rolesNeededToSign (before.foldl applyCertificate roles) certif.author certif := by
  induction unsecure generalizing roles before with
  | nil => simp at stands
  | cons first rest ih =>
    rw [List.foldlM_cons, Except.bind_eq_ok_iff] at verified
    obtain ⟨next, here, later⟩ := verified
    obtain ⟨entitled, rfl⟩ := entitled_of_verifyRoleCertificate here
    cases before with
    | nil =>
      obtain ⟨rfl, -⟩ := List.cons.inj stands
      exact entitled
    | cons head before =>
      obtain ⟨rfl, remaining⟩ := List.cons.inj stands
      exact ih later remaining

theorem load_entitled {certificates : List (Signed RealmRoleCertificateContent)}
    {roles : Dict UserID RealmRole}
    (accepted : loadRealmRoleCertificates directory (.ok certificates) = .ok (certifs, roles))
    (before : List RealmRoleCertificateContent) {after : List RealmRoleCertificateContent}
    (stands : certifs = before ++ certif :: after) :
    (before.foldl applyCertificate ∅).get? certif.author.userId ∈
      rolesNeededToSign (before.foldl applyCertificate ∅) certif.author certif := by
  simp only [loadRealmRoleCertificates, Except.bind_eq_ok_iff, Except.pure_eq_ok_iff] at accepted
  obtain ⟨-, -, loaded, -, final, verified, same⟩ := accepted
  obtain ⟨rfl, rfl⟩ := Prod.mk.inj same
  exact foldlM_verify_entitled verified stands

/-- The first author signs for itself. -/
theorem load_first_selfSigned {certificates : List (Signed RealmRoleCertificateContent)}
    {roles : Dict UserID RealmRole} {rest : List RealmRoleCertificateContent}
    (accepted : loadRealmRoleCertificates directory (.ok certificates) = .ok (certif :: rest, roles)) :
    certif.userId = certif.author.userId := by
  have entitled := load_entitled accepted [] rfl
  by_contra foreign
  rw [List.foldl_nil, rolesNeededToSign, if_neg fun both => foreign both.2, neededRoles] at entitled
  split at entitled <;> simp [ownerOnly, ownerOrManager] at entitled

/-- As long as somebody is an owner, authors have the authority they need. -/
theorem load_neededRoles {certificates : List (Signed RealmRoleCertificateContent)}
    {roles : Dict UserID RealmRole}
    (accepted : loadRealmRoleCertificates directory (.ok certificates) = .ok (certifs, roles))
    {before after : List RealmRoleCertificateContent} (stands : certifs = before ++ certif :: after)
    {keeper : UserID} (owner : heldRole before keeper = some .owner) :
    heldRole before certif.author.userId ∈ neededRoles (heldRole before certif.userId) certif.role := by
  have entitled := load_entitled accepted before stands
  rw [← get?_foldl_applyCertificate] at owner
  have inhabited : (before.foldl applyCertificate ∅).items ≠ [] :=
    List.ne_nil_of_mem (Dict.get?_eq_some_iff.mp owner)
  rwa [rolesNeededToSign, if_neg fun both => inhabited both.1, get?_foldl_applyCertificate,
    get?_foldl_applyCertificate] at entitled

theorem mem_neededRoles_iff {author existing new : Option RealmRole} :
    author ∈ neededRoles existing new ↔ author = some .owner ∨ (author = some .manager ∧
      existing ∉ [some .owner, some .manager] ∧ new ∉ [some .owner, some .manager]) := by
  unfold neededRoles ownerOnly ownerOrManager
  split
  · next privileged =>
    simp only [List.mem_singleton]
    tauto
  · next plain =>
    rw [not_or] at plain
    simp only [List.mem_cons, List.not_mem_nil, or_false] at plain ⊢
    tauto

/-- The step lemma: an owner is left after every certificate of a history that leaves one. -/
theorem owner_remains {certificates : List (Signed RealmRoleCertificateContent)}
    {roles : Dict UserID RealmRole}
    (accepted : loadRealmRoleCertificates directory (.ok certificates) = .ok (certifs, roles))
    (leaves : LeavesAnOwner certifs) {before after : List RealmRoleCertificateContent}
    (stands : certifs = before ++ certif :: after) (later : before ≠ [])
    {keeper : UserID} (owner : heldRole before keeper = some .owner) :
    ∃ userId, heldRole (before ++ [certif]) userId = some .owner := by
  by_cases target : certif.userId = keeper
  · subst target
    have entitled := mem_neededRoles_iff.mp (load_neededRoles accepted stands owner)
    have author : heldRole before certif.author.userId = some .owner := by
      rcases entitled with held | ⟨-, plain, -⟩
      · exact held
      · rw [owner] at plain
        simp at plain
    by_cases self : certif.userId = certif.author.userId
    · by_cases keeps : certif.role = some .owner
      · exact ⟨certif.userId, heldRole_append_self.trans keeps⟩
      · obtain ⟨other, different, held⟩ := leaves.stepsBack before certif after stands later self keeps
        exact ⟨other, (heldRole_append_of_ne different.symm).trans held⟩
    · exact ⟨certif.author.userId, (heldRole_append_of_ne self).trans author⟩
  · exact ⟨keeper, (heldRole_append_of_ne target).trans owner⟩

/-- The run lemma: an owner is left at every point of the history. -/
theorem owner_at_every_point {certificates : List (Signed RealmRoleCertificateContent)}
    {roles : Dict UserID RealmRole}
    (accepted : loadRealmRoleCertificates directory (.ok certificates) = .ok (certifs, roles))
    (leaves : LeavesAnOwner certifs) {before after : List RealmRoleCertificateContent}
    (stands : certifs = before ++ after) (begun : before ≠ []) :
    ∃ userId, heldRole before userId = some .owner := by
  induction before using List.reverseRecOn generalizing after with
  | nil => exact absurd rfl begun
  | append_singleton before certif ih =>
    rw [List.append_assoc, List.singleton_append] at stands
    by_cases later : before = []
    · subst later
      have granted := leaves.first certif after stands
      exact ⟨certif.userId, granted ▸ heldRole_append_self⟩
    · obtain ⟨keeper, owner⟩ := ih stands later
      exact owner_remains accepted leaves stands later owner

end Replay

/-- A history that the client accepts is authorised if and only if it begins with a grant of
ownership and no owner steps back without leaving another one. -/
theorem accepted_history_authorised_iff (directory : DeviceDirectory)
    (certificates : List (Signed RealmRoleCertificateContent))
    (certifs : List RealmRoleCertificateContent) (roles : Dict UserID RealmRole)
    (accepted : loadRealmRoleCertificates directory (.ok certificates) = .ok (certifs, roles)) :
    AuthorisedHistory certifs ↔ LeavesAnOwner certifs := by
  constructor
  · intro authorised
    refine ⟨fun certif rest same => (authorised.first certif rest same).2, ?_⟩
    intro before certif after stands _ _ stepsBack
    obtain ⟨userId, held⟩ := authorised.owned (before ++ [certif]) after (by rw [stands]; simp) (by simp)
    have other : certif.userId ≠ userId := by
      rintro rfl
      exact stepsBack (heldRole_append_self.symm.trans held)
    exact ⟨userId, other.symm, (heldRole_append_of_ne other).symm.trans held⟩
  · intro leaves
    refine ⟨?_, ?_, fun before after stands begun => owner_at_every_point accepted leaves stands begun⟩
    · rintro certif rest rfl
      exact ⟨load_first_selfSigned accepted, leaves.first certif rest rfl⟩
    · intro before certif after stands later
      obtain ⟨keeper, owner⟩ := owner_at_every_point accepted leaves stands later
      exact mem_neededRoles_iff.mp (load_neededRoles accepted stands owner)

section Example

/-- Everybody's device is registered, under a key of its own. -/
private def ownKeys : DeviceDirectory := fun device => some ⟨device.userId.length⟩

/-- A certificate that the author's device really signed. -/
private def signedGrant (author target : String) (role : Option RealmRole) (date : DateTime) :
    Signed RealmRoleCertificateContent :=
  ⟨⟨author.length⟩, some ⟨⟨author, "dev"⟩, date, 1, target, role⟩⟩

private def grantContent (author target : String) (role : Option RealmRole) (date : DateTime) :
    RealmRoleCertificateContent := ⟨⟨author, "dev"⟩, date, 1, target, role⟩

/-- Alice shares her realm with Bob as a second owner, and leaves. -/
private def handover : List RealmRoleCertificateContent :=
  [grantContent "alice" "alice" (some .owner) 10, grantContent "alice" "bob" (some .owner) 20,
    grantContent "alice" "alice" none 30]

theorem accepted_history_authorised_iff_handover :
    loadRealmRoleCertificates ownKeys (.ok [signedGrant "alice" "alice" none 30,
        signedGrant "alice" "alice" (some .owner) 10, signedGrant "alice" "bob" (some .owner) 20]) =
      .ok (handover, ⟨[("bob", .owner)], by decide⟩) ∧ AuthorisedHistory handover := by
  have accepted : loadRealmRoleCertificates ownKeys (.ok [signedGrant "alice" "alice" none 30,
      signedGrant "alice" "alice" (some .owner) 10, signedGrant "alice" "bob" (some .owner) 20]) =
        .ok (handover, ⟨[("bob", .owner)], by decide⟩) := by decide
  refine ⟨accepted, (accepted_history_authorised_iff ownKeys _ handover _ accepted).mpr ⟨?_, ?_⟩⟩
  · rintro certif rest same
    obtain ⟨rfl, -⟩ := List.cons.inj same
    rfl
  · -- Of the later two certificates, only the last is about its own author.
    rintro (_ | ⟨first, _ | ⟨second, _ | ⟨third, before⟩⟩⟩) certif after stands later self stepsBack
    · exact absurd rfl later
    · simp only [handover, List.cons_append, List.nil_append, List.cons.injEq] at stands
      obtain ⟨-, rfl, -⟩ := stands
      exact absurd self (by decide)
    · simp only [handover, List.cons_append, List.nil_append, List.cons.injEq] at stands
      obtain ⟨rfl, rfl, rfl, -⟩ := stands
      exact ⟨"bob", by decide, by decide⟩
    · simp [handover] at stands

/-- Alice, the only owner, removes herself. Anybody may then open the realm again for itself: the
client accepts that history too. -/
theorem removed_owner_hands_realm_to_anybody :
    loadRealmRoleCertificates ownKeys (.ok [signedGrant "alice" "alice" (some .owner) 10,
        signedGrant "alice" "alice" none 20, signedGrant "mallory" "mallory" (some .owner) 30]) =
      .ok ([grantContent "alice" "alice" (some .owner) 10, grantContent "alice" "alice" none 20,
        grantContent "mallory" "mallory" (some .owner) 30], ⟨[("mallory", .owner)], by decide⟩) ∧
    ¬ AuthorisedHistory [grantContent "alice" "alice" (some .owner) 10,
      grantContent "alice" "alice" none 20, grantContent "mallory" "mallory" (some .owner) 30] := by
  refine ⟨by decide, fun authorised => ?_⟩
  have entitled := authorised.entitled [grantContent "alice" "alice" (some .owner) 10,
    grantContent "alice" "alice" none 20] (grantContent "mallory" "mallory" (some .owner) 30) [] rfl (by simp)
  exact absurd entitled (by decide)

end Example

end Guardata
