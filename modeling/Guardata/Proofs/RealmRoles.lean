import Guardata.Model.Realm
import Guardata.Machine.Run

/-! # What one grant does to the roles of a realm

Folding grants is read from its end: the last grant about a user decides. Appending one grant and
sorting by date therefore changes the role of its target only, and changes it only when no
recorded grant about the same user carries a later date. Everything the realm component promises
or misses follows from this single observation, `roles_grant`.
-/

namespace Guardata

open Machine

/-- The role that a sequence of grants leaves to a user. -/
theorem foldl_applyGrant_get? (grants : List RealmGrantedRole) (roles : Dict UserID RealmRole)
    (userId : UserID) :
    (grants.foldl applyGrant roles).get? userId =
      match grants.reverse.find? (·.userId = userId) with
      | some grant => grant.role
      | none => roles.get? userId := by
  induction grants generalizing roles with
  | nil => rfl
  | cons grant rest ih =>
    rw [List.foldl_cons, ih, List.reverse_cons, List.find?_append]
    cases found : rest.reverse.find? (·.userId = userId) with
    | some later => simp
    | none =>
      by_cases about : grant.userId = userId
      · cases role : grant.role <;> simp [applyGrant, about, role]
      · cases role : grant.role <;> simp [applyGrant, about, role, Ne.symm about]

/-- The realm after one more grant. -/
def Realm.grant (realm : Realm) (grant : RealmGrantedRole) : Realm :=
  { realm with grantedRoles := realm.grantedRoles ++ [grant] }

/-- No recorded grant about the same user is dated later. -/
def Realm.NotBackdated (realm : Realm) (grant : RealmGrantedRole) : Prop :=
  ∀ other ∈ realm.grantedRoles, other.userId = grant.userId → other.grantedOn ≤ grant.grantedOn

instance (realm : Realm) (grant : RealmGrantedRole) : Decidable (realm.NotBackdated grant) :=
  inferInstanceAs (Decidable (∀ other ∈ realm.grantedRoles, _))

/-- A grant replaces the role of its target unless it is back-dated, and touches nobody else. -/
theorem Realm.roles_grant (realm : Realm) (grant : RealmGrantedRole) (userId : UserID) :
    (realm.grant grant).roles.get? userId =
      if userId = grant.userId ∧ realm.NotBackdated grant then grant.role
      else realm.roles.get? userId := by
  obtain ⟨before, after, split, inserted, lower, upper⟩ :=
    List.sortedBy_append_split (·.grantedOn) realm.grantedRoles grant
  have members (other : RealmGrantedRole) :
      other ∈ realm.grantedRoles ↔ other ∈ before ∨ other ∈ after := by
    rw [← List.mem_sortedBy (·.grantedOn), split, List.mem_append]
  change (((realm.grantedRoles ++ [grant]).sortedBy (·.grantedOn)).foldl applyGrant ∅).get? userId = _
  rw [inserted, Realm.roles, split, foldl_applyGrant_get?, foldl_applyGrant_get?]
  simp only [List.reverse_append, List.reverse_cons, List.append_assoc, List.find?_append]
  cases found : after.reverse.find? (·.userId = userId) with
  | some later =>
    -- A later grant about the user decides before the new one is looked at.
    have later_mem : later ∈ after := List.mem_reverse.mp (List.mem_of_find?_eq_some found)
    have about : later.userId = userId := by simpa using List.find?_some found
    have backdated : ¬ (userId = grant.userId ∧ realm.NotBackdated grant) := by
      rintro ⟨same, ordered⟩
      exact absurd (ordered later ((members later).mpr (.inr later_mem)) (about.trans same))
        (not_le.mpr (upper later later_mem))
    simp [backdated]
  | none =>
    by_cases same : userId = grant.userId
    · have ordered : realm.NotBackdated grant := by
        intro other member about
        rcases (members other).mp member with early | late
        · exact lower other early
        · have absent := List.find?_eq_none.mp found other (List.mem_reverse.mpr late)
          simp [about, same] at absent
      simp [same, ordered]
    · simp [same, Ne.symm same]

theorem Realm.roles_grant_of_ne {realm : Realm} {grant : RealmGrantedRole} {userId : UserID}
    (other : userId ≠ grant.userId) :
    (realm.grant grant).roles.get? userId = realm.roles.get? userId := by
  rw [Realm.roles_grant, if_neg fun both => other both.1]

/-- The role of the target afterwards is either the new one or the one it had. -/
theorem Realm.roles_grant_self (realm : Realm) (grant : RealmGrantedRole) :
    (realm.grant grant).roles.get? grant.userId = grant.role ∨
      (realm.grant grant).roles.get? grant.userId = realm.roles.get? grant.userId := by
  rw [Realm.roles_grant]
  split
  · exact .inl rfl
  · exact .inr rfl

/-- The requests that change a realm component, with the part of their surroundings they read. -/
inductive RealmRequest where
  | create (organizationId : OrganizationID) (grant : RealmGrantedRole)
  | updateRoles (users : UserTable) (organizationId : OrganizationID) (grant : RealmGrantedRole)
  | startReencryption (users : UserTable) (organizationId : OrganizationID) (author : DeviceID)
      (realmId : UUID) (encryptionRevision : ℕ) (recipients : List UserID) (timestamp now : DateTime)
  | finishReencryption (organizationId : OrganizationID) (author : DeviceID) (realmId : UUID)
      (encryptionRevision : ℕ) (isFinishedHook : Bool)

/-- One accepted request. A request that raises is no step. -/
def MemoryRealmComponent.step? (component : MemoryRealmComponent) :
    RealmRequest → Option MemoryRealmComponent
  | .create organizationId grant => (component.create organizationId grant).toOption
  | .updateRoles users organizationId grant =>
      (component.updateRoles users organizationId grant).toOption
  | .startReencryption users organizationId author realmId revision recipients timestamp now =>
      (component.startReencryptionMaintenance users organizationId author realmId revision recipients
        timestamp now).toOption
  | .finishReencryption organizationId author realmId revision hook =>
      (component.finishReencryptionMaintenance organizationId author realmId revision hook).toOption

namespace MemoryRealmComponent

theorem getRealm_eq_ok_iff {component : MemoryRealmComponent} {organizationId : OrganizationID}
    {realmId : UUID} {realm : Realm} :
    component.getRealm organizationId realmId = .ok realm ↔
      component.realms.get? (organizationId, realmId) = some realm := by
  unfold getRealm
  cases component.realms.get? (organizationId, realmId) <;> simp

theorem get?_setRealm (component : MemoryRealmComponent) (organizationId : OrganizationID)
    (realmId : UUID) (realm : Realm) (key : OrganizationID × UUID) :
    (component.setRealm organizationId realmId realm).realms.get? key =
      if key = (organizationId, realmId) then some realm else component.realms.get? key :=
  Dict.get?_insert ..

theorem create_eq_ok_iff {component next : MemoryRealmComponent} {organizationId : OrganizationID}
    {grant : RealmGrantedRole} :
    component.create organizationId grant = .ok next ↔
      grant.grantedBy.userId = grant.userId ∧ grant.role = some .owner ∧
      component.realms.get? (organizationId, grant.realmId) = none ∧
      next = component.setRealm organizationId grant.realmId { grantedRoles := [grant] } := by
  simp only [create, Except.bind_eq_ok_iff, Except.require_eq_ok_iff, exists_const,
    Except.pure_eq_ok_iff, eq_comm (b := next)]

theorem checkUpdateRoles_eq_ok_iff {realm : Realm} {grant : RealmGrantedRole} {done : Unit} :
    checkUpdateRoles realm grant = .ok done ↔
      realm.status.inMaintenance = false ∧
      realm.roles.get? grant.grantedBy.userId ∈ neededRoles (realm.roles.get? grant.userId) grant.role ∧
      realm.roles.get? grant.userId ≠ grant.role := by
  simp [checkUpdateRoles]

/-- Everything an accepted `update_roles` has checked, and all that it changes. -/
theorem updateRoles_eq_ok_iff {component next : MemoryRealmComponent} {users : UserTable}
    {organizationId : OrganizationID} {grant : RealmGrantedRole} :
    component.updateRoles users organizationId grant = .ok next ↔
      grant.grantedBy.userId ≠ grant.userId ∧
      (∃ user, users organizationId grant.userId = some user ∧
        ¬ (user.profile = .outsider ∧ grant.role ∈ [some RealmRole.manager, some .owner])) ∧
      ∃ realm, component.realms.get? (organizationId, grant.realmId) = some realm ∧
        checkUpdateRoles realm grant = .ok () ∧
        next = component.setRealm organizationId grant.realmId (realm.grant grant) := by
  cases found : users organizationId grant.userId with
  | none => simp [updateRoles, found]
  | some user =>
    simp only [updateRoles, found, Except.bind_eq_ok_iff, Except.require_eq_ok_iff, exists_const,
      getRealm_eq_ok_iff, Except.pure_eq_ok_iff, Except.ok.injEq, Option.some.injEq, exists_eq_left',
      Except.exists_done, eq_comm (b := next), Realm.grant]

/-- Everything a step of the realm component can do. -/
theorem step?_cases {component next : MemoryRealmComponent} {request : RealmRequest}
    (step : component.step? request = some next) :
    (∃ organizationId grant, request = .create organizationId grant ∧
      component.create organizationId grant = .ok next) ∨
    (∃ users organizationId grant, request = .updateRoles users organizationId grant ∧
      component.updateRoles users organizationId grant = .ok next) ∨
    (∃ organizationId realmId realm status, (∀ users org grant, request ≠ .updateRoles users org grant) ∧
      component.realms.get? (organizationId, realmId) = some realm ∧
      next = component.setRealm organizationId realmId { realm with status := status }) := by
  cases request with
  | create organizationId grant =>
    exact .inl ⟨organizationId, grant, rfl, Except.toOption_eq_some_iff.mp step⟩
  | updateRoles users organizationId grant =>
    exact .inr (.inl ⟨users, organizationId, grant, rfl, Except.toOption_eq_some_iff.mp step⟩)
  | startReencryption users organizationId author realmId revision recipients timestamp now =>
    refine .inr (.inr ?_)
    have started := Except.toOption_eq_some_iff.mp step
    simp only [startReencryptionMaintenance, Except.bind_eq_ok_iff, Except.require_eq_ok_iff,
      exists_const, getRealm_eq_ok_iff, Except.pure_eq_ok_iff] at started
    obtain ⟨realm, found, _, _, _, _, _, _, rfl⟩ := started
    exact ⟨organizationId, realmId, realm, _, by simp, found, rfl⟩
  | finishReencryption organizationId author realmId revision hook =>
    refine .inr (.inr ?_)
    have finished := Except.toOption_eq_some_iff.mp step
    simp only [finishReencryptionMaintenance, Except.bind_eq_ok_iff, Except.require_eq_ok_iff,
      exists_const, getRealm_eq_ok_iff, Except.pure_eq_ok_iff] at finished
    obtain ⟨realm, found, _, _, _, _, rfl⟩ := finished
    exact ⟨organizationId, realmId, realm, _, by simp, found, rfl⟩

end MemoryRealmComponent

/-- The user is known and not revoked at a date. -/
def isActive (users : UserTable) (organizationId : OrganizationID) (now : DateTime) (userId : UserID) : Bool :=
  (users organizationId userId).any fun user => user.revokedOn.all (· > now)

namespace MemoryRealmComponent

variable {users : UserTable} {organizationId : OrganizationID}

/-- The look-up of the participants does not fail on known users. -/
theorem exists_notRevokedRoles (now : DateTime) {userIds : List UserID}
    (known : ∀ userId ∈ userIds, (users organizationId userId).isSome = true) :
    ∃ participants, notRevokedRoles users organizationId now userIds = .ok participants ∧
      ∀ userId, userId ∈ participants ↔
        userId ∈ userIds ∧ isActive users organizationId now userId = true := by
  induction userIds with
  | nil => exact ⟨[], rfl, by simp⟩
  | cons first rest ih =>
    obtain ⟨user, isUser⟩ := Option.isSome_iff_exists.mp (known first (List.mem_cons_self ..))
    obtain ⟨others, found, member⟩ := ih fun userId there => known userId (List.mem_cons_of_mem _ there)
    have active : isActive users organizationId now first = user.revokedOn.all (· > now) := by
      rw [isActive, isUser, Option.any_some]
    refine ⟨if isActive users organizationId now first then first :: others else others, ?_, fun userId => ?_⟩
    · rw [notRevokedRoles, isUser, found, active]
      rfl
    · by_cases is : isActive users organizationId now first = true
      · rw [if_pos is, List.mem_cons, List.mem_cons, member]
        constructor
        · rintro (rfl | ⟨there, other⟩)
          · exact ⟨.inl rfl, is⟩
          · exact ⟨.inr there, other⟩
        · rintro ⟨rfl | there, other⟩
          · exact .inl rfl
          · exact .inr ⟨there, other⟩
      · rw [if_neg is, member, List.mem_cons]
        constructor
        · rintro ⟨there, other⟩
          exact ⟨.inr there, other⟩
        · rintro ⟨rfl | there, other⟩
          · exact absurd other is
          · exact ⟨there, other⟩

end MemoryRealmComponent

end Guardata
