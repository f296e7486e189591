import Guardata.Proofs.RealmRoles

/-! # Authority and effect of role updates

Two invariants of a realm component over all its runs. The first is unconditional: whatever dates
the grants declare, a realm keeps an owner, and the roles that carry authority change on an
owner's word only. The second is not: an update is acknowledged whenever it differs from the role
in force, yet it takes effect exactly when it is not back-dated, and from the first back-dated
update on the two views of the current roles may drift apart.
-/

namespace Guardata

open Machine MemoryRealmComponent

/-- Some user of the realm is an owner. -/
def Realm.Owned (realm : Realm) : Prop := ∃ userId, realm.roles.get? userId = some .owner

/-- Every realm of the component has an owner. -/
def MemoryRealmComponent.Owned (component : MemoryRealmComponent) : Prop :=
  ∀ key realm, component.realms.get? key = some realm → realm.Owned

theorem owner_of_needed {existing new authorRole : Option RealmRole}
    (entitled : authorRole ∈ neededRoles existing new)
    (authority : existing ∈ ownerOrManager ∨ new ∈ ownerOrManager) : authorRole = some .owner := by
  simpa [neededRoles, authority, ownerOnly] using entitled

/-- An author is never the target, so an owner who demotes an owner stays one. -/
theorem Realm.Owned.grant {realm : Realm} {grant : RealmGrantedRole} (owned : realm.Owned)
    (other : grant.grantedBy.userId ≠ grant.userId)
    (checked : checkUpdateRoles realm grant = .ok ()) : (realm.grant grant).Owned := by
  obtain ⟨userId, owner⟩ := owned
  obtain ⟨_, entitled, _⟩ := checkUpdateRoles_eq_ok_iff.mp checked
  by_cases target : userId = grant.userId
  · have authority : realm.roles.get? grant.userId ∈ ownerOrManager := by
      rw [← target, owner]
      decide
    refine ⟨grant.grantedBy.userId, ?_⟩
    rw [Realm.roles_grant_of_ne other]
    exact owner_of_needed entitled (.inl authority)
  · exact ⟨userId, by rw [Realm.roles_grant_of_ne target, owner]⟩

private theorem owned_created (grant : RealmGrantedRole) (owner : grant.role = some .owner) :
    Realm.Owned { grantedRoles := [grant] } := by
  refine ⟨grant.userId, ?_⟩
  simp [Realm.roles, List.sortedBy, applyGrant, owner]

/-- The step lemma: no request takes the last owner away. -/
theorem owned_step {component next : MemoryRealmComponent} {request : RealmRequest}
    (step : component.step? request = some next) (owned : component.Owned) : next.Owned := by
  intro key realm found
  rcases step?_cases step with ⟨organizationId, grant, -, created⟩ |
    ⟨users, organizationId, grant, -, updated⟩ | ⟨organizationId, realmId, before, status, -, present, rfl⟩
  · obtain ⟨-, owner, -, rfl⟩ := create_eq_ok_iff.mp created
    rw [get?_setRealm] at found
    split at found
    · cases found
      exact owned_created grant owner
    · exact owned key realm found
  · obtain ⟨other, -, before, present, checked, rfl⟩ := updateRoles_eq_ok_iff.mp updated
    rw [get?_setRealm] at found
    split at found
    · cases found
      exact (owned _ _ present).grant other checked
    · exact owned key realm found
  · rw [get?_setRealm] at found
    split at found
    · cases found
      exact owned (organizationId, realmId) before present
    · exact owned key realm found

/-- A step that touches a role of authority was asked for by an owner of the realm. -/
theorem authority_step {component next : MemoryRealmComponent} {request : RealmRequest}
    (step : component.step? request = some next) {key : OrganizationID × UUID} {before after : Realm}
    (source : component.realms.get? key = some before) (target : next.realms.get? key = some after)
    {userId : UserID} (changed : after.roles.get? userId ≠ before.roles.get? userId)
    (authority : before.roles.get? userId ∈ ownerOrManager ∨ after.roles.get? userId ∈ ownerOrManager) :
    ∃ users organizationId grant, request = .updateRoles users organizationId grant ∧
      before.roles.get? grant.grantedBy.userId = some .owner := by
  rcases step?_cases step with ⟨organizationId, grant, -, created⟩ |
    ⟨users, organizationId, grant, asked, updated⟩ | ⟨organizationId, realmId, realm, status, -, present, rfl⟩
  · obtain ⟨-, -, absent, rfl⟩ := create_eq_ok_iff.mp created
    rw [get?_setRealm] at target
    split at target
    · next same => rw [same, absent] at source; cases source
    · rw [source] at target; cases target; exact absurd rfl changed
  · obtain ⟨-, -, realm, present, checked, rfl⟩ := updateRoles_eq_ok_iff.mp updated
    rw [get?_setRealm] at target
    split at target
    · next same =>
      rw [same, present] at source
      cases source
      cases target
      have about : userId = grant.userId := by
        by_contra other
        exact changed (Realm.roles_grant_of_ne other)
      subst about
      refine ⟨users, organizationId, grant, asked, ?_⟩
      apply owner_of_needed (checkUpdateRoles_eq_ok_iff.mp checked).2.1
      rcases Realm.roles_grant_self before grant with new | kept
      · rwa [new] at authority
      · exact absurd kept changed
    · rw [source] at target; cases target; exact absurd rfl changed
  · rw [get?_setRealm] at target
    split at target
    · next same =>
      rw [same, present] at source
      cases source
      cases target
      exact absurd rfl changed
    · rw [source] at target; cases target; exact absurd rfl changed

/-- In every reachable state every realm has an owner, and a step changes a role of authority only
when an owner asked for it. The dates of the grants play no part. -/
theorem realm_never_loses_last_owner (requests : List RealmRequest) (component : MemoryRealmComponent)
    (reached : run? step? {} requests = some component) :
    component.Owned ∧
    ∀ request next, component.step? request = some next →
      ∀ key before after, component.realms.get? key = some before → next.realms.get? key = some after →
      ∀ userId, after.roles.get? userId ≠ before.roles.get? userId →
        (before.roles.get? userId ∈ ownerOrManager ∨ after.roles.get? userId ∈ ownerOrManager) →
        ∃ users organizationId grant, request = .updateRoles users organizationId grant ∧
          before.roles.get? grant.grantedBy.userId = some .owner := by
  refine ⟨run?_preserves (fun _ _ _ => owned_step) reached (by intro key realm found; cases found), ?_⟩
  intro request next step key before after source target userId changed authority
  exact authority_step step source target changed authority

section Example

private def deviceOf (name : String) : DeviceID := ⟨name, "dev"⟩

/-- A grant with a certificate that says the same. -/
private def grantOf (author target : String) (role : Option RealmRole) (date : DateTime) :
    RealmGrantedRole :=
  ⟨⟨⟨0⟩, some ⟨deviceOf author, date, 1, target, role⟩⟩, 1, target, role, deviceOf author, date⟩

private def everybody : UserTable := fun _ _ => some ⟨.standard, none⟩

/-- Alice makes Bob an owner, and Bob removes Alice with a date before that grant. -/
private def delegation : List RealmRequest :=
  [.create "org" (grantOf "alice" "alice" (some .owner) 100),
    .updateRoles everybody "org" (grantOf "alice" "bob" (some .owner) 110),
    .updateRoles everybody "org" (grantOf "bob" "alice" none 105)]

theorem realm_never_loses_last_owner_delegation :
    ∃ component, run? step? {} delegation = some component ∧ component.Owned :=
  ⟨_, rfl, (realm_never_loses_last_owner delegation _ rfl).1⟩

end Example

/-- The two views of the current roles are the same mapping, in every realm. -/
def MemoryRealmComponent.ViewsAgree (component : MemoryRealmComponent) : Prop :=
  ∀ key realm, component.realms.get? key = some realm →
    (realm.grantedRoles.foldl applyGrant ∅).Same realm.roles

/-- What an acknowledged role update promises about the states before and after it. -/
def TakesEffect (before after : MemoryRealmComponent) (organizationId : OrganizationID)
    (grant : RealmGrantedRole) : Prop :=
  ∃ source target current, before.getRealm organizationId grant.realmId = .ok source ∧
    after.getRealm organizationId grant.realmId = .ok target ∧
    after.getCurrentRoles organizationId grant.realmId = .ok current ∧
    target.roles.get? grant.userId = grant.role ∧
    (∀ other, other ≠ grant.userId → target.roles.get? other = source.roles.get? other) ∧
    current.Same target.roles

/-- A step that is a role update takes effect. -/
def UpdateTakesEffect (before : MemoryRealmComponent) (request : RealmRequest)
    (after : MemoryRealmComponent) : Prop :=
  match request with
  | .updateRoles _ organizationId grant => TakesEffect before after organizationId grant
  | _ => True

/-- A step that is a role update is not dated before a recorded grant about the same user. -/
def UpdateNotBackdated (before : MemoryRealmComponent) (request : RealmRequest)
    (_ : MemoryRealmComponent) : Prop :=
  match request with
  | .updateRoles _ organizationId grant =>
      ∀ realm, before.getRealm organizationId grant.realmId = .ok realm → realm.NotBackdated grant
  | _ => True

theorem received_grant (realm : Realm) (grant : RealmGrantedRole) (userId : UserID) :
    ((realm.grant grant).grantedRoles.foldl applyGrant ∅).get? userId =
      if userId = grant.userId then grant.role
      else (realm.grantedRoles.foldl applyGrant ∅).get? userId := by
  rw [Realm.grant, List.foldl_append]
  by_cases same : userId = grant.userId <;> cases role : grant.role <;> simp [applyGrant, role, same]

/-- Where the views agree, they agree after a grant exactly if it is not back-dated. -/
theorem views_grant {realm : Realm} {grant : RealmGrantedRole}
    (agree : (realm.grantedRoles.foldl applyGrant ∅).Same realm.roles)
    (ordered : realm.NotBackdated grant) :
    ((realm.grant grant).grantedRoles.foldl applyGrant ∅).Same (realm.grant grant).roles := by
  intro userId
  rw [received_grant, Realm.roles_grant, agree userId]
  by_cases same : userId = grant.userId <;> simp [same, ordered]

theorem takesEffect_iff {component next : MemoryRealmComponent} {users : UserTable}
    {organizationId : OrganizationID} {grant : RealmGrantedRole} (agree : component.ViewsAgree)
    (updated : component.updateRoles users organizationId grant = .ok next) :
    TakesEffect component next organizationId grant ↔
      ∀ realm, component.getRealm organizationId grant.realmId = .ok realm →
        realm.NotBackdated grant := by
  obtain ⟨-, -, realm, present, checked, rfl⟩ := updateRoles_eq_ok_iff.mp updated
  have stored : (component.setRealm organizationId grant.realmId (realm.grant grant)).getRealm
      organizationId grant.realmId = .ok (realm.grant grant) := by
    rw [getRealm_eq_ok_iff, get?_setRealm, if_pos rfl]
  have found := getRealm_eq_ok_iff.mpr present
  constructor
  · rintro ⟨source, target, current, atSource, atTarget, -, effect, -⟩ other atOther
    rw [found] at atSource atOther
    rw [stored] at atTarget
    cases atSource
    cases atOther
    cases atTarget
    by_contra backdated
    -- A back-dated grant leaves the old role in force, and acceptance made sure it differs.
    rw [Realm.roles_grant, if_neg fun both => backdated both.2] at effect
    exact (checkUpdateRoles_eq_ok_iff.mp checked).2.2 effect
  · intro notBackdated
    have ordered := notBackdated realm found
    refine ⟨realm, realm.grant grant, _, found, stored, ?_, ?_, ?_,
      views_grant (agree _ _ present) ordered⟩
    · simp [getCurrentRoles, stored, bind, Except.bind, pure, Except.pure]
    · rw [Realm.roles_grant, if_pos ⟨rfl, ordered⟩]
    · exact fun other different => Realm.roles_grant_of_ne different

theorem viewsAgree_step {component next : MemoryRealmComponent} {request : RealmRequest}
    (agree : component.ViewsAgree) (step : component.step? request = some next)
    (ordered : UpdateNotBackdated component request next) : next.ViewsAgree := by
  intro key realm found
  rcases step?_cases step with ⟨organizationId, grant, -, created⟩ |
    ⟨users, organizationId, grant, rfl, updated⟩ | ⟨organizationId, realmId, before, status, -, present, rfl⟩
  · obtain ⟨-, -, -, rfl⟩ := create_eq_ok_iff.mp created
    rw [get?_setRealm] at found
    split at found
    · cases found
      exact Dict.Same.refl _
    · exact agree key realm found
  · obtain ⟨-, -, before, present, -, rfl⟩ := updateRoles_eq_ok_iff.mp updated
    rw [get?_setRealm] at found
    split at found
    · cases found
      exact views_grant (agree _ _ present) (ordered before (getRealm_eq_ok_iff.mpr present))
    · exact agree key realm found
  · rw [get?_setRealm] at found
    split at found
    · cases found
      exact agree (organizationId, realmId) before present
    · exact agree key realm found

/-- Every role update of a run takes effect if and only if none of them is back-dated: dated before
a grant about the same user that the realm had already recorded. -/
theorem role_updates_take_effect_iff (requests : List RealmRequest) :
    Along step? UpdateTakesEffect {} requests ↔ Along step? UpdateNotBackdated {} requests := by
  refine along_congr MemoryRealmComponent.ViewsAgree ?_ ?_ ?_ requests
  · intro component request next agree step
    rcases step?_cases step with ⟨organizationId, grant, rfl, -⟩ |
      ⟨users, organizationId, grant, rfl, updated⟩ | ⟨organizationId, realmId, realm, status, other, -⟩
    · exact Iff.rfl
    · exact takesEffect_iff agree updated
    · cases request with
      | updateRoles users organizationId grant => exact absurd rfl (other users organizationId grant)
      | _ => exact Iff.rfl
  · exact fun component request next agree step => viewsAgree_step agree step
  · intro key realm found
    cases found

section Counterexample

/-- Alice owns the realm, makes Bob a reader, and revokes him with a date before that grant, all
within the thirty minutes that the backend tolerates. The revocation is acknowledged, Bob keeps
his role, and the two views contradict each other. -/
theorem backdated_revocation_has_no_effect :
    timestampsInTheBallpark 105000000 120000000 = true ∧
    ∃ before after realm current,
      run? step? {} [.create "org" (grantOf "alice" "alice" (some .owner) 100000000),
        .updateRoles everybody "org" (grantOf "alice" "bob" (some .reader) 110000000)] = some before ∧
      before.updateRoles everybody "org" (grantOf "alice" "bob" none 105000000) = .ok after ∧
      after.getRealm "org" 1 = .ok realm ∧ realm.roles.get? "bob" = some .reader ∧
      after.getCurrentRoles "org" 1 = .ok current ∧ current.get? "bob" = none ∧
      ¬ TakesEffect before after "org" (grantOf "alice" "bob" none 105000000) := by
  refine ⟨by decide, _, _, _, _, rfl, rfl, rfl, by decide, rfl, by decide, ?_⟩
  rintro ⟨source, target, current, -, atTarget, -, effect, -⟩
  cases atTarget
  revert effect
  decide

end Counterexample

end Guardata
