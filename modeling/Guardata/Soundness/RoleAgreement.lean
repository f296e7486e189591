import Guardata.Model.Server
import Guardata.Proofs.RoleReplay

/-! # The backend and its clients on the roles of a realm

The backend decides about a role update at reception, with the roles that the dates recorded so
far lead to. A client decides again, at the date of the certificate. Along a run in which no
accepted update is related to a grant dated later, every client accepts what the backend serves
and computes the same roles. Nothing in the backend enforces that order of dates, and one pair of
crossed dates is enough to make every client refuse the whole workspace.
-/

namespace Guardata

open Machine MemoryRealmComponent

/-- The certificates of every realm are genuine, and the client's walk through them succeeds. -/
def RealmServer.Replayable (registry : Registry) (server : RealmServer) : Prop :=
  ∀ organizationId realmId realm, server.realms.realms.get? (organizationId, realmId) = some realm →
    (∀ grant ∈ realm.grantedRoles, grant.Certified (registry organizationId)) ∧
    Replays ∅ (realm.grantedRoles.sortedBy (·.grantedOn))

/-- The grant of an accepted certificate is the one that the author of the connection signed. -/
theorem loadRoleCertificate_eq_ok_iff {ctx : ClientContext} {now : DateTime}
    {certificate : Signed RealmRoleCertificateContent} {grant : RealmGrantedRole} :
    loadRoleCertificate ctx certificate now = .ok grant ↔
      certificate = ⟨ctx.verifyKey, some grant.content⟩ ∧ grant.certificate = certificate ∧
      grant.grantedBy = ctx.deviceId ∧ timestampsInTheBallpark grant.grantedOn now = true := by
  simp only [loadRoleCertificate, Except.bind_eq_ok_iff, Except.mapError_eq_ok_iff, Except.require_eq_ok_iff,
    exists_const, Except.pure_eq_ok_iff, RealmRoleCertificateContent.verifyAndLoad,
    Signed.verifyAndLoad_eq_ok_iff, Option.some.injEq]
  constructor
  · rintro ⟨data, ⟨signer, payload, author⟩, ballpark, rfl⟩
    refine ⟨?_, rfl, author, ballpark⟩
    obtain ⟨key, content⟩ := certificate
    cases signer
    cases payload
    rfl
  · rintro ⟨rfl, stored, author, ballpark⟩
    refine ⟨grant.content, ⟨rfl, rfl, author⟩, ballpark, ?_⟩
    rw [← stored]
    rfl

/-- Everything an accepted realm request does: it records one genuine grant. -/
theorem RealmServer.step?_cases {registry : Registry} {server next : RealmServer} {call : RealmCall}
    (step : server.step? registry call = some next) :
    ∃ grant, grant.Certified (registry call.connection.organizationId) ∧
      call.command.certificate.payload = some grant.content ∧
      timestampsInTheBallpark grant.grantedOn call.now = true ∧
      ((∃ certificate, call.command = .create certificate ∧
        server.realms.create call.connection.organizationId grant = .ok next.realms) ∨
      ∃ users certificate, call.command = .updateRoles users certificate ∧
        server.realms.updateRoles users call.connection.organizationId grant = .ok next.realms) := by
  obtain ⟨connection, now, command⟩ := call
  simp only [step?, Option.bind_eq_bind, Option.bind_eq_some_iff, Option.guard_eq_some', exists_const,
    Registry.authenticate, Option.map_eq_some_iff, Except.toOption_eq_some_iff, Option.pure_def,
    Option.some.injEq] at step
  obtain ⟨-, ctx, ⟨key, registered, rfl⟩, realms, handled, rfl⟩ := step
  cases command with
  | create certificate =>
    simp only [handle, apiRealmCreate, Except.bind_eq_ok_iff, Except.require_eq_ok_iff, exists_const,
      Except.mapError_eq_ok_iff, loadRoleCertificate_eq_ok_iff] at handled
    obtain ⟨-, grant, ⟨rfl, stored, author, ballpark⟩, -, -, created⟩ := handled
    exact ⟨grant, ⟨key, author ▸ registered, stored⟩, rfl, ballpark, .inl ⟨_, rfl, created⟩⟩
  | updateRoles users certificate =>
    simp only [handle, apiRealmUpdateRoles, Except.bind_eq_ok_iff, Except.require_eq_ok_iff, exists_const,
      Except.mapError_eq_ok_iff, loadRoleCertificate_eq_ok_iff] at handled
    obtain ⟨grant, ⟨rfl, stored, author, ballpark⟩, -, updated⟩ := handled
    exact ⟨grant, ⟨key, author ▸ registered, stored⟩, rfl, ballpark, .inr ⟨users, _, rfl, updated⟩⟩

/-- A role update is unrelated to every recorded grant that is dated later: such a grant is about
neither its target nor its author, and its target did not sign it. -/
def UpdateInOrder (server : RealmServer) (call : RealmCall) (_ : RealmServer) : Prop :=
  match call.command with
  | .create _ => True
  | .updateRoles _ certificate => ∀ data realm, certificate.payload = some data →
      server.realms.getRealm call.connection.organizationId data.realmId = .ok realm →
      ∀ later ∈ realm.grantedRoles, data.timestamp < later.grantedOn →
        later.userId ≠ data.userId ∧ later.userId ≠ data.author.userId ∧
          later.grantedBy.userId ≠ data.userId

theorem replayable_step {registry : Registry} {server next : RealmServer} {call : RealmCall}
    (step : server.step? registry call = some next) (inOrder : UpdateInOrder server call next)
    (replayable : server.Replayable registry) : next.Replayable registry := by
  obtain ⟨grant, certified, payload, -, accepted⟩ := RealmServer.step?_cases step
  intro organizationId realmId realm found
  rcases accepted with ⟨certificate, -, created⟩ | ⟨users, certificate, command, updated⟩
  · obtain ⟨self, -, -, stored⟩ := create_eq_ok_iff.mp created
    rw [stored, get?_setRealm] at found
    split at found
    · next same =>
      cases found
      cases same
      exact ⟨by simpa using certified, replays_created self⟩
    · exact replayable organizationId realmId realm found
  · obtain ⟨other, -, before, present, checked, stored⟩ := updateRoles_eq_ok_iff.mp updated
    rw [stored, get?_setRealm] at found
    split at found
    · next same =>
      cases found
      cases same
      obtain ⟨earlier, replays⟩ := replayable _ _ before present
      refine ⟨?_, replays_grant other checked ?_ replays⟩
      · intro candidate member
        rcases List.mem_append.mp member with old | new
        · exact earlier candidate old
        · exact (List.mem_singleton.mp new) ▸ certified
      · simp only [UpdateInOrder, command] at inOrder
        rw [command] at payload
        exact inOrder grant.content before payload (getRealm_eq_ok_iff.mpr present)
    · exact replayable organizationId realmId realm found

/-- The client accepts what the backend serves for a realm and computes the roles of the backend. -/
def RealmServer.ClientAgrees (registry : Registry) (server : RealmServer) : Prop :=
  ∀ ctx realmId certificates,
    server.realms.apiRealmGetRoleCertificates ctx realmId none = .ok certificates →
    ∃ realm certifs, server.realms.getRealm ctx.organizationId realmId = .ok realm ∧
      loadRealmRoleCertificates (registry ctx.organizationId) (.ok certificates) =
        .ok (certifs, realm.roles)

theorem apiRealmGetRoleCertificates_eq_ok_iff {component : MemoryRealmComponent} {ctx : ClientContext}
    {realmId : UUID} {certificates : List (Signed RealmRoleCertificateContent)} :
    component.apiRealmGetRoleCertificates ctx realmId none = .ok certificates ↔
      ∃ realm, component.getRealm ctx.organizationId realmId = .ok realm ∧
        realm.roles.contains ctx.deviceId.userId = true ∧
        realm.grantedRoles.map (·.certificate) = certificates := by
  simp only [apiRealmGetRoleCertificates, Except.mapError_eq_ok_iff, getRoleCertificates,
    Except.bind_eq_ok_iff,
    Except.require_eq_ok_iff, exists_const, Except.pure_eq_ok_iff]

theorem clientAgrees_of_replayable {registry : Registry} {server : RealmServer}
    (replayable : server.Replayable registry) : server.ClientAgrees registry := by
  intro ctx realmId certificates served
  obtain ⟨realm, found, -, rfl⟩ := apiRealmGetRoleCertificates_eq_ok_iff.mp served
  obtain ⟨certified, replays⟩ := replayable _ _ realm (getRealm_eq_ok_iff.mp found)
  exact ⟨realm, _, found, load_of_replays certified replays⟩

/-- After every run whose role updates are unrelated to the grants dated later, every list of
certificates that the backend serves is accepted and leads to the backend's roles. -/
theorem client_agrees_on_roles (registry : Registry) (start : DateTime) (calls : List RealmCall)
    (server : RealmServer) (inOrder : Along (RealmServer.step? registry) UpdateInOrder ⟨start, {}⟩ calls)
    (reached : run? (RealmServer.step? registry) ⟨start, {}⟩ calls = some server) :
    server.ClientAgrees registry := by
  apply clientAgrees_of_replayable
  refine run?_invariant (fun _ _ _ => replayable_step) inOrder reached ?_
  intro organizationId realmId realm found
  cases found

section Example

/-- Every device is registered with the same key. -/
private def oneKey : Registry := fun _ _ => some ⟨0⟩

private def registered : UserTable := fun _ _ => some ⟨.standard, none⟩

/-- A request of a user's device, with the certificate that this device signs. -/
private def callOf (author : String) (now : DateTime)
    (command : Signed RealmRoleCertificateContent → RealmCommand) (target : String)
    (role : Option RealmRole) (date : DateTime) : RealmCall :=
  ⟨⟨"org", ⟨author, "dev"⟩, .standard⟩, now, command ⟨⟨0⟩, some ⟨⟨author, "dev"⟩, date, 1, target, role⟩⟩⟩

/-- Alice opens a realm, makes Bob a manager, and Bob makes Carl a reader. -/
private def delegationDated (date : DateTime) : List RealmCall :=
  [callOf "alice" 100000000 .create "alice" (some .owner) 100000000,
    callOf "alice" 110000000 (.updateRoles registered) "bob" (some .manager) 110000000,
    callOf "bob" 120000000 (.updateRoles registered) "carl" (some .reader) date]

theorem client_agrees_on_roles_delegation :
    ∃ server, run? (RealmServer.step? oneKey) ⟨0, {}⟩ (delegationDated 120000000) = some server ∧
      server.ClientAgrees oneKey := by
  refine ⟨_, rfl, client_agrees_on_roles oneKey 0 (delegationDated 120000000) _ ?_ rfl⟩
  intro created step
  cases step
  refine ⟨trivial, ?_⟩
  intro updated step
  cases step
  refine ⟨?_, ?_⟩
  · intro data realm payload found
    cases payload
    cases found
    decide
  · intro last step
    cases step
    refine ⟨?_, trivial⟩
    intro data realm payload found
    cases payload
    cases found
    decide

/-- Bob's clock is fifteen seconds late. His certificate is dated before the grant that made him a
manager; the backend accepts it, and from then on every client refuses the realm. -/
theorem late_clock_locks_clients_out :
    ∃ server certificates,
      run? (RealmServer.step? oneKey) ⟨0, {}⟩ (delegationDated 105000000) = some server ∧
      server.realms.apiRealmGetRoleCertificates ⟨"org", ⟨"alice", "dev"⟩, .standard, ⟨0⟩⟩ 1 none =
        .ok certificates ∧
      loadRealmRoleCertificates (oneKey "org") (.ok certificates) =
        .error (.noRightToGive ⟨"bob", "dev"⟩ (some .reader) "carl" 105000000) ∧
      ¬ server.ClientAgrees oneKey := by
  refine ⟨_, _, rfl, rfl, by decide, ?_⟩
  intro agrees
  obtain ⟨realm, certifs, -, loaded⟩ := agrees ⟨"org", ⟨"alice", "dev"⟩, .standard, ⟨0⟩⟩ 1 _ rfl
  cases loaded

end Example

end Guardata
