import Guardata.Proofs.VlobAccess
import Guardata.Soundness.RoleAgreement

/-! # Which accepted manifests stay readable

The backend lets a user write while the role in force at reception allows it; a reader asks what
role the author had at the declared date of the manifest, and may answer from a cache. The two
agree as long as dates do not cross: a version is not dated before the grant that lets its author
write, a grant that takes the right to write away is not dated before a version already accepted,
and a cache that is reused lacks no certificate that speaks about the version. The backend checks
none of the three.
-/

namespace Guardata

open Machine MemoryRealmComponent MemoryVlobComponent

variable {γ : Type} {registry : Registry}

/-- What makes every accepted version readable for every client. -/
structure Deployment.Readable (registry : Registry) (deployment : Deployment γ) : Prop where
  replayable : deployment.server.Replayable registry
  chronological : ∀ key realm, deployment.server.realms.realms.get? key = some realm →
    realm.Chronological
  writable : ∀ organizationId vlobId vlob,
    deployment.vlobs.vlobs.get? (organizationId, vlobId) = some vlob →
    ∃ realm, deployment.server.realms.realms.get? (organizationId, vlob.realmId) = some realm ∧
      ∀ version ∈ vlob.data, realm.CanWriteAt version.author.userId version.timestamp
  cached : ∀ client certifs date,
    (deployment.clients client).loader.realmRoleCertificatesCache = some (certifs, date) →
    ∃ realm, deployment.server.realms.realms.get? ((deployment.clients client).organizationId,
        (deployment.clients client).loader.workspaceId) = some realm ∧
      certifs <+: realm.grantedRoles.map (·.content)

/-- Role certificates are dated strictly after those that the realm already has. -/
def CertificatesIncrease (deployment : Deployment γ) (event : DeploymentEvent γ)
    (_ : Deployment γ) : Prop :=
  match event with
  | .realm call => ∀ data realm, call.command.certificate.payload = some data →
      deployment.server.realms.getRealm call.connection.organizationId data.realmId = .ok realm →
      ∀ grant ∈ realm.grantedRoles, grant.grantedOn < data.timestamp
  | _ => True

/-- The dates of a step do not cross those of the steps before it. -/
def DatesDoNotCross (registry : Registry) (deployment : Deployment γ) (event : DeploymentEvent γ)
    (_ : Deployment γ) : Prop :=
  match event with
  -- A grant that takes the right to write away is dated after every version of its target.
  | .realm call => ∀ data, call.command.certificate.payload = some data → data.role ∉ canWriteRoles →
      ∀ vlobId vlob, deployment.vlobs.vlobs.get? (call.connection.organizationId, vlobId) = some vlob →
      vlob.realmId = data.realmId → ∀ version ∈ vlob.data, version.author.userId = data.userId →
      version.timestamp < data.timestamp
  -- A version is not dated before the grant that lets its author write.
  | .vlobCreate connection _ realmId _ _ timestamp _ => ∀ realm,
      deployment.server.realms.getRealm connection.organizationId realmId = .ok realm →
      realm.CanWriteAt connection.deviceId.userId timestamp
  | .vlobUpdate connection _ _ vlobId _ timestamp _ => ∀ vlob realm,
      deployment.vlobs.getVlob connection.organizationId vlobId = .ok vlob →
      deployment.server.realms.getRealm connection.organizationId vlob.realmId = .ok realm →
      realm.CanWriteAt connection.deviceId.userId timestamp
  -- A cache that is reused holds every certificate about the author that the date admits.
  | .load call => ∀ ctx number data certifs realm,
      registry.authenticate (deployment.clients call.client).connection = some ctx →
      deployment.vlobRead ctx call call.version call.timestamp = .ok (number, data) →
      (deployment.clients call.client).loader.cachedCertificates? data.timestamp = some certifs →
      deployment.server.realms.getRealm ctx.organizationId
        (deployment.clients call.client).loader.workspaceId = .ok realm →
      ∀ grant ∈ realm.grantedRoles, grant.userId = data.author.userId →
        grant.grantedOn ≤ data.timestamp → grant.content ∈ certifs

/-- A load of a version of the client's own workspace that comes to the check of the author's role
passes it, and so returns the manifest. -/
def LoadPasses (registry : Registry) (deployment : Deployment γ) (event : DeploymentEvent γ)
    (_ : Deployment γ) : Prop :=
  match event with
  | .load call => ∀ ctx vlob manifest data,
      registry.authenticate (deployment.clients call.client).connection = some ctx →
      (call.version = none ∨ call.timestamp = none) →
      deployment.vlobs.vlobs.get? (ctx.organizationId, call.entryId) = some vlob →
      vlob.realmId = (deployment.clients call.client).loader.workspaceId →
      verifyManifest (registry ctx.organizationId) call.entry call.entryId call.version
        call.expectedBackendTimestamp (deployment.vlobRead ctx call call.version call.timestamp) =
        .ok (manifest, data) →
      (deployment.loadManifest registry ctx call).1 = .ok manifest
  | _ => True

section Grants

/-- A grant dated last leaves every version readable, unless it takes the right to write away from
an author who used it at that date or later. -/
theorem Realm.CanWriteAt.grant {realm : Realm} {grant : RealmGrantedRole} {userId : UserID}
    {timestamp : DateTime} (writable : realm.CanWriteAt userId timestamp)
    (newest : ∀ other ∈ realm.grantedRoles, other.grantedOn < grant.grantedOn)
    (kept : grant.role ∉ canWriteRoles → grant.userId = userId → timestamp < grant.grantedOn) :
    (realm.grant grant).CanWriteAt userId timestamp := by
  obtain ⟨witness, member, about, dated, role, latest⟩ := writable
  have listed {other : RealmGrantedRole} :
      other ∈ (realm.grant grant).grantedRoles ↔ other ∈ realm.grantedRoles ∨ other = grant := by
    simp [Realm.grant]
  by_cases admitted : grant.userId = userId ∧ grant.grantedOn ≤ timestamp
  · have writes : grant.role ∈ canWriteRoles := by
      by_contra removed
      exact absurd (kept removed admitted.1) (not_lt.mpr admitted.2)
    refine ⟨grant, listed.mpr (.inr rfl), admitted.1, admitted.2, writes, ?_⟩
    intro other otherMem _ _
    rcases listed.mp otherMem with old | rfl
    · exact (newest other old).le
    · exact le_rfl
  · refine ⟨witness, listed.mpr (.inl member), about, dated, role, ?_⟩
    intro other otherMem aboutOther datedOther
    rcases listed.mp otherMem with old | rfl
    · exact latest other old aboutOther datedOther
    · exact absurd ⟨aboutOther, datedOther⟩ admitted

theorem Realm.Chronological.grant {realm : Realm} {grant : RealmGrantedRole}
    (chronological : realm.Chronological)
    (newest : ∀ other ∈ realm.grantedRoles, other.grantedOn < grant.grantedOn) :
    (realm.grant grant).Chronological := by
  rw [Realm.Chronological, Realm.grant, List.pairwise_append]
  refine ⟨chronological, List.pairwise_singleton _ _, ?_⟩
  intro earlier member later last
  rw [List.mem_singleton.mp last]
  exact newest earlier member

end Grants

/-- What a realm request does to the realms: one is new, or one gets one more grant. -/
theorem realms_step {server next : RealmServer} {call : RealmCall}
    (step : server.step? registry call = some next) :
    ∃ grant, call.command.certificate.payload = some grant.content ∧
      ((server.realms.realms.get? (call.connection.organizationId, grant.realmId) = none ∧
        next.realms = server.realms.setRealm call.connection.organizationId grant.realmId
          { grantedRoles := [grant] }) ∨
      ∃ realm, server.realms.realms.get? (call.connection.organizationId, grant.realmId) = some realm ∧
        next.realms = server.realms.setRealm call.connection.organizationId grant.realmId
          (realm.grant grant)) := by
  obtain ⟨grant, -, payload, -, accepted⟩ := RealmServer.step?_cases step
  refine ⟨grant, payload, ?_⟩
  rcases accepted with ⟨_, _, created⟩ | ⟨_, _, _, updated⟩
  · obtain ⟨-, -, absent, stored⟩ := create_eq_ok_iff.mp created
    exact .inl ⟨absent, stored⟩
  · obtain ⟨-, -, realm, present, -, stored⟩ := updateRoles_eq_ok_iff.mp updated
    exact .inr ⟨realm, present, stored⟩

/-- The step lemma for a realm request. -/
theorem readable_realm {deployment : Deployment γ} {server : RealmServer} {call : RealmCall}
    (step : deployment.server.step? registry call = some server)
    (increase : CertificatesIncrease deployment (.realm call) deployment)
    (uncrossed : DatesDoNotCross registry deployment (.realm call) deployment)
    (readable : deployment.Readable registry) :
    Deployment.Readable registry { deployment with server := server } := by
  have inOrder : UpdateInOrder deployment.server call server := by
    unfold UpdateInOrder
    split
    · trivial
    · next users certificate command =>
      intro data realm payload found later member newer
      have older := increase data realm (by rw [command]; exact payload) found later member
      exact absurd older (not_lt.mpr newer.le)
  obtain ⟨grant, payload, effect⟩ := realms_step step
  -- Each realm that was there is still there, with the new grant or without it.
  have kept (key : OrganizationID × UUID) (realm : Realm)
      (present : deployment.server.realms.realms.get? key = some realm) :
      server.realms.realms.get? key = some realm ∨
      (key = (call.connection.organizationId, grant.realmId) ∧
        (∀ other ∈ realm.grantedRoles, other.grantedOn < grant.grantedOn) ∧
        server.realms.realms.get? key = some (realm.grant grant)) := by
    rcases effect with ⟨absent, stored⟩ | ⟨before, found, stored⟩
    all_goals rw [stored, get?_setRealm]
    all_goals split
    · next same => rw [same, absent] at present; cases present
    · exact .inl present
    · next same =>
      rw [same, found] at present
      cases present
      exact .inr ⟨same, increase grant.content realm payload (getRealm_eq_ok_iff.mpr found), rfl⟩
    · exact .inl present
  refine ⟨replayable_step step inOrder readable.replayable, ?_, ?_, ?_⟩
  · intro key realm found
    rcases effect with ⟨-, stored⟩ | ⟨before, present, stored⟩
    · rw [stored, get?_setRealm] at found
      split at found
      · cases found
        exact List.pairwise_singleton _ _
      · exact readable.chronological key realm found
    · rw [stored, get?_setRealm] at found
      split at found
      · cases found
        exact (readable.chronological _ _ present).grant
          (increase grant.content before payload (getRealm_eq_ok_iff.mpr present))
      · exact readable.chronological key realm found
  · intro organizationId vlobId vlob found
    obtain ⟨realm, present, writable⟩ := readable.writable organizationId vlobId vlob found
    rcases kept _ realm present with same | ⟨key, newest, granted⟩
    · exact ⟨realm, same, writable⟩
    · refine ⟨realm.grant grant, granted, fun version member => (writable version member).grant newest ?_⟩
      intro removed about
      obtain ⟨rfl, sameRealm⟩ := Prod.mk.inj key
      exact uncrossed grant.content payload removed vlobId vlob found sameRealm version member about.symm
  · intro client certifs date filled
    obtain ⟨realm, present, cached⟩ := readable.cached client certifs date filled
    rcases kept _ realm present with same | ⟨-, -, granted⟩
    · exact ⟨realm, same, cached⟩
    · refine ⟨realm.grant grant, granted, cached.trans ?_⟩
      rw [Realm.grant, List.map_append]
      exact List.prefix_append _ _

/-- Storing a version that its author could write at its date keeps everything readable. -/
theorem readable_write {deployment : Deployment γ} {vlobs : MemoryVlobComponent (ManifestBlob γ)}
    {now : DateTime} {organizationId : OrganizationID} {vlobId : UUID} {vlob : Vlob (ManifestBlob γ)}
    {realm : Realm} (readable : deployment.Readable registry)
    (stored : vlobs.vlobs = deployment.vlobs.vlobs.insert (organizationId, vlobId) vlob)
    (present : deployment.server.realms.realms.get? (organizationId, vlob.realmId) = some realm)
    (writable : ∀ version ∈ vlob.data, realm.CanWriteAt version.author.userId version.timestamp) :
    Deployment.Readable registry
      { deployment with vlobs := vlobs, server := { deployment.server with clock := now } } := by
  refine ⟨readable.replayable, readable.chronological, ?_, readable.cached⟩
  intro otherOrganization otherId other found
  change vlobs.vlobs.get? (otherOrganization, otherId) = some other at found
  rw [stored, Dict.get?_insert] at found
  split at found
  · next same =>
    cases found
    cases same
    exact ⟨realm, present, writable⟩
  · exact readable.writable otherOrganization otherId other found

theorem organization_of_authenticate {client : Client} {ctx : ClientContext}
    (authenticated : registry.authenticate client.connection = some ctx) :
    ctx.organizationId = client.organizationId := by
  obtain ⟨key, -, rfl⟩ := Option.map_eq_some_iff.mp authenticated
  rfl

/-- What a client gets when it asks for the certificates of a realm now. -/
theorem loaded_certificates {deployment : Deployment γ} (readable : deployment.Readable registry)
    {ctx : ClientContext} {realmId : UUID}
    {loaded : List RealmRoleCertificateContent × Dict UserID RealmRole}
    (load : loadRealmRoleCertificates (registry ctx.organizationId)
      (deployment.server.realms.apiRealmGetRoleCertificates ctx realmId none) = .ok loaded) :
    ∃ realm, deployment.server.realms.realms.get? (ctx.organizationId, realmId) = some realm ∧
      loaded.1 = realm.grantedRoles.map (·.content) := by
  cases served : deployment.server.realms.apiRealmGetRoleCertificates ctx realmId none with
  | error refusal =>
    rw [served] at load
    simp [loadRealmRoleCertificates, Except.mapError, bind, Except.bind] at load
  | ok certificates =>
    obtain ⟨realm, found, -, rfl⟩ := apiRealmGetRoleCertificates_eq_ok_iff.mp served
    have present := getRealm_eq_ok_iff.mp found
    obtain ⟨certified, replays⟩ := readable.replayable _ _ realm present
    rw [served, load_of_replays certified replays] at load
    cases load
    refine ⟨realm, present, ?_⟩
    rw [List.sortedBy_eq_self]
    exact (readable.chronological _ _ present).imp le_of_lt

/-- A load keeps the cache, or fills it with the certificates of the realm. -/
theorem readable_load {deployment : Deployment γ} {call : LoadCall} {ctx : ClientContext}
    (authenticated : registry.authenticate (deployment.clients call.client).connection = some ctx)
    (readable : deployment.Readable registry) :
    Deployment.Readable registry { deployment with
      clients := Function.update deployment.clients call.client
        { deployment.clients call.client with loader :=
        (deployment.loadManifest registry ctx call).2 } } := by
  have organization := organization_of_authenticate authenticated
  have outcome : (deployment.loadManifest registry ctx call).2 = (deployment.clients call.client).loader ∨
      ∃ loaded, loadRealmRoleCertificates (registry ctx.organizationId)
        (deployment.server.realms.apiRealmGetRoleCertificates ctx
          (deployment.clients call.client).loader.workspaceId none) = .ok loaded ∧
        (deployment.loadManifest registry ctx call).2 = { (deployment.clients call.client).loader with
          realmRoleCertificatesCache := some (loaded.1, call.now) } := by
    unfold Deployment.loadManifest RemoteLoader.loadManifest RemoteLoader.getUserRealmRoleAt
    dsimp only
    split
    · exact .inl rfl
    · split
      · exact .inl rfl
      · cases (deployment.clients call.client).loader.cachedCertificates? _ with
        | some certifs => exact .inl rfl
        | none =>
          cases load : loadRealmRoleCertificates (registry ctx.organizationId)
              (deployment.server.realms.apiRealmGetRoleCertificates ctx
                (deployment.clients call.client).loader.workspaceId none) with
          | error err => exact .inl rfl
          | ok loaded => exact .inr ⟨loaded, rfl, rfl⟩
  refine ⟨readable.replayable, readable.chronological, readable.writable, ?_⟩
  intro client certifs date filled
  by_cases same : client = call.client
  · subst same
    simp only [Function.update_self] at filled ⊢
    rcases outcome with unchanged | ⟨loaded, load, refreshed⟩
    · rw [unchanged] at filled ⊢
      exact readable.cached _ certifs date filled
    · rw [refreshed] at filled ⊢
      cases filled
      obtain ⟨realm, present, all⟩ := loaded_certificates readable load
      rw [organization] at present
      exact ⟨realm, present, all ▸ List.prefix_rfl⟩
  · simp only [Function.update_of_ne same] at filled ⊢
    exact readable.cached client certifs date filled

/-- The step lemma. -/
theorem readable_step {deployment next : Deployment γ} {event : DeploymentEvent γ}
    (step : deployment.step? registry event = some next)
    (increase : CertificatesIncrease deployment event next)
    (uncrossed : DatesDoNotCross registry deployment event next)
    (readable : deployment.Readable registry) : next.Readable registry := by
  cases event with
  | realm call =>
    obtain ⟨server, accepted, rfl⟩ := Option.map_eq_some_iff.mp step
    exact readable_realm accepted increase uncrossed readable
  | vlobCreate connection now realmId revision vlobId timestamp blob =>
    simp only [Deployment.step?, Option.bind_eq_bind, Option.bind_eq_some_iff, Registry.authenticate,
      Option.map_eq_some_iff, Except.toOption_eq_some_iff, Option.pure_def, Option.some.injEq] at step
    obtain ⟨-, -, ctx, ⟨key, -, rfl⟩, vlobs, created, rfl⟩ := step
    obtain ⟨⟨realm, found⟩, stored⟩ := apiVlobCreate_spec created
    refine readable_write readable stored (getRealm_eq_ok_iff.mp found) ?_
    intro version member
    rw [List.mem_singleton.mp member]
    exact uncrossed realm found
  | vlobUpdate connection now revision vlobId version timestamp blob =>
    simp only [Deployment.step?, Option.bind_eq_bind, Option.bind_eq_some_iff, Registry.authenticate,
      Option.map_eq_some_iff, Except.toOption_eq_some_iff, Option.pure_def, Option.some.injEq] at step
    obtain ⟨-, -, ctx, ⟨key, -, rfl⟩, vlobs, updated, rfl⟩ := step
    obtain ⟨vlob, found, stored⟩ := apiVlobUpdate_spec updated
    obtain ⟨realm, present, writable⟩ := readable.writable _ _ vlob (getVlob_eq_ok_iff.mp found)
    refine readable_write readable stored present ?_
    intro version member
    rcases List.mem_append.mp member with old | new
    · exact writable version old
    · rw [List.mem_singleton.mp new]
      exact uncrossed vlob realm found (getRealm_eq_ok_iff.mpr present)
  | load call =>
    simp only [Deployment.step?, Option.bind_eq_bind, Option.bind_eq_some_iff, Option.pure_def,
      Option.some.injEq] at step
    obtain ⟨ctx, authenticated, rfl⟩ := step
    exact readable_load authenticated readable

/-- From a cache that lacks nothing about the author, or from the backend, a client finds that the
author of an accepted version could write at its date. -/
theorem author_role_found {deployment : Deployment γ} {client : Client} {ctx : ClientContext}
    {data : VlobVersion (ManifestBlob γ)} {realm : Realm} {now : DateTime}
    (readable : deployment.Readable registry)
    (cached : ∀ certifs date, client.loader.realmRoleCertificatesCache = some (certifs, date) →
      certifs <+: realm.grantedRoles.map (·.content))
    (present : deployment.server.realms.realms.get? (ctx.organizationId, client.loader.workspaceId) =
      some realm)
    (reader : realm.roles.contains ctx.deviceId.userId = true)
    (writable : realm.CanWriteAt data.author.userId data.timestamp)
    (complete : ∀ certifs, client.loader.cachedCertificates? data.timestamp = some certifs →
      ∀ grant ∈ realm.grantedRoles, grant.userId = data.author.userId →
        grant.grantedOn ≤ data.timestamp → grant.content ∈ certifs) :
    ∃ role ∈ canWriteRoles, (client.loader.getUserRealmRoleAt
      (loadRealmRoleCertificates (registry ctx.organizationId)
        (deployment.server.realms.apiRealmGetRoleCertificates ctx client.loader.workspaceId none))
      now data.author.userId data.timestamp).1 = .ok role := by
  have chronological := readable.chronological _ _ present
  have full := roleAt_canWrite chronological writable
  unfold RemoteLoader.getUserRealmRoleAt
  cases reused : client.loader.cachedCertificates? data.timestamp with
  | some certifs =>
    obtain ⟨date, filled⟩ := RemoteLoader.cache_of_cachedCertificates? reused
    refine ⟨_, ?_, rfl⟩
    rw [roleAt_isPrefix chronological (cached certifs date filled) (complete certifs reused)]
    exact full
  | none =>
    obtain ⟨certified, replays⟩ := readable.replayable _ _ realm present
    have reply := apiRealmGetRoleCertificates_eq_ok_iff.mpr
      ⟨realm, getRealm_eq_ok_iff.mpr present, reader, rfl⟩
    rw [reply, load_of_replays certified replays, List.sortedBy_eq_self _ (chronological.imp le_of_lt)]
    exact ⟨_, full, rfl⟩

/-- Where everything is readable, a load passes the check of the author's role. -/
theorem load_passes {deployment next : Deployment γ} {event : DeploymentEvent γ}
    (uncrossed : DatesDoNotCross registry deployment event next)
    (readable : deployment.Readable registry) : LoadPasses registry deployment event next := by
  cases event with
  | load call =>
    intro ctx vlob manifest data authenticated exclusive stored workspace verified
    have organization := organization_of_authenticate authenticated
    obtain ⟨number, served⟩ := served_of_verified verified
    obtain ⟨found, realm, sameVlob, listed, accessible, reader⟩ := apiVlobRead_spec served
    cases stored.symm.trans sameVlob
    obtain ⟨sameRealm, present, writable⟩ := readable.writable _ _ vlob stored
    cases (getRealm_eq_ok_iff.mp accessible).symm.trans present
    rw [workspace] at accessible present
    have cached (certifs : List RealmRoleCertificateContent) (date : DateTime)
        (filled : (deployment.clients call.client).loader.realmRoleCertificatesCache =
          some (certifs, date)) : certifs <+: realm.grantedRoles.map (·.content) := by
      obtain ⟨known, sameRealm, cached⟩ := readable.cached _ certifs date filled
      rw [← organization, present] at sameRealm
      cases sameRealm
      exact cached
    obtain ⟨role, writes, answer⟩ := author_role_found readable cached present reader
      (writable data listed) (fun certifs reused =>
        uncrossed ctx number data certifs realm authenticated served reused accessible)
    exact RemoteLoader.loadManifest_of_role exclusive verified answer writes
  | _ => trivial

/-- In every run of grants, writes and loads whose role certificates have increasing dates and
whose dates do not cross, every load of an accepted version passes the check of its author. -/
theorem accepted_versions_readable (registry : Registry) (start : DateTime) (clients : ℕ → Client)
    (empty : ∀ client, (clients client).loader.realmRoleCertificatesCache = none)
    (events : List (DeploymentEvent γ))
    (increase : Along (Deployment.step? registry) CertificatesIncrease ⟨⟨start, {}⟩, {}, clients⟩ events)
    (uncrossed : Along (Deployment.step? registry) (DatesDoNotCross registry)
      ⟨⟨start, {}⟩, {}, clients⟩ events) :
    Along (Deployment.step? registry) (LoadPasses registry) ⟨⟨start, {}⟩, {}, clients⟩ events := by
  refine along_of_invariant (Deployment.Readable registry) ?_ ?_ ?_ (increase.and uncrossed)
  · intro deployment event next readable step conditions
    exact load_passes conditions.2 readable
  · intro deployment event next readable step conditions
    exact readable_step step conditions.1 conditions.2 readable
  · refine ⟨?_, ?_, ?_, ?_⟩
    · intro organizationId realmId realm found
      cases found
    · intro key realm found
      cases found
    · intro organizationId vlobId vlob found
      cases found
    · intro client certifs date filled
      rw [show (clients client).loader.realmRoleCertificatesCache = none from empty client] at filled
      cases filled

section Example

private def sameKey : Registry := fun _ _ => some ⟨0⟩

private def knownUsers : UserTable := fun _ _ => some ⟨.standard, none⟩

private def connectionOf (user : String) : Connection := ⟨"org", ⟨user, "dev"⟩, .standard⟩

/-- Every client is Alice's, for the same workspace. -/
private def readers : ℕ → Client := fun _ => ⟨"org", .standard, ⟨⟨"alice", "dev"⟩, 1, none⟩⟩

private def roleEvent (author : String) (command : Signed RealmRoleCertificateContent → RealmCommand)
    (target : String) (role : Option RealmRole) (date : DateTime) : DeploymentEvent Unit :=
  .realm ⟨connectionOf author, 100000000,
    command ⟨⟨0⟩, some ⟨⟨author, "dev"⟩, date, 1, target, role⟩⟩⟩

/-- Bob uploads the first version of an entry, encrypted with the key of the workspace. -/
private def bobWrites (date : DateTime) : DeploymentEvent Unit :=
  .vlobCreate (connectionOf "bob") 100000000 1 1 7 date
    ⟨⟨5⟩, ⟨⟨0⟩, some ⟨⟨"bob", "dev"⟩, date, 7, 1, ()⟩⟩⟩

private def aliceLoads : LoadCall := ⟨0, ⟨⟨5⟩, 1⟩, 7, some 1, none, none, 100000000⟩

/-- Alice opens a realm, lets Bob contribute, Bob writes, and Alice reads. -/
private def sharing (date : DateTime) : List (DeploymentEvent Unit) :=
  [roleEvent "alice" .create "alice" (some .owner) 90000000,
    roleEvent "alice" (.updateRoles knownUsers) "bob" (some .contributor) 95000000, bobWrites date,
    .load aliceLoads]

private theorem sharing_increases (date : DateTime) :
    Along (Deployment.step? sameKey) CertificatesIncrease ⟨⟨0, {}⟩, {}, readers⟩ (sharing date) := by
  intro opened step
  cases step
  refine ⟨?_, ?_⟩
  · intro data realm payload found
    cases payload
    cases found
  intro shared step
  cases step
  refine ⟨?_, fun written _ => ⟨trivial, fun read _ => ⟨trivial, trivial⟩⟩⟩
  intro data realm payload found
  cases payload
  cases found
  decide

theorem accepted_versions_readable_sharing :
    Along (Deployment.step? sameKey) (LoadPasses sameKey) ⟨⟨0, {}⟩, {}, readers⟩ (sharing 97000000) := by
  refine accepted_versions_readable sameKey 0 readers (fun _ => rfl) _ (sharing_increases _) ?_
  intro opened step
  cases step
  refine ⟨?_, ?_⟩
  · intro data payload removed vlobId vlob found
    cases found
  intro shared step
  cases step
  refine ⟨?_, ?_⟩
  · intro data payload removed vlobId vlob found
    cases found
  intro written step
  cases step
  refine ⟨?_, ?_⟩
  · intro realm found
    cases found
    exact ⟨_, List.mem_cons_of_mem _ List.mem_cons_self, rfl, by decide, by decide, by decide⟩
  intro read step
  cases step
  refine ⟨?_, trivial⟩
  intro ctx number data certifs realm authenticated served reused
  cases reused

/-- Bob's clock is late: his version is dated two seconds before the grant that lets him write.
The backend accepts it and Alice, with an empty cache, refuses it. -/
theorem version_dated_before_grant_unreadable :
    Along (Deployment.step? sameKey) CertificatesIncrease ⟨⟨0, {}⟩, {}, readers⟩ (sharing 93000000) ∧
    ¬ Along (Deployment.step? sameKey) (LoadPasses sameKey) ⟨⟨0, {}⟩, {}, readers⟩ (sharing 93000000) ∧
    ∃ deployment ctx, run? (Deployment.step? sameKey) ⟨⟨0, {}⟩, {}, readers⟩
        ((sharing 93000000).dropLast) = some deployment ∧
      sameKey.authenticate (deployment.clients 0).connection = some ctx ∧
      (deployment.loadManifest sameKey ctx aliceLoads).1 =
        .error (.noAccessRightAtThatTime ⟨"bob", "dev"⟩ 93000000) := by
  refine ⟨sharing_increases _, ?_, _, _, rfl, rfl, rfl⟩
  intro passes
  have loaded := ((((passes _ rfl).2 _ rfl).2 _ rfl).2 _ rfl).1 _ _ _ _ rfl (.inr rfl) rfl rfl rfl
  cases loaded

end Example

end Guardata
