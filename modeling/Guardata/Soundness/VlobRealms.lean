import Guardata.Machine.Run
import Guardata.Proofs.Postgres

/-! # The realm of a vlob in the PostgreSQL backend

Reading and updating find the realm of a vlob through any of its rows. All of them are of one realm as long
as no request puts a row of the vlob into another: a creation under an id that is in use elsewhere does, for
the key of `vlob_atom` is by revision, and so does a batch that names a version of another realm, for its
query copies rows by organization and id alone.
-/

namespace Guardata

open Machine PgTables VlobQueries

variable {β : Type} {tables next : PgTables β}

namespace PgTables

/-- All the rows of a vlob are at revisions of one realm. -/
def OneRealm (tables : PgTables β) : Prop :=
  ∀ row ∈ tables.vlobAtom, ∀ other ∈ tables.vlobAtom, other.organization = row.organization →
    other.vlobId = row.vlobId → realmOfAtom tables other = realmOfAtom tables row

def InRealm (tables : PgTables β) (realmId : UUID) (row : VlobAtomRow β) : Prop :=
  ∃ realm, realmOfAtom tables row = some realm ∧ realm.realmId = realmId

/-- A request that puts rows into a realm finds no row of the same vlob in another one: those of the vlob
that it creates, and those of the versions that it saves. -/
def StaysInRealm (tables : PgTables β) : UserTable × PgRequest β → Prop
  | (_, .vlobCreate organizationId _ realmId _ vlobId _ _) =>
      ∀ row ∈ atomsOfVlob tables organizationId vlobId, tables.InRealm realmId row
  | (_, .saveBatch organizationId _ realmId _ batch) =>
      ∀ item ∈ batch, ∀ row ∈ atomsOfVlob tables organizationId item.1, row.version = item.2.1 →
        tables.InRealm realmId row
  | _ => True

theorem mem_atomsOfVlob_iff {organizationId : OrganizationID} {vlobId : UUID} {row : VlobAtomRow β} :
    row ∈ atomsOfVlob tables organizationId vlobId ↔
      row ∈ tables.vlobAtom ∧ row.organization = organizationId ∧ row.vlobId = vlobId := by
  simp [atomsOfVlob]

/-- In a realm of one's own organization: at a revision of that very row of `realm`. -/
theorem Declared.inRealm_iff (declared : tables.Declared) {row : VlobAtomRow β}
    (member : row ∈ tables.vlobAtom)
    {realm : RealmRow} (isRealm : realm ∈ tables.realm) (same : realm.organization = row.organization) :
    tables.InRealm realm.realmId row ↔ realmOfAtom tables row = some realm := by
  constructor
  · rintro ⟨other, home, name⟩
    have found := declared.qRealm_of_realmOfAtom member home
    rw [name, declared.qRealm_eq_some_iff.mpr ⟨isRealm, same, rfl⟩] at found
    rw [home, found]
  · intro home
    exact ⟨realm, home, rfl⟩

section Append

/-- A row of a realm may be added if the rows of its vlob are of that realm, and only then. -/
theorem OneRealm.append_iff (one : tables.OneRealm) {row : VlobAtomRow β} {realm : RealmRow}
    (home : realmOfAtom tables row = some realm) :
    ({ tables with vlobAtom := tables.vlobAtom ++ [row] } : PgTables β).OneRealm ↔
      ∀ other ∈ tables.vlobAtom, other.organization = row.organization → other.vlobId = row.vlobId →
        realmOfAtom tables other = some realm := by
  constructor
  · intro all other member organization vlobId
    rw [← home]
    exact all row (by simp) other (List.mem_append_left _ member) organization vlobId
  · intro all first isFirst second isSecond organization vlobId
    change realmOfAtom tables second = realmOfAtom tables first
    rcases List.mem_append.mp isFirst with old | new <;> rcases List.mem_append.mp isSecond with old' | new'
    · exact one first old second old' organization vlobId
    · obtain rfl := List.mem_singleton.mp new'
      rw [home, all first old organization.symm vlobId.symm]
    · obtain rfl := List.mem_singleton.mp new
      rw [home, all second old' organization vlobId]
    · rw [List.mem_singleton.mp new, List.mem_singleton.mp new']

/-- The same with the tables as they come out of a copy. -/
theorem OneRealm.copied_iff (declared : tables.Declared) (one : tables.OneRealm) {realm : RealmRow}
    {id number : ℕ} (isRealm : realm ∈ tables.realm)
    (revises : (⟨id, realm.id, number⟩ : VlobEncryptionRevisionRow) ∈ tables.vlobEncryptionRevision)
    (item : BatchItem β) :
    (tables.copied realm.organization id item).OneRealm ↔
      ∀ row ∈ atomsOfVlob tables realm.organization item.1, row.version = item.2.1 →
        realmOfAtom tables row = some realm := by
  have home {row : VlobAtomRow β} (same : row.vlobEncryptionRevision = id) :
      realmOfAtom tables row = some realm :=
    declared.realmOfAtom_eq_some_iff.mpr ⟨isRealm, number, same ▸ revises⟩
  rcases tables.copied_cases realm.organization id item with
    ⟨absent, same⟩ | ⟨source, found, ⟨holds, same⟩ | ⟨new, added⟩⟩
  · rw [same]
    refine iff_of_true one fun row member version => ?_
    obtain ⟨stored, organization, vlobId⟩ := mem_atomsOfVlob_iff.mp member
    exact (source?_eq_none_iff.mp absent row stored ⟨organization, vlobId, version⟩).elim
  · -- The version is in the realm already.
    obtain ⟨there, stored, isRevision, isVlob, -⟩ := holds
    rw [same]
    refine iff_of_true one fun row member _ => ?_
    obtain ⟨isRow, organization, vlobId⟩ := mem_atomsOfVlob_iff.mp member
    obtain ⟨_, isHome, itsOrganization⟩ := declared.atomRealm there stored
    cases (home isRevision).symm.trans isHome
    rw [one there stored row isRow (organization.trans itsOrganization) (vlobId.trans isVlob.symm)]
    exact isHome
  · obtain ⟨isSource, organization, vlobId, version⟩ := of_source?_eq_some found
    have copyHome : realmOfAtom tables (copyOf id item source) = some realm := home rfl
    rw [added, one.append_iff copyHome]
    constructor
    · intro all row member _
      obtain ⟨isRow, itsOrganization, itsVlob⟩ := mem_atomsOfVlob_iff.mp member
      exact all row isRow (itsOrganization.trans organization.symm) (itsVlob.trans vlobId.symm)
    · intro all other member itsOrganization itsVlob
      rw [one source isSource other member itsOrganization itsVlob]
      exact all source (mem_atomsOfVlob_iff.mpr ⟨isSource, organization, vlobId⟩) version

/-- Copying adds rows at the revision, and leaves the realms and their revisions alone. -/
theorem copied_tables (tables : PgTables β) (organizationId : OrganizationID) (id : ℕ) (item : BatchItem β) :
    ∃ rows, tables.copied organizationId id item = { tables with vlobAtom := tables.vlobAtom ++ rows } ∧
      ∀ row ∈ rows, row.vlobEncryptionRevision = id := by
  rcases tables.copied_cases organizationId id item with
    ⟨-, same⟩ | ⟨source, -, ⟨-, same⟩ | ⟨-, added⟩⟩
  · exact ⟨[], by rw [same, List.append_nil], nofun⟩
  · exact ⟨[], by rw [same, List.append_nil], nofun⟩
  · refine ⟨_, added, fun row member => ?_⟩
    rw [List.mem_singleton.mp member]
    rfl

theorem foldl_copied_tables (tables : PgTables β) (organizationId : OrganizationID) (id : ℕ)
    (batch : List (BatchItem β)) :
    ∃ rows, batch.foldl (fun tables item => tables.copied organizationId id item) tables =
      { tables with vlobAtom := tables.vlobAtom ++ rows } := by
  induction batch generalizing tables with
  | nil => exact ⟨[], by simp⟩
  | cons item rest ih =>
    obtain ⟨first, is, -⟩ := copied_tables tables organizationId id item
    obtain ⟨later, is'⟩ := ih (tables.copied organizationId id item)
    refine ⟨first ++ later, ?_⟩
    rw [List.foldl_cons, is', is]
    simp

theorem OneRealm.of_append {rows : List (VlobAtomRow β)}
    (one : ({ tables with vlobAtom := tables.vlobAtom ++ rows } : PgTables β).OneRealm) : tables.OneRealm :=
  fun row member other isOther => one row (List.mem_append_left _ member) other
    (List.mem_append_left _ isOther)

/-- A batch may be copied if each of its versions may be. -/
theorem OneRealm.foldl_copied_iff (declared : tables.Declared) (one : tables.OneRealm) {realm : RealmRow}
    {id number : ℕ} (isRealm : realm ∈ tables.realm)
    (revises : (⟨id, realm.id, number⟩ : VlobEncryptionRevisionRow) ∈ tables.vlobEncryptionRevision)
    (batch : List (BatchItem β)) :
    (batch.foldl (fun tables item => tables.copied realm.organization id item) tables).OneRealm ↔
      ∀ item ∈ batch, ∀ row ∈ atomsOfVlob tables realm.organization item.1, row.version = item.2.1 →
        realmOfAtom tables row = some realm := by
  induction batch generalizing tables with
  | nil => exact iff_of_true one nofun
  | cons item rest ih =>
    have here := one.copied_iff declared isRealm revises item
    have stays := declared.copied isRealm revises item
    obtain ⟨rows, is, atRevision⟩ := copied_tables tables realm.organization id item
    rw [List.foldl_cons, List.forall_mem_cons, ← here]
    by_cases still : (tables.copied realm.organization id item).OneRealm
    · rw [ih stays still (by rw [is]; exact isRealm) (by rw [is]; exact revises), is]
      rw [is] at still
      refine (forall₂_congr fun other _ => ?_).trans (and_iff_right still).symm
      constructor
      · intro all row member
        obtain ⟨stored, named⟩ := mem_atomsOfVlob_iff.mp member
        exact all row (mem_atomsOfVlob_iff.mpr ⟨List.mem_append_left _ stored, named⟩)
      · intro all row member version
        obtain ⟨stored, named⟩ := mem_atomsOfVlob_iff.mp member
        rcases List.mem_append.mp stored with old | new
        · exact all row (mem_atomsOfVlob_iff.mpr ⟨old, named⟩) version
        · exact declared.realmOfAtom_eq_some_iff.mpr ⟨isRealm, number, atRevision row new ▸ revises⟩
    · -- What is once in two realms remains so.
      obtain ⟨more, is'⟩ := foldl_copied_tables (tables.copied realm.organization id item)
        realm.organization id rest
      rw [is']
      exact iff_of_false (fun one => still one.of_append) fun both => still both.1

theorem Declared.foldl_copied (declared : tables.Declared) {realm : RealmRow} {id number : ℕ}
    (isRealm : realm ∈ tables.realm)
    (revises : (⟨id, realm.id, number⟩ : VlobEncryptionRevisionRow) ∈ tables.vlobEncryptionRevision)
    (batch : List (BatchItem β)) :
    (batch.foldl (fun tables item => tables.copied realm.organization id item) tables).Declared := by
  induction batch generalizing tables with
  | nil => exact declared
  | cons item rest ih =>
    have stays := declared.copied isRealm revises item
    obtain ⟨rows, is, -⟩ := copied_tables tables realm.organization id item
    rw [List.foldl_cons, is]
    rw [is] at stays
    exact ih stays isRealm revises

end Append

section Step

/-- The rows stay where they are, whatever becomes of the realms. -/
theorem OneRealm.of_map (one : tables.OneRealm) (same : next.vlobAtom = tables.vlobAtom)
    {change : RealmRow → RealmRow}
    (homes : ∀ row ∈ tables.vlobAtom, realmOfAtom next row = (realmOfAtom tables row).map change) :
    next.OneRealm := by
  intro row member other isOther organization vlobId
  rw [same] at member isOther
  rw [homes row member, homes other isOther, one row member other isOther organization vlobId]

/-- No row goes, and none changes its realm. -/
def Keeps (tables next : PgTables β) : Prop :=
  ∀ row ∈ tables.vlobAtom, row ∈ next.vlobAtom ∧
    ∀ realmId, tables.InRealm realmId row → next.InRealm realmId row

theorem keeps_append (tables : PgTables β) (rows : List (VlobAtomRow β)) :
    tables.Keeps { tables with vlobAtom := tables.vlobAtom ++ rows } :=
  fun _ member => ⟨List.mem_append_left _ member, fun _ inside => inside⟩

theorem keeps_of_map (same : next.vlobAtom = tables.vlobAtom) {change : RealmRow → RealmRow}
    (named : ∀ realm, (change realm).realmId = realm.realmId)
    (homes : ∀ row ∈ tables.vlobAtom, realmOfAtom next row = (realmOfAtom tables row).map change) :
    tables.Keeps next := by
  intro row member
  refine ⟨same ▸ member, ?_⟩
  rintro _ ⟨realm, home, rfl⟩
  exact ⟨change realm, by rw [homes row member, home, Option.map_some], named realm⟩

theorem Declared.insertVlobAtom_iff (declared : tables.Declared) (one : tables.OneRealm)
    {organizationId : OrganizationID} {realmId vlobId : UUID} {revision version : ℕ} {blob : β}
    {author : DeviceID} {timestamp : DateTime} {realm : RealmRow}
    (found : tables.qRealm organizationId realmId = some realm)
    (inserted : tables.insertVlobAtom organizationId
      (tables.qVlobEncryptionRevisionInternalId organizationId realmId revision) vlobId version blob author
      timestamp = .ok next) :
    next.Declared ∧ tables.Keeps next ∧ (next.OneRealm ↔
      ∀ row ∈ atomsOfVlob tables organizationId vlobId, tables.InRealm realmId row) := by
  obtain ⟨id, isRevision, unique, rfl⟩ := insertVlobAtom_eq_ok_iff.mp inserted
  obtain ⟨isRealm, rfl, rfl⟩ := declared.qRealm_eq_some_iff.mp found
  have home : realmOfAtom tables ⟨realm.organization, id, vlobId, version, blob, author, timestamp⟩ =
      some realm := declared.realmOfAtom_of_revision found isRevision
  refine ⟨declared.appendAtom unique home rfl, keeps_append tables _, (one.append_iff home).trans ?_⟩
  constructor
  · intro all row member
    obtain ⟨stored, organization, isVlob⟩ := mem_atomsOfVlob_iff.mp member
    exact ⟨realm, all row stored organization isVlob, rfl⟩
  · intro all row stored organization isVlob
    exact (declared.inRealm_iff stored isRealm organization.symm).mp
      (all row (mem_atomsOfVlob_iff.mpr ⟨stored, organization, isVlob⟩))

/-- The realm of the row that is found is a realm of the organization. -/
theorem OneRealm.of_getRealmIdFromVlobId (one : tables.OneRealm) {organizationId : OrganizationID}
    {realmId vlobId : UUID}
    (got : getRealmIdFromVlobId tables organizationId vlobId = .ok realmId) :
    ∀ row ∈ atomsOfVlob tables organizationId vlobId, tables.InRealm realmId row := by
  obtain ⟨found, realm, first, home, rfl⟩ := getRealmIdFromVlobId_eq_ok_iff.mp got
  have named := List.find?_some first
  rw [decide_eq_true_eq] at named
  intro row member
  obtain ⟨stored, organization, isVlob⟩ := mem_atomsOfVlob_iff.mp member
  refine ⟨realm, ?_, rfl⟩
  rw [one found (List.mem_of_find?_eq_some first) row stored (organization.trans named.1.symm)
    (isVlob.trans named.2.symm), home]

/-- A request keeps the vlobs in one realm if its rows stay in the realm of their vlob, and only then. -/
theorem Declared.step (declared : tables.Declared) (one : tables.OneRealm)
    {request : UserTable × PgRequest β} (step : tables.step? request = some next) :
    next.Declared ∧ tables.Keeps next ∧ (next.OneRealm ↔ tables.StaysInRealm request) := by
  obtain ⟨users, request⟩ := request
  cases request with
  | realmCreate organizationId grant =>
    obtain ⟨absent, inserted⟩ := RealmQueries.queryCreate_spec (Except.toOption_eq_some_iff.mp step)
    have added := declared.appendRealm grant.userId grant.grantedOn absent
    have exists_ : ∃ row ∈ tables.realm ++ [⟨tables.sequence, organizationId, grant.realmId,
        ⟨none, none, none, 1⟩⟩], row.id = tables.sequence :=
      ⟨_, List.mem_append_right _ (List.mem_singleton_self _), rfl⟩
    refine ⟨added.insertVlobEncryptionRevision exists_ inserted, ?_⟩
    have homes (row : VlobAtomRow β) (member : row ∈ tables.vlobAtom) :
        realmOfAtom next row = (realmOfAtom tables row).map id := by
      rw [realmOfAtom_insertVlobEncryptionRevision added inserted member,
        realmOfAtom_appendRealm declared member, Option.map_id, id]
    obtain ⟨-, rfl⟩ := insertVlobEncryptionRevision_eq_ok_iff.mp inserted
    exact ⟨keeps_of_map rfl (fun _ => rfl) homes, iff_of_true (one.of_map rfl homes) trivial⟩
  | updateRoles organizationId grant =>
    obtain ⟨row, rfl⟩ := RealmQueries.queryUpdateRoles_spec (Except.toOption_eq_some_iff.mp step)
    exact ⟨{ declared with }, fun row member => ⟨member, fun _ inside => inside⟩, iff_of_true one trivial⟩
  | vlobCreate organizationId author realmId revision vlobId timestamp blob =>
    obtain ⟨⟨realm, found⟩, inserted⟩ := queryCreate_spec (Except.toOption_eq_some_iff.mp step)
    exact declared.insertVlobAtom_iff one found inserted
  | vlobUpdate organizationId author revision vlobId version timestamp blob =>
    obtain ⟨realmId, realm, got, found, inserted⟩ := queryUpdate_spec (Except.toOption_eq_some_iff.mp step)
    obtain ⟨after, keeps, iff⟩ := declared.insertVlobAtom_iff one found inserted
    exact ⟨after, keeps, iff_of_true (iff.mpr (one.of_getRealmIdFromVlobId got)) trivial⟩
  | start organizationId author realmId revision recipients timestamp now =>
    obtain ⟨realm, found, inserted⟩ :=
      RealmQueries.queryStartReencryptionMaintenance_spec (Except.toOption_eq_some_iff.mp step)
    have updated : (tables.updateStatus realm.id fun _ =>
        ⟨some .reencryption, some timestamp, some author, revision⟩).Declared :=
          declared.updateStatus realm.id
    have exists_ : ∃ row ∈ (tables.updateStatus realm.id fun _ =>
        ⟨some .reencryption, some timestamp, some author, revision⟩).realm, row.id = realm.id :=
      ⟨_, List.mem_map_of_mem (declared.qRealm_eq_some_iff.mp found).1, id_changeStatus realm.id realm⟩
    refine ⟨updated.insertVlobEncryptionRevision exists_ inserted, ?_⟩
    have homes (row : VlobAtomRow β) (member : row ∈ tables.vlobAtom) :=
      (realmOfAtom_insertVlobEncryptionRevision updated inserted member).trans (realmOfAtom_updateStatus ..)
    obtain ⟨-, rfl⟩ := insertVlobEncryptionRevision_eq_ok_iff.mp inserted
    exact ⟨keeps_of_map rfl (realmId_changeStatus realm.id) homes,
      iff_of_true (one.of_map rfl homes) trivial⟩
  | saveBatch organizationId author realmId revision batch =>
    obtain ⟨⟨after, counts⟩, saved, rfl⟩ := Option.map_eq_some_iff.mp step
    obtain ⟨realm, found, ⟨rfl, nothing⟩ | ⟨id, revises, rfl⟩⟩ :=
      queryMaintenanceSaveReencryptionBatch_spec (Except.toOption_eq_some_iff.mp saved)
    · refine ⟨declared, fun row member => ⟨member, fun _ inside => inside⟩,
        iff_of_true one fun item member row isRow version => ?_⟩
      obtain ⟨stored, organization, isVlob⟩ := mem_atomsOfVlob_iff.mp isRow
      exact (source?_eq_none_iff.mp (nothing item member) row stored ⟨organization, isVlob, version⟩).elim
    · have isRevision := (declared.revision_eq_some_iff found).mp revises
      obtain ⟨isRealm, rfl, rfl⟩ := declared.qRealm_eq_some_iff.mp found
      obtain ⟨rows, is⟩ := foldl_copied_tables tables realm.organization id batch
      refine ⟨declared.foldl_copied isRealm isRevision batch, is ▸ keeps_append tables rows,
        (one.foldl_copied_iff declared isRealm isRevision batch).trans ?_⟩
      refine forall₂_congr fun item _ => forall₂_congr fun row member => imp_congr_right fun _ => ?_
      obtain ⟨stored, organization, -⟩ := mem_atomsOfVlob_iff.mp member
      exact (declared.inRealm_iff stored isRealm organization.symm).symm
  | finish organizationId author realmId revision now =>
    obtain ⟨realm, found, rfl⟩ :=
      RealmQueries.queryFinishReencryptionMaintenance_spec (Except.toOption_eq_some_iff.mp step)
    have homes (row : VlobAtomRow β) (_ : row ∈ tables.vlobAtom) :=
      realmOfAtom_updateStatus tables realm.id
        (fun status => ⟨none, none, none, status.encryptionRevision⟩) row
    exact ⟨declared.updateStatus realm.id, keeps_of_map rfl (realmId_changeStatus realm.id) homes,
      iff_of_true (one.of_map rfl homes) trivial⟩

end Step

/-- In a run, a vlob keeps a row in the realm that it was created in. -/
theorem Declared.inRealm_of_created {events : List (UserTable × PgRequest β)} (declared : tables.Declared)
    (one : tables.OneRealm) (meets : Along step? (fun tables request _ =>
    tables.StaysInRealm request) tables events)
    (played : run? step? tables events = some next) :
    next.OneRealm ∧ tables.Keeps next ∧
      ∀ {users organizationId author realmId revision vlobId timestamp blob},
        (users, PgRequest.vlobCreate organizationId author realmId revision vlobId timestamp blob) ∈ events →
          ∃ row ∈ atomsOfVlob next organizationId vlobId, next.InRealm realmId row := by
  induction events generalizing tables with
  | nil =>
    cases played
    exact ⟨one, fun row member => ⟨member, fun _ inside => inside⟩, nofun⟩
  | cons event rest ih =>
    obtain ⟨middle, step, played⟩ := Option.bind_eq_some_iff.mp played
    obtain ⟨here, later⟩ := meets middle step
    obtain ⟨declaredMiddle, kept, iff⟩ := declared.step one step
    obtain ⟨oneNext, keptNext, created⟩ := ih declaredMiddle (iff.mpr here) later played
    refine ⟨oneNext, ?_, ?_⟩
    · intro row member
      obtain ⟨member, inside⟩ := kept row member
      obtain ⟨member, inside'⟩ := keptNext row member
      exact ⟨member, fun realmId is => inside' realmId (inside realmId is)⟩
    · intro users organizationId author realmId revision vlobId timestamp blob member
      rcases List.mem_cons.mp member with rfl | member
      · obtain ⟨⟨realm, found⟩, inserted⟩ := queryCreate_spec (Except.toOption_eq_some_iff.mp step)
        obtain ⟨id, isRevision, -, rfl⟩ := insertVlobAtom_eq_ok_iff.mp inserted
        have home : realmOfAtom tables ⟨organizationId, id, vlobId, 1, blob, author, timestamp⟩ =
            some realm := declared.realmOfAtom_of_revision found isRevision
        obtain ⟨stored, inside⟩ := keptNext _ (List.mem_append_right _ (List.mem_singleton_self _))
        exact ⟨_, mem_atomsOfVlob_iff.mpr ⟨stored, rfl, rfl⟩,
          inside realmId ⟨realm, home, (declared.qRealm_eq_some_iff.mp found).2.2⟩⟩
      · exact created member

/-- The realm on which reading and updating a vlob check access. -/
theorem OneRealm.getRealmIdFromVlobId (one : tables.OneRealm) {organizationId : OrganizationID}
    {realmId vlobId : UUID} {row : VlobAtomRow β} (member : row ∈ atomsOfVlob tables organizationId vlobId)
    (inside : tables.InRealm realmId row) :
    VlobQueries.getRealmIdFromVlobId tables organizationId vlobId = .ok realmId := by
  obtain ⟨stored, organization, isVlob⟩ := mem_atomsOfVlob_iff.mp member
  obtain ⟨realm, home, named⟩ := inside
  rw [getRealmIdFromVlobId_eq_ok_iff]
  cases found : tables.vlobAtom.find? fun row => row.organization = organizationId ∧ row.vlobId = vlobId with
  | none =>
    have absent := List.find?_eq_none.mp found row stored
    simp [organization, isVlob] at absent
  | some first =>
    have first' := List.find?_some found
    rw [decide_eq_true_eq] at first'
    refine ⟨first, realm, rfl, ?_, named⟩
    rw [one row stored first (List.mem_of_find?_eq_some found) (first'.1.trans organization.symm)
      (first'.2.trans isVlob.symm), home]

end PgTables

/-- A vlob has rows in one realm only, in every state of a run, exactly if no request of the run
puts rows of a vlob beside those of another realm; the realm on which access to a vlob is checked is
then the one it was created in. -/
theorem vlob_rows_share_realm (events : List (UserTable × PgRequest β)) :
    (Along PgTables.step? (fun _ _ next => next.OneRealm) {} events ↔
      Along PgTables.step? (fun tables request _ => tables.StaysInRealm request) {} events) ∧
    (Along PgTables.step? (fun tables request _ => tables.StaysInRealm request) {} events →
      ∀ final, run? PgTables.step? {} events = some final →
        ∀ {users organizationId author realmId revision vlobId timestamp blob},
          (users, PgRequest.vlobCreate organizationId author realmId revision vlobId timestamp blob) ∈
          events →
            getRealmIdFromVlobId final organizationId vlobId = .ok realmId) := by
  have one : ({} : PgTables β).OneRealm := nofun
  constructor
  · have agree (tables : PgTables β) (event : UserTable × PgRequest β) (next : PgTables β)
        (sound : tables.Declared ∧ tables.OneRealm) (step : tables.step? event = some next) :=
      (sound.1.step sound.2 step).2.2
    have preserved (tables : PgTables β) (event : UserTable × PgRequest β) (next : PgTables β)
        (sound : tables.Declared ∧ tables.OneRealm) (step : tables.step? event = some next)
        (stays : tables.StaysInRealm event) : next.Declared ∧ next.OneRealm := by
      obtain ⟨declared, -, iff⟩ := sound.1.step sound.2 step
      exact ⟨declared, iff.mpr stays⟩
    exact along_congr _ agree preserved ⟨declared_empty, one⟩ events
  · intro meets final played users organizationId author realmId revision vlobId timestamp blob member
    obtain ⟨oneFinal, -, created⟩ := declared_empty.inRealm_of_created one meets played
    obtain ⟨row, isRow, inside⟩ := created member
    exact oneFinal.getRealmIdFromVlobId isRow inside

section Example

private def grantedToSelf (realmId : UUID) : RealmGrantedRole where
  certificate := ⟨⟨0⟩, some ⟨⟨"alice", "dev"⟩, 1, realmId, "alice", some .owner⟩⟩
  realmId := realmId
  userId := "alice"
  role := some .owner
  grantedBy := ⟨"alice", "dev"⟩
  grantedOn := 1

private def anybody : UserTable := fun _ _ => some ⟨.standard, none⟩

/-- Alice creates a vlob under one id in each of her two realms. -/
private def createdTwice : List (UserTable × PgRequest String) :=
  [(anybody, .realmCreate "org" (grantedToSelf 1)), (anybody, .realmCreate "org" (grantedToSelf 2)),
    (anybody, .vlobCreate "org" ⟨"alice", "dev"⟩ 1 1 7 2 "first"),
    (anybody, .vlobCreate "org" ⟨"alice", "dev"⟩ 2 1 7 3 "second")]

/-- The second creation is accepted, and the vlob has rows in two realms. -/
theorem vlob_rows_in_two_realms :
    ∃ final, run? PgTables.step? {} createdTwice = some final ∧ ¬final.OneRealm := by
  refine ⟨_, rfl, fun one => ?_⟩
  have same := one _ (List.mem_cons_self ..) _ (List.mem_cons_of_mem _ (List.mem_cons_self ..)) rfl rfl
  cases same

end Example

end Guardata
