import Guardata.Model.Postgres
import Guardata.ToMathlib.UniqueKeys

/-! # What the declared constraints say and keep

`Declared` gathers the keys of the tables and the references between them. Under it a look-up is membership:
a row of `vlob_atom` belongs to one realm, and a realm has at most one revision of a number. Each query that
is accepted keeps it, and an inversion lemma says what it has checked and what it changes.
-/

namespace Guardata

variable {β : Type} {tables next : PgTables β} {users : UserTable} {organizationId : OrganizationID}
  {realmId : UUID} {author : DeviceID} {revision : ℕ}

open VlobQueries (realmOfAtom atomsOfVlob)

namespace PgTables

/-- The UNIQUE constraints, the references, and the sequences ahead of the keys they gave out. -/
structure Declared (tables : PgTables β) : Prop where
  realmId : (tables.realm.map (·.id)).Nodup
  realmName : (tables.realm.map fun row => (row.organization, row.realmId)).Nodup
  revisionId : (tables.vlobEncryptionRevision.map (·.id)).Nodup
  revisionName : (tables.vlobEncryptionRevision.map fun row => (row.realm, row.encryptionRevision)).Nodup
  atomName : (tables.vlobAtom.map fun row => (row.vlobEncryptionRevision, row.vlobId, row.version)).Nodup
  revisionRealm : ∀ row ∈ tables.vlobEncryptionRevision, ∃ realm ∈ tables.realm, realm.id = row.realm
  atomRealm : ∀ row ∈ tables.vlobAtom, ∃ realm, realmOfAtom tables row = some realm ∧
    realm.organization = row.organization
  realmSequence : ∀ row ∈ tables.realm, row.id < tables.sequence
  revisionSequence : ∀ row ∈ tables.vlobEncryptionRevision, row.id < tables.sequence

theorem declared_empty : ({} : PgTables β).Declared := by
  refine ⟨List.nodup_nil, List.nodup_nil, List.nodup_nil, List.nodup_nil, List.nodup_nil, ?_, ?_, ?_, ?_⟩ <;>
    exact nofun

section Select

theorem Declared.qRealm_eq_some_iff (declared : tables.Declared) {realm : RealmRow} :
    tables.qRealm organizationId realmId = some realm ↔
      realm ∈ tables.realm ∧ realm.organization = organizationId ∧ realm.realmId = realmId := by
  simpa [qRealm] using List.find?_key_eq_some_iff declared.realmName (organizationId, realmId) realm

theorem getRealmStatus_eq_ok_iff {realm : RealmRow} :
    tables.getRealmStatus organizationId realmId = .ok realm ↔
      tables.qRealm organizationId realmId = some realm := by
  unfold getRealmStatus
  cases tables.qRealm organizationId realmId <;> simp

theorem Declared.revision_eq_some_iff (declared : tables.Declared) {realm : RealmRow}
    (found : tables.qRealm organizationId realmId = some realm) {id : ℕ} :
    tables.qVlobEncryptionRevisionInternalId organizationId realmId revision = some id ↔
      (⟨id, realm.id, revision⟩ : VlobEncryptionRevisionRow) ∈ tables.vlobEncryptionRevision := by
  have lookup := List.find?_key_eq_some_iff declared.revisionName (realm.id, revision)
  simp only [Prod.mk.injEq] at lookup
  simp only [qVlobEncryptionRevisionInternalId, qRealmInternalId, found, Option.map_some, Option.some.injEq,
    Option.map_eq_some_iff, lookup]
  constructor
  · rintro ⟨⟨_, _, _⟩, ⟨member, rfl, rfl⟩, rfl⟩
    exact member
  · intro member
    exact ⟨_, ⟨member, rfl, rfl⟩, rfl⟩

/-- The realm of a row, through its revision. -/
theorem Declared.realmOfAtom_eq_some_iff (declared : tables.Declared) {row : VlobAtomRow β}
    {realm : RealmRow} : realmOfAtom tables row = some realm ↔
      realm ∈ tables.realm ∧ ∃ number, (⟨row.vlobEncryptionRevision, realm.id, number⟩ :
        VlobEncryptionRevisionRow) ∈ tables.vlobEncryptionRevision := by
  simp only [realmOfAtom, Option.bind_eq_bind, Option.bind_eq_some_iff,
    List.find?_key_eq_some_iff declared.revisionId, List.find?_key_eq_some_iff declared.realmId]
  constructor
  · rintro ⟨⟨_, _, number⟩, ⟨member, rfl⟩, isRealm, rfl⟩
    exact ⟨isRealm, number, member⟩
  · rintro ⟨isRealm, number, member⟩
    exact ⟨_, ⟨member, rfl⟩, isRealm, rfl⟩

/-- A row at a revision of a realm is a row of that realm. -/
theorem Declared.realmOfAtom_of_revision (declared : tables.Declared) {realm : RealmRow}
    (found : tables.qRealm organizationId realmId = some realm) {row : VlobAtomRow β}
    (revises : tables.qVlobEncryptionRevisionInternalId organizationId realmId revision =
      some row.vlobEncryptionRevision) : realmOfAtom tables row = some realm :=
  declared.realmOfAtom_eq_some_iff.mpr ⟨(declared.qRealm_eq_some_iff.mp found).1, revision,
    (declared.revision_eq_some_iff found).mp revises⟩

end Select

section Write

variable {change : RealmStatus → RealmStatus}

@[simp] theorem id_changeStatus (realm : ℕ) (row : RealmRow) : (row.changeStatus realm change).id =
    row.id := by
  unfold RealmRow.changeStatus
  split <;> rfl

@[simp] theorem organization_changeStatus (realm : ℕ) (row : RealmRow) :
    (row.changeStatus realm change).organization = row.organization := by
  unfold RealmRow.changeStatus
  split <;> rfl

@[simp] theorem realmId_changeStatus (realm : ℕ) (row : RealmRow) :
    (row.changeStatus realm change).realmId = row.realmId := by
  unfold RealmRow.changeStatus
  split <;> rfl

theorem realmOfAtom_updateStatus (tables : PgTables β) (realm : ℕ) (change : RealmStatus → RealmStatus)
    (row : VlobAtomRow β) :
    realmOfAtom (tables.updateStatus realm change) row =
      (realmOfAtom tables row).map (RealmRow.changeStatus realm change) := by
  simp only [realmOfAtom, updateStatus, Option.bind_eq_bind, Option.map_bind]
  congr 1
  funext found
  exact List.find?_key_map (id_changeStatus realm) found.realm

theorem Declared.updateStatus (declared : tables.Declared) (realm : ℕ) :
    (tables.updateStatus realm change).Declared := by
  have keys {γ : Type} (key : RealmRow → γ)
      (keeps : ∀ row : RealmRow, key (row.changeStatus realm change) = key row) :
      ((tables.updateStatus realm change).realm.map key) = tables.realm.map key := by
    rw [PgTables.updateStatus, List.map_map]
    exact List.map_congr_left fun row _ => keeps row
  refine { declared with
    realmId := ?_, realmName := ?_, revisionRealm := ?_, atomRealm := ?_, realmSequence := ?_ }
  · rw [keys _ (id_changeStatus realm)]
    exact declared.realmId
  · rw [keys _ fun row => Prod.ext (organization_changeStatus realm row) (realmId_changeStatus realm row)]
    exact declared.realmName
  · intro row member
    obtain ⟨found, isRealm, same⟩ := declared.revisionRealm row member
    exact ⟨_, List.mem_map_of_mem isRealm, (id_changeStatus realm found).trans same⟩
  · intro row member
    obtain ⟨found, isRealm, same⟩ := declared.atomRealm row member
    exact ⟨_, by rw [realmOfAtom_updateStatus, isRealm, Option.map_some],
      (organization_changeStatus realm found).trans same⟩
  · intro row member
    obtain ⟨found, isRealm, rfl⟩ := List.mem_map.mp member
    rw [id_changeStatus]
    exact declared.realmSequence found isRealm

theorem insertVlobEncryptionRevision_eq_ok_iff {realm : ℕ} :
    tables.insertVlobEncryptionRevision realm revision = .ok next ↔
      (∀ row ∈ tables.vlobEncryptionRevision, ¬(row.realm = realm ∧ row.encryptionRevision = revision)) ∧
      next = { tables with
        vlobEncryptionRevision := tables.vlobEncryptionRevision ++ [⟨tables.sequence, realm, revision⟩]
        sequence := tables.sequence + 1 } := by
  simp only [insertVlobEncryptionRevision, Except.bind_eq_ok_iff, Except.require_eq_ok_iff, exists_const,
    Except.pure_eq_ok_iff]
  exact and_congr_right fun _ => eq_comm

theorem realmOfAtom_insertVlobEncryptionRevision (declared : tables.Declared) {realm : ℕ}
    (inserted : tables.insertVlobEncryptionRevision realm revision = .ok next) {row : VlobAtomRow β}
    (member : row ∈ tables.vlobAtom) : realmOfAtom next row = realmOfAtom tables row := by
  obtain ⟨-, rfl⟩ := insertVlobEncryptionRevision_eq_ok_iff.mp inserted
  obtain ⟨found, isRealm, -⟩ := declared.atomRealm row member
  rw [isRealm]
  simp only [realmOfAtom, Option.bind_eq_bind, Option.bind_eq_some_iff] at isRealm ⊢
  obtain ⟨revision, isRevision, isRealm⟩ := isRealm
  exact ⟨revision, by rw [List.find?_append, isRevision, Option.some_or], isRealm⟩

theorem Declared.insertVlobEncryptionRevision (declared : tables.Declared) {realm : ℕ}
    (exists_ : ∃ row ∈ tables.realm, row.id = realm)
    (inserted : tables.insertVlobEncryptionRevision realm revision = .ok next) : next.Declared := by
  obtain ⟨unique, rfl⟩ := insertVlobEncryptionRevision_eq_ok_iff.mp inserted
  refine { declared with
    revisionId := ?_, revisionName := ?_, revisionRealm := ?_, atomRealm := ?_, realmSequence := ?_,
    revisionSequence := ?_ }
  · exact List.nodup_map_append_singleton declared.revisionId fun row member =>
      (declared.revisionSequence row member).ne
  · exact List.nodup_map_append_singleton declared.revisionName fun row member same =>
      unique row member (Prod.mk.inj same)
  · intro row member
    rcases List.mem_append.mp member with old | new
    · exact declared.revisionRealm row old
    · rw [List.mem_singleton.mp new]
      exact exists_
  · intro row member
    obtain ⟨found, isRealm, same⟩ := declared.atomRealm row member
    exact ⟨found, (realmOfAtom_insertVlobEncryptionRevision declared inserted member).trans isRealm, same⟩
  · intro row member
    exact (declared.realmSequence row member).trans (Nat.lt_succ_self _)
  · intro row member
    rcases List.mem_append.mp member with old | new
    · exact (declared.revisionSequence row old).trans (Nat.lt_succ_self _)
    · rw [List.mem_singleton.mp new]
      exact Nat.lt_succ_self _

/-- Appending a row of a realm. -/
theorem Declared.appendAtom (declared : tables.Declared) {row : VlobAtomRow β} {realm : RealmRow}
    (unique : ∀ other ∈ tables.vlobAtom, ¬(other.vlobEncryptionRevision = row.vlobEncryptionRevision ∧
      other.vlobId = row.vlobId ∧ other.version = row.version))
    (home : realmOfAtom tables row = some realm) (same : realm.organization = row.organization) :
    ({ tables with vlobAtom := tables.vlobAtom ++ [row] } : PgTables β).Declared := by
  refine { declared with atomName := ?_, atomRealm := ?_ }
  · refine List.nodup_map_append_singleton declared.atomName fun other member equal => ?_
    simp only [Prod.mk.injEq] at equal
    exact unique other member equal
  · intro other member
    rcases List.mem_append.mp member with old | new
    · exact declared.atomRealm other old
    · rw [List.mem_singleton.mp new]
      exact ⟨realm, home, same⟩

theorem insertVlobAtom_eq_ok_iff {id : Option ℕ} {vlobId : UUID} {version : ℕ} {blob : β}
    {createdOn : DateTime} :
    tables.insertVlobAtom organizationId id vlobId version blob author createdOn = .ok next ↔
      ∃ revision, id = some revision ∧
        (∀ row ∈ tables.vlobAtom, ¬(row.vlobEncryptionRevision = revision ∧ row.vlobId = vlobId ∧
          row.version = version)) ∧
        next = { tables with
          vlobAtom :=
            tables.vlobAtom ++ [⟨organizationId, revision, vlobId, version, blob, author, createdOn⟩] } := by
  simp only [insertVlobAtom, Except.bind_eq_ok_iff, Except.require_eq_ok_iff, exists_const,
    Except.pure_eq_ok_iff, Option.elim_eq_ok_iff]
  refine exists_congr fun revision => and_congr_right fun _ => and_congr_right fun _ => eq_comm

theorem realmOfAtom_appendRealm (declared : tables.Declared) {added : List RealmRow} {row : VlobAtomRow β}
    (member : row ∈ tables.vlobAtom) {roles : List RealmUserRoleRow} {sequence : ℕ} :
    realmOfAtom ({ tables with
      realm := tables.realm ++ added, realmUserRole := roles, sequence := sequence } : PgTables β) row =
        realmOfAtom tables row := by
  obtain ⟨found, isRealm, -⟩ := declared.atomRealm row member
  rw [isRealm]
  simp only [realmOfAtom, Option.bind_eq_bind, Option.bind_eq_some_iff] at isRealm ⊢
  obtain ⟨revision, isRevision, isRealm⟩ := isRealm
  exact ⟨revision, isRevision, by rw [List.find?_append, isRealm, Option.some_or]⟩

/-- Appending a realm. -/
theorem Declared.appendRealm (declared : tables.Declared) (selfGranted : UserID) (grantedOn : DateTime)
    (absent : tables.qRealm organizationId realmId = none) :
    ({ tables with
      realm := tables.realm ++ [⟨tables.sequence, organizationId, realmId, ⟨none, none, none, 1⟩⟩]
      realmUserRole := tables.realmUserRole ++ [⟨tables.sequence, selfGranted, some .owner, grantedOn⟩]
      sequence := tables.sequence + 1 } : PgTables β).Declared := by
  refine { declared with
    realmId := ?_, realmName := ?_, revisionRealm := ?_, atomRealm := ?_, realmSequence := ?_,
    revisionSequence := ?_ }
  · exact List.nodup_map_append_singleton declared.realmId fun row member =>
      (declared.realmSequence row member).ne
  · refine List.nodup_map_append_singleton declared.realmName fun row member same => ?_
    have found := declared.qRealm_eq_some_iff.mpr ⟨member, (Prod.mk.inj same).1, (Prod.mk.inj same).2⟩
    rw [absent] at found
    cases found
  · intro row member
    obtain ⟨realm, isRealm, same⟩ := declared.revisionRealm row member
    exact ⟨realm, List.mem_append_left _ isRealm, same⟩
  · intro row member
    obtain ⟨found, isRealm, same⟩ := declared.atomRealm row member
    exact ⟨found, (realmOfAtom_appendRealm declared member).trans isRealm, same⟩
  · intro row member
    rcases List.mem_append.mp member with old | new
    · exact (declared.realmSequence row old).trans (Nat.lt_succ_self _)
    · rw [List.mem_singleton.mp new]
      exact Nat.lt_succ_self _
  · intro row member
    exact (declared.revisionSequence row member).trans (Nat.lt_succ_self _)

end Write

end PgTables

section Access

open PgTables VlobQueries

theorem checkRealm_eq_ok_iff {number : Option ℕ} {maintenance : Bool} {done : Unit} :
    checkRealm tables organizationId realmId number maintenance = .ok done ↔
      ∃ realm, tables.qRealm organizationId realmId = some realm ∧ realm.status.inMaintenance = maintenance ∧
        number ∈ [none, some realm.status.encryptionRevision] := by
  simp only [checkRealm, Except.bind_eq_ok_iff, Except.mapError_eq_ok_iff, getRealmStatus_eq_ok_iff,
    Except.require_eq_ok_iff, exists_const]

theorem getRealmIdFromVlobId_eq_ok_iff {vlobId : UUID} :
    getRealmIdFromVlobId tables organizationId vlobId = .ok realmId ↔
      ∃ row realm, tables.vlobAtom.find? (fun row => row.organization = organizationId ∧
      row.vlobId = vlobId) =
        some row ∧ realmOfAtom tables row = some realm ∧ realm.realmId = realmId := by
  simp only [getRealmIdFromVlobId, Option.elim_eq_ok_iff, Option.map_eq_some_iff, Option.bind_eq_some_iff]
  constructor
  · rintro ⟨realm, ⟨row, found, isRealm⟩, same⟩
    exact ⟨row, realm, found, isRealm, same⟩
  · rintro ⟨row, realm, found, isRealm, same⟩
    exact ⟨realm, ⟨row, found, isRealm⟩, same⟩

/-- The realm whose id is found is the one of the row. -/
theorem PgTables.Declared.qRealm_of_realmOfAtom (declared : tables.Declared) {row : VlobAtomRow β}
    (member : row ∈ tables.vlobAtom) {realm : RealmRow} (home : realmOfAtom tables row = some realm) :
    tables.qRealm row.organization realm.realmId = some realm := by
  obtain ⟨_, isHome, same⟩ := declared.atomRealm row member
  cases home.symm.trans isHome
  exact declared.qRealm_eq_some_iff.mpr ⟨(declared.realmOfAtom_eq_some_iff.mp home).1, same, rfl⟩

end Access

section Accepted

open PgTables VlobQueries

/-- A realm is created with its first revision. -/
theorem RealmQueries.queryCreate_spec {grant : RealmGrantedRole}
    (created : queryCreate tables organizationId grant = .ok next) :
    tables.qRealm organizationId grant.realmId = none ∧
      ({ tables with
        realm := tables.realm ++
          [⟨tables.sequence, organizationId, grant.realmId, ⟨none, none, none, 1⟩⟩]
        realmUserRole := tables.realmUserRole ++
          [⟨tables.sequence, grant.userId, some .owner, grant.grantedOn⟩]
        sequence := tables.sequence + 1 } : PgTables β).insertVlobEncryptionRevision tables.sequence 1 =
          .ok next := by
  simp only [queryCreate, Except.bind_eq_ok_iff, Except.require_eq_ok_iff, exists_const] at created
  exact ⟨created.2.2.1, created.2.2.2⟩

theorem RealmQueries.queryUpdateRoles_spec {grant : RealmGrantedRole}
    (updated : queryUpdateRoles tables users organizationId grant = .ok next) :
    ∃ row, next = { tables with realmUserRole := tables.realmUserRole ++ [row] } := by
  simp only [queryUpdateRoles, Except.bind_eq_ok_iff, Except.require_eq_ok_iff, exists_const,
    Except.pure_eq_ok_iff] at updated
  obtain ⟨-, _, -, -, realm, -, -, -, -, -, rfl⟩ := updated
  exact ⟨_, rfl⟩

theorem RealmQueries.queryStartReencryptionMaintenance_spec {recipients : List UserID}
    {timestamp now : DateTime}
    (started : queryStartReencryptionMaintenance tables users organizationId author realmId revision
      recipients timestamp now = .ok next) :
    ∃ realm, tables.qRealm organizationId realmId = some realm ∧
      (tables.updateStatus realm.id fun _ =>
        ⟨some .reencryption, some timestamp, some author, revision⟩).insertVlobEncryptionRevision realm.id
          revision = .ok next := by
  simp only [queryStartReencryptionMaintenance, Except.bind_eq_ok_iff, Except.mapError_eq_ok_iff,
    getRealmStatus_eq_ok_iff, Except.require_eq_ok_iff, exists_const] at started
  obtain ⟨realm, found, -, -, -, -, inserted⟩ := started
  exact ⟨realm, found, inserted⟩

theorem RealmQueries.queryFinishReencryptionMaintenance_spec {now : DateTime}
    (finished : queryFinishReencryptionMaintenance tables users organizationId author realmId revision now =
      .ok next) :
    ∃ realm, tables.qRealm organizationId realmId = some realm ∧
      next = tables.updateStatus realm.id fun status => ⟨none, none, none, status.encryptionRevision⟩ := by
  simp only [queryFinishReencryptionMaintenance, Except.bind_eq_ok_iff, Except.mapError_eq_ok_iff,
    getRealmStatus_eq_ok_iff, Except.require_eq_ok_iff, exists_const] at finished
  obtain ⟨realm, found, -, -, -, -, finished⟩ := finished
  refine ⟨realm, found, ?_⟩
  split at finished
  · simp only [Except.bind_eq_ok_iff, Except.require_eq_ok_iff, exists_const,
      Except.pure_eq_ok_iff] at finished
    exact finished.2.2.2.symm
  · cases finished

theorem VlobQueries.queryCreate_spec {vlobId : UUID} {timestamp : DateTime} {blob : β}
    (created : queryCreate tables users organizationId author realmId revision vlobId timestamp blob =
      .ok next) :
    (∃ realm, tables.qRealm organizationId realmId = some realm) ∧
      tables.insertVlobAtom organizationId
        (tables.qVlobEncryptionRevisionInternalId organizationId realmId revision) vlobId 1 blob author
        timestamp = .ok next := by
  simp only [queryCreate, checkRealmAndWriteAccess, Except.bind_eq_ok_iff, checkRealm_eq_ok_iff,
    Except.mapError_eq_ok_iff, exists_const] at created
  obtain ⟨_, ⟨⟨realm, found, -⟩, -⟩, inserted⟩ := created
  exact ⟨⟨realm, found⟩, inserted⟩

theorem VlobQueries.queryUpdate_spec {vlobId : UUID} {version : ℕ} {timestamp : DateTime} {blob : β}
    (updated : queryUpdate tables users organizationId author revision vlobId version timestamp blob =
      .ok next) :
    ∃ realmId realm, getRealmIdFromVlobId tables organizationId vlobId = .ok realmId ∧
      tables.qRealm organizationId realmId = some realm ∧
      tables.insertVlobAtom organizationId
        (tables.qVlobEncryptionRevisionInternalId organizationId realmId revision) vlobId version blob author
        timestamp = .ok next := by
  simp only [queryUpdate, checkRealmAndWriteAccess, Except.bind_eq_ok_iff, checkRealm_eq_ok_iff,
    Except.mapError_eq_ok_iff, Except.require_eq_ok_iff, exists_const] at updated
  obtain ⟨realmId, found, _, ⟨⟨realm, isRealm, -⟩, -⟩, -, -, -, -, inserted⟩ := updated
  exact ⟨realmId, realm, found, isRealm, inserted⟩

end Accepted

section Copy

open PgTables VlobQueries

variable {row : VlobAtomRow β} {id : ℕ} {item : BatchItem β}

/-- A row has the key of another one. -/
def PgTables.Holds (tables : PgTables β) (revision : ℕ) (vlobId : UUID) (version : ℕ) : Prop :=
  ∃ row ∈ tables.vlobAtom, row.vlobEncryptionRevision = revision ∧ row.vlobId = vlobId ∧
    row.version = version

theorem PgTables.insertOrNothing_of_holds
    (holds : tables.Holds row.vlobEncryptionRevision row.vlobId row.version) :
    tables.insertOrNothing row = tables := if_pos holds

theorem PgTables.insertOrNothing_of_not_holds
    (new : ¬tables.Holds row.vlobEncryptionRevision row.vlobId row.version) :
    tables.insertOrNothing row = { tables with vlobAtom := tables.vlobAtom ++ [row] } := if_neg new

theorem PgTables.holds_insertOrNothing (tables : PgTables β) (row : VlobAtomRow β) :
    (tables.insertOrNothing row).Holds row.vlobEncryptionRevision row.vlobId row.version := by
  by_cases holds : tables.Holds row.vlobEncryptionRevision row.vlobId row.version
  · rw [insertOrNothing_of_holds holds]
    exact holds
  · rw [insertOrNothing_of_not_holds holds]
    exact ⟨row, by simp, rfl, rfl, rfl⟩

/-- What a version is copied from: the first row of that version, of whatever revision. -/
def PgTables.source? (tables : PgTables β) (organizationId : OrganizationID) (item : BatchItem β) :
    Option (VlobAtomRow β) :=
  ((atomsOfVlob tables organizationId item.1).filter (·.version = item.2.1)).head?

/-- The row for a saved item. -/
def copyOf (id : ℕ) (item : BatchItem β) (source : VlobAtomRow β) : VlobAtomRow β :=
  { source with vlobEncryptionRevision := id, blob := item.2.2 }

theorem PgTables.mem_source_iff : row ∈ (atomsOfVlob tables organizationId item.1).filter
      (·.version = item.2.1) ↔
    row ∈ tables.vlobAtom ∧ row.organization = organizationId ∧ row.vlobId = item.1 ∧
      row.version = item.2.1 := by
  simp only [atomsOfVlob, List.mem_filter, decide_eq_true_eq]
  tauto

theorem PgTables.of_source?_eq_some (found : tables.source? organizationId item = some row) :
    row ∈ tables.vlobAtom ∧ row.organization = organizationId ∧ row.vlobId = item.1 ∧
      row.version = item.2.1 :=
  mem_source_iff.mp (List.mem_of_mem_head? found)

theorem PgTables.source?_eq_none_iff : tables.source? organizationId item = none ↔
    ∀ row ∈ tables.vlobAtom, ¬(row.organization = organizationId ∧ row.vlobId = item.1 ∧
      row.version = item.2.1) := by
  rw [source?, List.head?_eq_none_iff, List.eq_nil_iff_forall_not_mem]
  simp only [mem_source_iff, not_and]

/-- One row comes out of an item at most: those of the later sources are in conflict with the first. -/
theorem VlobQueries.copyAtoms_eq (tables : PgTables β) (organizationId : OrganizationID) (id : ℕ)
    (item : BatchItem β) : copyAtoms tables organizationId (some id) item =
      .ok ((tables.source? organizationId item).elim tables fun source =>
        tables.insertOrNothing (copyOf id item source)) := by
  obtain ⟨sources, is, same⟩ : ∃ sources, (atomsOfVlob tables organizationId item.1).filter
      (·.version = item.2.1) = sources ∧ ∀ source ∈ sources, source.vlobId = item.1 ∧
        source.version = item.2.1 :=
    ⟨_, rfl, fun source member => (mem_source_iff.mp member).2.2⟩
  have conflicts (rest : List (VlobAtomRow β)) (tables : PgTables β)
      (same : ∀ source ∈ rest, source.vlobId = item.1 ∧ source.version = item.2.1)
      (holds : tables.Holds id item.1 item.2.1) :
      rest.foldlM (fun tables row => (some id).elim (Except.error PgError.notNullViolation) fun revision =>
        .ok (tables.insertOrNothing { row with vlobEncryptionRevision := revision, blob := item.2.2 }))
        tables = .ok tables := by
    induction rest with
    | nil => rfl
    | cons source rest ih =>
      obtain ⟨isVlob, isVersion⟩ := same source (List.mem_cons_self ..)
      rw [List.foldlM_cons, Option.elim_some, insertOrNothing_of_holds, Except.ok_bind]
      · exact ih fun other member => same other (List.mem_cons_of_mem _ member)
      · dsimp only
        rw [isVlob, isVersion]
        exact holds
  rw [source?, copyAtoms, is]
  cases sources with
  | nil => rfl
  | cons source rest =>
    obtain ⟨isVlob, isVersion⟩ := same source (List.mem_cons_self ..)
    rw [List.foldlM_cons, Option.elim_some, Except.ok_bind]
    refine conflicts rest _ (fun other member => same other (List.mem_cons_of_mem _ member)) ?_
    have := tables.holds_insertOrNothing (copyOf id item source)
    simpa only [copyOf, isVlob, isVersion] using this

/-- What the save of one item comes to. -/
def PgTables.copied (tables : PgTables β) (organizationId : OrganizationID) (id : ℕ) (item : BatchItem β) :
    PgTables β :=
  (tables.source? organizationId item).elim tables fun source =>
    tables.insertOrNothing (copyOf id item source)

theorem VlobQueries.foldlM_copyAtoms (tables : PgTables β) (organizationId : OrganizationID) (id : ℕ)
    (batch : List (BatchItem β)) : batch.foldlM (copyAtoms · organizationId (some id)) tables =
      .ok (batch.foldl (fun tables item => tables.copied organizationId id item) tables) := by
  induction batch generalizing tables with
  | nil => rfl
  | cons item rest ih =>
    rw [List.foldlM_cons, copyAtoms_eq, Except.ok_bind, List.foldl_cons]
    exact ih _

/-- An item without a source and one that is there already change nothing; any other adds a row. -/
theorem PgTables.copied_cases (tables : PgTables β) (organizationId : OrganizationID) (id : ℕ)
    (item : BatchItem β) :
    (tables.source? organizationId item = none ∧ tables.copied organizationId id item = tables) ∨
      ∃ source, tables.source? organizationId item = some source ∧
        ((tables.Holds id item.1 item.2.1 ∧ tables.copied organizationId id item = tables) ∨
          (¬tables.Holds id item.1 item.2.1 ∧ tables.copied organizationId id item =
            { tables with vlobAtom := tables.vlobAtom ++ [copyOf id item source] })) := by
  unfold PgTables.copied
  cases found : tables.source? organizationId item with
  | none => exact .inl ⟨rfl, rfl⟩
  | some source =>
    obtain ⟨-, -, vlobId, version⟩ := of_source?_eq_some found
    refine .inr ⟨source, rfl, ?_⟩
    rw [Option.elim_some]
    by_cases holds : tables.Holds id item.1 item.2.1
    · refine .inl ⟨holds, insertOrNothing_of_holds ?_⟩
      simpa only [copyOf, vlobId, version] using holds
    · refine .inr ⟨holds, insertOrNothing_of_not_holds ?_⟩
      simpa only [copyOf, vlobId, version] using holds

theorem PgTables.Declared.copied (declared : tables.Declared) {realm : RealmRow} {number : ℕ}
    (isRealm : realm ∈ tables.realm)
    (revises : (⟨id, realm.id, number⟩ : VlobEncryptionRevisionRow) ∈ tables.vlobEncryptionRevision)
    (item : BatchItem β) : (tables.copied realm.organization id item).Declared := by
  rcases tables.copied_cases realm.organization id item with
    ⟨-, same⟩ | ⟨source, found, ⟨-, same⟩ | ⟨new, added⟩⟩
  · rw [same]
    exact declared
  · rw [same]
    exact declared
  · obtain ⟨-, organization, vlobId, version⟩ := of_source?_eq_some found
    rw [added]
    have home : realmOfAtom tables (copyOf id item source) = some realm :=
      declared.realmOfAtom_eq_some_iff.mpr ⟨isRealm, number, revises⟩
    refine declared.appendAtom ?_ home organization.symm
    rintro other member ⟨isRevision, isVlob, isVersion⟩
    exact new ⟨other, member, isRevision, isVlob.trans vlobId, isVersion.trans version⟩

/-- Without a revision to copy to, there must be nothing to copy. -/
theorem VlobQueries.of_foldlM_copyAtoms_none {batch : List (BatchItem β)}
    (saved : batch.foldlM (copyAtoms · organizationId none) tables = .ok next) :
    next = tables ∧ ∀ item ∈ batch, tables.source? organizationId item = none := by
  induction batch with
  | nil =>
    cases saved
    exact ⟨rfl, nofun⟩
  | cons item rest ih =>
    rw [List.foldlM_cons, copyAtoms] at saved
    cases sources : (atomsOfVlob tables organizationId item.1).filter (·.version = item.2.1) with
    | nil =>
      rw [sources] at saved
      obtain ⟨same, others⟩ := ih saved
      refine ⟨same, fun other member => ?_⟩
      rcases List.mem_cons.mp member with rfl | member
      · rw [PgTables.source?, sources]
        rfl
      · exact others other member
    | cons source more =>
      rw [sources] at saved
      cases saved

theorem VlobQueries.queryMaintenanceSaveReencryptionBatch_spec {batch : List (BatchItem β)} {counts : ℕ × ℕ}
    (saved : queryMaintenanceSaveReencryptionBatch tables users organizationId author realmId revision batch =
      .ok (next, counts)) :
    ∃ realm, tables.qRealm organizationId realmId = some realm ∧
      ((next = tables ∧ ∀ item ∈ batch, tables.source? organizationId item = none) ∨
        ∃ id, tables.qVlobEncryptionRevisionInternalId organizationId realmId revision = some id ∧
          next = batch.foldl (fun tables item => tables.copied organizationId id item) tables) := by
  simp only [queryMaintenanceSaveReencryptionBatch, checkRealmAndMaintenanceAccess, Except.bind_eq_ok_iff,
    checkRealm_eq_ok_iff, exists_const, Except.pure_eq_ok_iff, Prod.mk.injEq] at saved
  obtain ⟨_, ⟨⟨realm, found, -⟩, -⟩, _, saved, rfl, -⟩ := saved
  refine ⟨realm, found, ?_⟩
  cases id : tables.qVlobEncryptionRevisionInternalId organizationId realmId revision with
  | none =>
    rw [id] at saved
    exact .inl (of_foldlM_copyAtoms_none saved)
  | some id' =>
    rw [id, foldlM_copyAtoms] at saved
    cases saved
    exact .inr ⟨id', rfl, rfl⟩

end Copy

end Guardata
