import Guardata.Model.VlobRequests
import Guardata.Soundness.ReencryptionVersions

/-! # Histories of vlobs

Versions are only added, one by one and at their dates. A re-encryption puts other blobs in their place but
keeps what is known of each, whatever the owners save: the authors and dates come from the vlobs it started
with, and every version has to be saved before it can finish.
-/

namespace Guardata

open Machine Reencryption

variable {β : Type}

section Blind

variable [Inhabited β]

/-- A reading of blobs that takes all of them for the same: what is saved need not be a re-encryption. -/
def blind : Cipher Unit β where
  encrypt _ _ _ := default
  decrypt _ _ := some ()

theorem Reencryption.Tracks.saveAny {oldKey newKey : SecretKey} {reencryption : Reencryption β}
    (tracks : reencryption.Tracks blind oldKey newKey) (batch : List (BatchItem β)) :
    (reencryption.saveBatch batch).1.Tracks blind oldKey newKey := by
  induction batch generalizing reencryption with
  | nil => exact tracks
  | cons item rest ih =>
    unfold Reencryption.saveBatch
    split
    · next saved =>
      refine ih (tracks.saveItem ?_ saved)
      -- What is saved is a version: it is done already, or was left to do.
      obtain ⟨vlobId, number, blob⟩ := item
      unfold Reencryption.saveItem at saved
      dsimp only at saved
      split at saved
      · next done =>
        obtain ⟨old, found⟩ := Dict.contains_eq_true_iff.mp done
        obtain ⟨version, is, -⟩ := tracks.done _ _ found
        exact ⟨version, is, (), rfl, rfl⟩
      · simp only [Except.bind_eq_ok_iff, Except.require_eq_ok_iff] at saved
        obtain ⟨_, left, -⟩ := saved
        obtain ⟨old, found⟩ := Dict.contains_eq_true_iff.mp left
        obtain ⟨version, is, -⟩ := tracks.todo _ _ found
        exact ⟨version, is, (), rfl, rfl⟩
    · exact tracks

namespace ReencryptionBackend

variable {backend next : ReencryptionBackend β}

/-- The re-encryptions under way account for the versions, if not for the blobs. -/
def Tracked (backend : ReencryptionBackend β) : Prop := backend.Sound blind fun _ _ => ⟨0⟩

theorem tracked_empty : ({} : ReencryptionBackend β).Tracked := nofun

theorem Tracked.saveAny (tracked : backend.Tracked) (organizationId : OrganizationID) (author : DeviceID)
    (realmId : UUID) (revision : ℕ) (batch : List (BatchItem β)) :
    (backend.maintenanceSaveReencryptionBatch organizationId author realmId revision batch).1.Tracked := by
  unfold maintenanceSaveReencryptionBatch
  split
  · exact tracked
  · next reencryption current =>
    obtain ⟨realm, is, -, maintained, rfl, found⟩ := currentReencryption_eq_ok_iff.mp current
    obtain ⟨_, same, accounts⟩ := tracked _ reencryption found
    cases is.symm.trans same
    obtain ⟨kept, keptRealm⟩ := originalVlobs_saveBatch reencryption batch
    intro key other stands
    simp only [Dict.get?_insert] at stands
    split at stands
    · next same =>
      subst same
      cases stands
      refine ⟨realm, is, maintained, keptRealm.trans accounts.realmId, fun vlobId vlob => ?_,
        accounts.tracks.saveAny batch⟩
      rw [kept]
      exact accounts.originals vlobId vlob
    · obtain ⟨realm, is, accounts⟩ := tracked key other stands
      exact ⟨realm, is, accounts.maintained, accounts.realmId, accounts.originals, accounts.tracks⟩

theorem Tracked.serve (tracked : backend.Tracked) (request : VlobRequest β) :
    (backend.serve request).Tracked := by
  cases request with
  | realmCreate organizationId grant =>
    exact Except.elim_toOption Tracked tracked fun realms created => (tracked.realmCreate created).1
  | updateRoles users organizationId grant =>
    exact Except.elim_toOption Tracked tracked fun realms updated => (tracked.updateRoles updated).1
  | create organizationId author realmId revision vlobId timestamp blob =>
    exact Except.elim_toOption Tracked tracked fun vlobs created => (tracked.vlobCreate created).1
  | update organizationId author revision vlobId version timestamp blob =>
    exact Except.elim_toOption Tracked tracked fun vlobs updated => (tracked.vlobUpdate updated).1
  | start users organizationId author realmId revision recipients timestamp now =>
    exact (tracked.started ..).1
  | saveBatch organizationId author realmId revision batch =>
    exact tracked.saveAny organizationId author realmId revision batch
  | finish organizationId author realmId revision =>
    exact Except.elim_toOption Tracked tracked fun next finished => (tracked.finish finished).1

end ReencryptionBackend

end Blind

section Versions

/-- What is known of a version, apart from its blob. -/
def VlobVersion.stamp (version : VlobVersion β) : DeviceID × DateTime := (version.author, version.timestamp)

def InOrder (data : List (VlobVersion β)) : Prop :=
  data.Pairwise fun earlier later => earlier.timestamp ≤ later.timestamp

theorem inOrder_iff_stamps {data : List (VlobVersion β)} :
    InOrder data ↔ (data.map (·.stamp)).Pairwise fun earlier later => earlier.2 ≤ later.2 := by
  rw [InOrder, List.pairwise_map]
  rfl

theorem inOrder_append_singleton {data : List (VlobVersion β)} {version : VlobVersion β}
    (ordered : InOrder data)
    (last : ∀ before ∈ data.getLast?, before.timestamp ≤ version.timestamp) :
    InOrder (data ++ [version]) := by
  rw [InOrder, List.pairwise_append]
  refine ⟨ordered, List.pairwise_singleton _ _, fun before member new isNew => ?_⟩
  obtain rfl := List.mem_singleton.mp isNew
  rcases List.eq_nil_or_concat data with rfl | ⟨front, back, rfl⟩
  · cases member
  · rw [List.concat_eq_append] at member ordered last
    have bound := last back (by simp)
    rcases List.mem_append.mp member with early | late
    · exact ((List.pairwise_append.mp ordered).2.2 before early back (by simp)).trans bound
    · rw [List.mem_singleton.mp late]
      exact bound

/-- The last version that is dated no later. -/
def LastAt (data : List (VlobVersion β)) (timestamp : DateTime) (number : ℕ)
    (version : VlobVersion β) : Prop :=
  1 ≤ number ∧ data[number - 1]? = some version ∧ version.timestamp ≤ timestamp ∧
    ∀ index later, number ≤ index → data[index]? = some later → timestamp < later.timestamp

theorem LastAt.mono {data : List (VlobVersion β)} {earlier later : DateTime} {first second : ℕ}
    {old new : VlobVersion β} (before : LastAt data earlier first old) (after : LastAt data later second new)
    (grows : earlier ≤ later) : first ≤ second := by
  by_contra! less
  exact absurd (before.2.2.1.trans grows) (not_le.mpr (after.2.2.2 (first - 1) old (by omega) before.2.1))

theorem LastAt.unique {data : List (VlobVersion β)} {timestamp : DateTime} {first second : ℕ}
    {old new : VlobVersion β} (left : LastAt data timestamp first old)
    (right : LastAt data timestamp second new) : first = second :=
  le_antisymm (left.mono right (le_refl _)) (right.mono left (le_refl _))

namespace MemoryVlobComponent

/-- The scan from the newest version down stops at the last one that is early enough. -/
theorem lastAt_of_findIdx? {data : List (VlobVersion β)} {timestamp : DateTime} {index : ℕ}
    (found : data.reverse.findIdx? (·.timestamp ≤ timestamp) = some index) :
    ∃ version, LastAt data timestamp (data.length - index) version := by
  obtain ⟨inside, before, others⟩ := List.findIdx?_eq_some_iff_getElem.mp found
  rw [List.length_reverse] at inside
  have position : data.length - index - 1 = data.length - 1 - index := by omega
  refine ⟨data[data.length - 1 - index], by omega, ?_, ?_, ?_⟩
  · rw [position, List.getElem?_eq_getElem]
  · rw [List.getElem_reverse] at before
    exact of_decide_eq_true before
  · intro other later behind is
    have bound := (List.getElem?_eq_some_iff.mp is).1
    have skipped := others (data.length - 1 - other) (by omega)
    rw [List.getElem_reverse] at skipped
    have same : data.length - 1 - (data.length - 1 - other) = other := by omega
    simp only [same, (List.getElem?_eq_some_iff.mp is).2, decide_eq_true_eq, not_le] at skipped
    exact skipped

theorem lastVersionAt_eq_ok_iff {data : List (VlobVersion β)} {timestamp : DateTime} {number : ℕ} :
    lastVersionAt data timestamp = .ok number ↔ ∃ version, LastAt data timestamp number version := by
  unfold lastVersionAt
  cases found : data.reverse.findIdx? (·.timestamp ≤ timestamp) with
  | some index =>
    obtain ⟨version, last⟩ := lastAt_of_findIdx? found
    simp only [Except.ok.injEq]
    constructor
    · rintro rfl
      exact ⟨version, last⟩
    · rintro ⟨other, is⟩
      exact last.unique is
  | none =>
    rw [List.findIdx?_eq_none_iff] at found
    simp only [reduceCtorEq, false_iff, not_exists]
    intro version last
    have late := found version (List.mem_reverse.mpr (List.mem_of_getElem? last.2.1))
    exact absurd last.2.2.1 (by simpa using late)

theorem lastVersionAt_eq_error_iff {data : List (VlobVersion β)} {timestamp : DateTime} {error : VlobError} :
    lastVersionAt data timestamp = .error error ↔
      error = .version ∧ ∀ version ∈ data, timestamp < version.timestamp := by
  unfold lastVersionAt
  cases found : data.reverse.findIdx? (·.timestamp ≤ timestamp) with
  | some index =>
    obtain ⟨inside, before, -⟩ := List.findIdx?_eq_some_iff_getElem.mp found
    simp only [reduceCtorEq, false_iff, not_and, not_forall, not_lt]
    intro _
    exact ⟨_, List.mem_reverse.mp (List.getElem_mem inside), of_decide_eq_true before⟩
  | none =>
    rw [List.findIdx?_eq_none_iff] at found
    simp only [Except.error.injEq]
    refine ⟨fun same => ⟨same.symm, fun version member => ?_⟩, fun both => both.1.symm⟩
    simpa using found version (List.mem_reverse.mpr member)

variable {component next : MemoryVlobComponent β} {realms : MemoryRealmComponent}
  {organizationId : OrganizationID} {author : DeviceID} {vlobId : UUID} {revision : ℕ}
  {timestamp : DateTime} {vlob : Vlob β}

theorem read_of_access (stored : component.vlobs.get? (organizationId, vlobId) = some vlob)
    (access : checkRealmReadAccess realms organizationId vlob.realmId author.userId
    (some revision) = .ok ()) :
    (∀ number version, component.read realms organizationId author revision vlobId none (some timestamp) =
        .ok (number, version) ↔ LastAt vlob.data timestamp number version) ∧
    (component.read realms organizationId author revision vlobId none (some timestamp) = .error .version ↔
      ∀ version ∈ vlob.data, timestamp < version.timestamp) := by
  have run : component.read realms organizationId author revision vlobId none (some timestamp) =
      lastVersionAt vlob.data timestamp >>= fun number =>
        (versionAt? vlob.data number).elim (.error .version) fun version => .ok (number, version) := by
    rw [MemoryVlobComponent.read, getVlob_eq_ok_iff.mpr stored, Except.ok_bind, access, Except.ok_bind,
      chooseVersion]
    congr 1
    funext number
    cases versionAt? vlob.data number <;> rfl
  rw [run]
  cases last : lastVersionAt vlob.data timestamp with
  | error error =>
    obtain ⟨rfl, none⟩ := lastVersionAt_eq_error_iff.mp last
    refine ⟨fun number version => iff_of_false (by simp) fun is => ?_, iff_of_true rfl none⟩
    exact absurd is.2.2.1 (not_le.mpr (none version (List.mem_of_getElem? is.2.1)))
  | ok chosen =>
    obtain ⟨found, is⟩ := lastVersionAt_eq_ok_iff.mp last
    obtain ⟨index, rfl⟩ : ∃ index, chosen = index + 1 := ⟨chosen - 1, by have := is.1; omega⟩
    have at_ : versionAt? vlob.data (index + 1) = some found := is.2.1
    rw [Except.ok_bind, at_, Option.elim_some]
    refine ⟨fun number version => ?_, iff_of_false (by simp) fun none => ?_⟩
    · simp only [Except.ok.injEq, Prod.mk.injEq]
      constructor
      · rintro ⟨rfl, rfl⟩
        exact is
      · intro other
        obtain rfl := is.unique other
        exact ⟨rfl, Option.some_inj.mp (is.2.1.symm.trans other.2.1)⟩
    · exact absurd is.2.2.1 (not_le.mpr (none found (List.mem_of_getElem? is.2.1)))

/-- What a read at a date returns, whoever reads. -/
theorem lastAt_of_read {number : ℕ} {version : VlobVersion β}
    (stored : component.vlobs.get? (organizationId, vlobId) = some vlob)
    (read : component.read realms organizationId author revision vlobId none (some timestamp) =
      .ok (number, version)) : LastAt vlob.data timestamp number version := by
  have run := read
  simp only [MemoryVlobComponent.read, Except.bind_eq_ok_iff, getVlob_eq_ok_iff, stored, Option.some.injEq,
    exists_eq_left'] at run
  obtain ⟨_, access, -⟩ := run
  exact ((read_of_access stored access).1 number version).mp read

theorem listVersions_eq_ok {numbers : Dict ℕ (DateTime × DeviceID)}
    (listed : component.listVersions realms organizationId author vlobId = .ok numbers) :
    ∃ vlob, component.vlobs.get? (organizationId, vlobId) = some vlob ∧
      numbers.keys = List.range' 1 vlob.currentVersion ∧
      ∀ index version, vlob.data[index]? = some version →
        numbers.get? (index + 1) = some (version.timestamp, version.author) := by
  simp only [listVersions, Except.bind_eq_ok_iff, getVlob_eq_ok_iff, Except.pure_eq_ok_iff] at listed
  obtain ⟨vlob, stored, _, -, rfl⟩ := listed
  have keys : (vlob.data.zipIdx.map fun entry => (entry.2 + 1, (entry.1.timestamp, entry.1.author))).map
      Prod.fst = List.range' 1 vlob.currentVersion := by
    refine List.ext_getElem (by simp [Vlob.currentVersion]) fun index _ _ => ?_
    simp [Nat.add_comm]
  have distinct : ((vlob.data.zipIdx.map fun entry =>
      (entry.2 + 1, (entry.1.timestamp, entry.1.author))).map Prod.fst).Nodup := by
    rw [keys]
    exact List.nodup_range'
  have items := Dict.items_ofList_of_nodup distinct
  refine ⟨vlob, stored, by rw [Dict.keys, items, keys], fun index version is => ?_⟩
  rw [Dict.get?_eq_some_iff, items, List.mem_map]
  exact ⟨(version, index), List.mem_zipIdx_iff_getElem?.mpr is, rfl⟩

theorem create_eq_ok_iff {realmId : UUID} {blob : β} :
    component.create realms organizationId author realmId revision vlobId timestamp blob = .ok next ↔
      checkRealmWriteAccess realms organizationId realmId author.userId (some revision) = .ok () ∧
        component.vlobs.get? (organizationId, vlobId) = none ∧
        next = ({ component with
          vlobs := component.vlobs.insert (organizationId, vlobId) ⟨realmId, [⟨blob, author, timestamp⟩]⟩ } :
            MemoryVlobComponent β).updateChanges organizationId author realmId vlobId 1 := by
  simp only [create, Except.bind_eq_ok_iff, Except.require_eq_ok_iff, exists_const, Except.pure_eq_ok_iff,
    Except.exists_done]
  exact and_congr_right fun _ => and_congr_right fun _ => eq_comm

theorem update_eq_ok_iff {number : ℕ} {blob : β} :
    component.update realms organizationId author revision vlobId number timestamp blob = .ok next ↔
      ∃ vlob, component.vlobs.get? (organizationId, vlobId) = some vlob ∧
        checkRealmWriteAccess realms organizationId vlob.realmId author.userId (some revision) = .ok () ∧
        (number : ℤ) - 1 = vlob.currentVersion ∧
        (∀ last ∈ versionAt? vlob.data vlob.currentVersion, last.timestamp ≤ timestamp) ∧
        next = ({ component with
          vlobs := component.vlobs.insert (organizationId, vlobId)
            { vlob with data := vlob.data ++ [⟨blob, author, timestamp⟩] } } : MemoryVlobComponent
              β).updateChanges organizationId author vlob.realmId vlobId number := by
  simp only [update, Except.bind_eq_ok_iff, Except.require_eq_ok_iff, exists_const, Except.pure_eq_ok_iff,
    Except.exists_done, getVlob_eq_ok_iff, Option.all_map, Option.all_eq_true, decide_eq_true_eq]
  refine exists_congr fun vlob => and_congr_right fun _ => and_congr_right
    fun _ => and_congr_right fun _ => ?_
  exact and_congr_right fun _ => eq_comm

end MemoryVlobComponent

end Versions

section Requests

namespace ReencryptionBackend

variable {backend next : ReencryptionBackend β} {key : OrganizationID × UUID} {vlob : Vlob β}

/-- The vlob goes on under its key, with the versions it had and some more, but for their blobs. -/
def Continues (next : ReencryptionBackend β) (key : OrganizationID × UUID) (vlob : Vlob β)
    (added : List (VlobVersion β)) : Prop :=
  ∃ later, next.vlobs.vlobs.get? key = some later ∧ later.realmId = vlob.realmId ∧
    later.data.map (·.stamp) = (vlob.data ++ added).map (·.stamp)

theorem continues_self (stored : next.vlobs.vlobs.get? key = some vlob) : next.Continues key vlob [] :=
  ⟨vlob, stored, rfl, by rw [List.append_nil]⟩

/-- The versions that a request adds to a vlob: the one of an update that is accepted. -/
def appended (backend : ReencryptionBackend β) (key : OrganizationID × UUID) :
    VlobRequest β → List (VlobVersion β)
  | .update organizationId author encryptionRevision vlobId version timestamp blob =>
      if key = (organizationId, vlobId) ∧ (backend.vlobs.update backend.realms organizationId author
          encryptionRevision vlobId version timestamp blob).toOption.isSome then
        [⟨blob, author, timestamp⟩]
      else []
  | _ => []

/-- The vlob that a request asks for, and its key. -/
def creates? : VlobRequest β → Option ((OrganizationID × UUID) × Vlob β)
  | .create organizationId author realmId _ vlobId timestamp blob =>
      some ((organizationId, vlobId), ⟨realmId, [⟨blob, author, timestamp⟩]⟩)
  | _ => none

theorem vlobs_startReencryptionMaintenance (backend : ReencryptionBackend β) (users : UserTable)
    (organizationId : OrganizationID) (author : DeviceID) (realmId : UUID) (revision : ℕ)
    (recipients : List UserID) (timestamp now : DateTime) :
    (backend.startReencryptionMaintenance users organizationId author realmId revision recipients timestamp
      now).1.vlobs = backend.vlobs := by
  unfold startReencryptionMaintenance
  split
  · rfl
  · split <;> rfl

theorem vlobs_maintenanceSaveReencryptionBatch (backend : ReencryptionBackend β)
    (organizationId : OrganizationID) (author : DeviceID) (realmId : UUID) (revision : ℕ)
    (batch : List (BatchItem β)) :
    (backend.maintenanceSaveReencryptionBatch organizationId author realmId revision batch).1.vlobs =
      backend.vlobs := by
  unfold maintenanceSaveReencryptionBatch
  split <;> rfl

theorem stamps_of_carried {Plain : Type} {cipher : Cipher Plain β} {oldKey newKey : SecretKey}
    {old new : List (VlobVersion β)} (carried : List.Forall₂ (Carried cipher oldKey newKey) old new) :
    new.map (·.stamp) = old.map (·.stamp) := by
  induction carried with
  | nil => rfl
  | cons same _ ih =>
    rw [List.map_cons, List.map_cons, ih, VlobVersion.stamp, same.1, same.2.1]
    rfl

variable [Inhabited β]

theorem Tracked.finish_continues (tracked : backend.Tracked) {organizationId : OrganizationID}
    {author : DeviceID} {realmId : UUID} {revision : ℕ}
    (finished : backend.finishReencryptionMaintenance organizationId author realmId revision = .ok next)
    (stored : backend.vlobs.vlobs.get? key = some vlob) : next.Continues key vlob [] := by
  obtain ⟨reencryption, found, -, carried, -⟩ := tracked.finish_carries finished
  obtain ⟨realm, _, vlobs, is, -, -, rfl, found', got, rfl⟩ := finish_eq_ok_iff.mp finished
  cases found.symm.trans found'
  obtain ⟨_, same, accounts⟩ := tracked _ reencryption found
  cases is.symm.trans same
  obtain ⟨org, vlobId⟩ := key
  by_cases here : org = organizationId ∧ vlob.realmId = realmId
  · obtain ⟨rfl, inside⟩ := here
    obtain ⟨after, stands, realmId, versions⟩ :=
      carried vlobId vlob ((accounts.originals vlobId vlob).mpr ⟨stored, inside⟩)
    exact ⟨after, stands, realmId.trans inside.symm, by rw [stamps_of_carried versions, List.append_nil]⟩
  · -- A vlob of another realm is not among those that are put in place.
    refine continues_self ?_
    simp only [get?_replaceVlobs, stored]
    split
    · next sameOrg =>
      subst sameOrg
      cases replaced : vlobs.get? vlobId with
      | none => rfl
      | some new =>
        obtain ⟨-, old, isOld, oldRealm⟩ := accounts.of_get?_reassembled got replaced
        cases stored.symm.trans isOld
        exact absurd ⟨rfl, oldRealm⟩ here
    · rfl

theorem Tracked.continues (tracked : backend.Tracked) (request : VlobRequest β)
    (stored : backend.vlobs.vlobs.get? key = some vlob) :
    (backend.serve request).Continues key vlob (backend.appended key request) := by
  cases request with
  | realmCreate organizationId grant =>
    exact Except.elim_toOption (Continues · key vlob []) (continues_self stored) fun _ _ =>
      continues_self stored
  | updateRoles users organizationId grant =>
    exact Except.elim_toOption (Continues · key vlob []) (continues_self stored) fun _ _ =>
      continues_self stored
  | create organizationId author realmId revision vlobId timestamp blob =>
    refine Except.elim_toOption (Continues · key vlob []) (continues_self stored) fun vlobs created => ?_
    obtain ⟨-, absent, written⟩ := MemoryVlobComponent.create_spec created
    refine continues_self ?_
    rw [setVlobs, written, Dict.get?_insert, if_neg, stored]
    rintro rfl
    rw [absent] at stored
    cases stored
  | update organizationId author revision vlobId version timestamp blob =>
    simp only [ReencryptionBackend.serve, appended]
    cases updated : backend.vlobs.update backend.realms organizationId author revision vlobId version timestamp
        blob with
    | error error =>
      rw [if_neg fun both => Bool.false_ne_true both.2]
      exact continues_self stored
    | ok vlobs =>
      obtain ⟨old, found, -, written⟩ := MemoryVlobComponent.update_spec updated
      by_cases same : key = (organizationId, vlobId)
      · subst same
        cases found.symm.trans stored
        rw [if_pos ⟨rfl, rfl⟩]
        refine ⟨{ vlob with data := vlob.data ++ [⟨blob, author, timestamp⟩] }, ?_, rfl, rfl⟩
        rw [Except.toOption, Option.elim_some, setVlobs, written, Dict.get?_insert, if_pos rfl]
      · rw [if_neg fun both => same both.1]
        refine continues_self ?_
        rw [Except.toOption, Option.elim_some, setVlobs, written, Dict.get?_insert, if_neg same, stored]
  | start users organizationId author realmId revision recipients timestamp now =>
    refine continues_self ?_
    rw [ReencryptionBackend.serve, vlobs_startReencryptionMaintenance, stored]
  | saveBatch organizationId author realmId revision batch =>
    refine continues_self ?_
    rw [ReencryptionBackend.serve, vlobs_maintenanceSaveReencryptionBatch, stored]
  | finish organizationId author realmId revision =>
    exact Except.elim_toOption (Continues · key vlob []) (continues_self stored) fun next finished =>
      tracked.finish_continues finished stored

omit [Inhabited β] in
theorem exists_of_creates? {request : VlobRequest β} (creates : creates? request = some (key, vlob)) :
    ∃ version, vlob.data = [version] := by
  unfold creates? at creates
  split at creates <;> cases creates
  exact ⟨_, rfl⟩

/-- Finishing adds no vlob. -/
theorem Tracked.finish_absent (tracked : backend.Tracked) {organizationId : OrganizationID}
    {author : DeviceID} {realmId : UUID} {revision : ℕ}
    (finished : backend.finishReencryptionMaintenance organizationId author realmId revision = .ok next)
    (absent : backend.vlobs.vlobs.get? key = none) : next.vlobs.vlobs.get? key = none := by
  obtain ⟨realm, reencryption, vlobs, is, -, -, rfl, found, got, rfl⟩ := finish_eq_ok_iff.mp finished
  obtain ⟨_, same, accounts⟩ := tracked _ reencryption found
  obtain ⟨org, vlobId⟩ := key
  simp only [get?_replaceVlobs, absent, Option.or_none]
  split
  · next sameOrg =>
    subst sameOrg
    refine Option.eq_none_iff_forall_ne_some.mpr fun new replaced => ?_
    obtain ⟨-, old, isOld, -⟩ := accounts.of_get?_reassembled got replaced
    rw [absent] at isOld
    cases isOld
  · rfl

/-- A vlob that was not there before is the one that was asked for. -/
theorem Tracked.new_of_serve (tracked : backend.Tracked) (request : VlobRequest β)
    (absent : backend.vlobs.vlobs.get? key = none) {later : Vlob β}
    (stored : (backend.serve request).vlobs.vlobs.get? key = some later) :
    creates? request = some (key, later) := by
  have unchanged (same : (backend.serve request).vlobs.vlobs = backend.vlobs.vlobs) :
      creates? request = some (key, later) := by
    rw [same, absent] at stored
    cases stored
  cases request with
  | realmCreate organizationId grant =>
    exact unchanged (Except.elim_toOption (fun next : ReencryptionBackend β =>
      next.vlobs.vlobs = backend.vlobs.vlobs) rfl fun _ _ => rfl)
  | updateRoles users organizationId grant =>
    exact unchanged (Except.elim_toOption (fun next : ReencryptionBackend β =>
      next.vlobs.vlobs = backend.vlobs.vlobs) rfl fun _ _ => rfl)
  | create organizationId author realmId revision vlobId timestamp blob =>
    simp only [ReencryptionBackend.serve] at stored unchanged
    cases created : backend.vlobs.create backend.realms organizationId author realmId revision vlobId
        timestamp blob with
    | error error =>
      rw [created] at unchanged
      exact unchanged rfl
    | ok vlobs =>
      obtain ⟨-, -, written⟩ := MemoryVlobComponent.create_spec created
      rw [created, Except.toOption, Option.elim_some, setVlobs, written, Dict.get?_insert, absent] at stored
      split at stored
      · next same =>
        cases stored
        rw [same, creates?]
      · cases stored
  | update organizationId author revision vlobId version timestamp blob =>
    simp only [ReencryptionBackend.serve] at stored unchanged
    cases updated : backend.vlobs.update backend.realms organizationId author revision vlobId version
        timestamp blob with
    | error error =>
      rw [updated] at unchanged
      exact unchanged rfl
    | ok vlobs =>
      obtain ⟨old, found, -, written⟩ := MemoryVlobComponent.update_spec updated
      rw [updated, Except.toOption, Option.elim_some, setVlobs, written, Dict.get?_insert, if_neg,
        absent] at stored
      · cases stored
      · rintro rfl
        rw [absent] at found
        cases found
  | start users organizationId author realmId revision recipients timestamp now =>
    exact unchanged (congrArg MemoryVlobComponent.vlobs (vlobs_startReencryptionMaintenance ..))
  | saveBatch organizationId author realmId revision batch =>
    exact unchanged (congrArg MemoryVlobComponent.vlobs (vlobs_maintenanceSaveReencryptionBatch ..))
  | finish organizationId author realmId revision =>
    simp only [ReencryptionBackend.serve] at stored unchanged
    cases finished : backend.finishReencryptionMaintenance organizationId author realmId revision with
    | error error =>
      rw [finished] at unchanged
      exact unchanged rfl
    | ok next =>
      rw [finished, Except.toOption, Option.elim_some, id, tracked.finish_absent finished absent] at stored
      cases stored

omit [Inhabited β] in
theorem inOrder_appended (stored : backend.vlobs.vlobs.get? key = some vlob) (ordered : InOrder vlob.data)
    (request : VlobRequest β) : InOrder (vlob.data ++ backend.appended key request) := by
  have alone : InOrder (vlob.data ++ []) := by rwa [List.append_nil]
  cases request with
  | update organizationId author revision vlobId version timestamp blob =>
    simp only [appended]
    split
    · next accepted =>
      obtain ⟨rfl, accepted⟩ := accepted
      obtain ⟨vlobs, updated⟩ := Option.isSome_iff_exists.mp accepted
      obtain ⟨_, found, -, -, late, -⟩ :=
        MemoryVlobComponent.update_eq_ok_iff.mp (Except.toOption_eq_some_iff.mp updated)
      cases found.symm.trans stored
      refine inOrder_append_singleton ordered fun last isLast => late last ?_
      rw [Vlob.currentVersion]
      cases size : vlob.data.length with
      | zero => exact isLast
      | succ count =>
        rw [List.getLast?_eq_getElem?, size] at isLast
        exact isLast
    · exact alone
  | _ => exact alone

/-- Each vlob has a version at least, and its dates never decrease. -/
def Ordered (backend : ReencryptionBackend β) : Prop :=
  ∀ key vlob, backend.vlobs.vlobs.get? key = some vlob → vlob.data ≠ [] ∧ InOrder vlob.data

theorem Ordered.serve (ordered : backend.Ordered) (tracked : backend.Tracked) (request : VlobRequest β) :
    (backend.serve request).Ordered := by
  intro key later stored
  cases before : backend.vlobs.vlobs.get? key with
  | none =>
    obtain ⟨version, is⟩ := exists_of_creates? (tracked.new_of_serve request before stored)
    rw [is]
    exact ⟨List.cons_ne_nil _ _, List.pairwise_singleton _ _⟩
  | some vlob =>
    obtain ⟨nonempty, inOrder⟩ := ordered key vlob before
    obtain ⟨_, is, -, stamps⟩ := tracked.continues request before
    cases stored.symm.trans is
    constructor
    · rintro nothing
      rw [nothing, List.map_nil, eq_comm, List.map_eq_nil_iff, List.append_eq_nil_iff] at stamps
      exact nonempty stamps.1
    · rw [inOrder_iff_stamps, stamps, ← inOrder_iff_stamps]
      exact inOrder_appended before inOrder request

theorem afterRequests_sound (requests : List (VlobRequest β)) :
    (afterRequests requests).Tracked ∧ (afterRequests requests).Ordered := by
  have goesOn (backend : ReencryptionBackend β) (sound : backend.Tracked ∧ backend.Ordered) :
      (requests.foldl ReencryptionBackend.serve backend).Tracked ∧
        (requests.foldl ReencryptionBackend.serve backend).Ordered := by
    induction requests generalizing backend with
    | nil => exact sound
    | cons request rest ih => exact ih _ ⟨sound.1.serve request, sound.2.serve sound.1 request⟩
  exact goesOn {} ⟨tracked_empty, nofun⟩

end ReencryptionBackend

end Requests

/-- What holds of the vlobs of a backend, of what the next request does to them and of what is read. -/
structure ReencryptionBackend.HasHistories (backend : ReencryptionBackend β) : Prop where
  versions : ∀ key vlob, backend.vlobs.vlobs.get? key = some vlob → 1 ≤ vlob.currentVersion ∧
    InOrder vlob.data
  listed : ∀ organizationId author vlobId numbers,
    backend.vlobs.listVersions backend.realms organizationId author vlobId = .ok numbers →
      ∃ vlob, backend.vlobs.vlobs.get? (organizationId, vlobId) = some vlob ∧
        numbers.keys = List.range' 1 vlob.currentVersion ∧
        ∀ index version, vlob.data[index]? = some version →
          numbers.get? (index + 1) = some (version.timestamp, version.author)
  continued : ∀ request key vlob, backend.vlobs.vlobs.get? key = some vlob →
    (backend.serve request).Continues key vlob (backend.appended key request)
  created : ∀ request key later, (backend.serve request).vlobs.vlobs.get? key = some later →
    backend.vlobs.vlobs.get? key = none → later.currentVersion = 1 ∧
      creates? request = some (key, later)
  creates : ∀ organizationId author realmId revision vlobId timestamp blob vlobs,
    backend.vlobs.create backend.realms organizationId author realmId revision vlobId timestamp blob =
      .ok vlobs →
    backend.vlobs.vlobs.get? (organizationId, vlobId) = none ∧
      (backend.serve (.create organizationId author realmId revision vlobId timestamp blob)).vlobs.vlobs =
        backend.vlobs.vlobs.insert (organizationId, vlobId) ⟨realmId, [⟨blob, author, timestamp⟩]⟩
  notCreated : ∀ organizationId author realmId revision vlobId timestamp blob error,
    backend.vlobs.create backend.realms organizationId author realmId revision vlobId timestamp blob =
      .error error →
    backend.serve (.create organizationId author realmId revision vlobId timestamp blob) = backend
  updated : ∀ organizationId author revision vlobId version timestamp blob vlobs,
    backend.vlobs.update backend.realms organizationId author revision vlobId version timestamp blob =
      .ok vlobs →
    ∃ vlob, backend.vlobs.vlobs.get? (organizationId, vlobId) = some vlob ∧
      version = vlob.currentVersion + 1 ∧
      (backend.serve (.update organizationId author revision vlobId version timestamp blob)).vlobs.vlobs =
        backend.vlobs.vlobs.insert (organizationId, vlobId)
          { vlob with data := vlob.data ++ [⟨blob, author, timestamp⟩] }
  refused : ∀ organizationId author revision vlobId version timestamp blob error,
    backend.vlobs.update backend.realms organizationId author revision vlobId version timestamp blob =
      .error error →
    backend.serve (.update organizationId author revision vlobId version timestamp blob) = backend
  read : ∀ organizationId author revision vlobId timestamp vlob,
    backend.vlobs.vlobs.get? (organizationId, vlobId) = some vlob →
    MemoryVlobComponent.checkRealmReadAccess backend.realms organizationId vlob.realmId author.userId
      (some revision) = .ok () →
    (∀ number version, backend.vlobs.read backend.realms organizationId author revision vlobId none
      (some timestamp) = .ok (number, version) ↔ LastAt vlob.data timestamp number version) ∧
    (backend.vlobs.read backend.realms organizationId author revision vlobId none (some timestamp) =
      .error .version ↔ ∀ version ∈ vlob.data, timestamp < version.timestamp)
  monotone : ∀ organizationId vlobId author other revision revision' earlier later first second,
    earlier ≤ later →
    backend.vlobs.read backend.realms organizationId author revision vlobId none (some earlier) = .ok first →
    backend.vlobs.read backend.realms organizationId other revision' vlobId none (some later) = .ok second →
    first.1 ≤ second.1

/-- The history of a vlob begins with what it was created with and only grows, one version at each update that is
accepted, in the order of the dates. A read at a date finds the last version that is not later. -/
theorem vlob_histories_grow [Inhabited β] (requests : List (VlobRequest β)) :
    (ReencryptionBackend.afterRequests requests).HasHistories := by
  obtain ⟨tracked, ordered⟩ := ReencryptionBackend.afterRequests_sound requests
  refine ⟨?_, ?_, fun request key vlob => tracked.continues request, ?_, ?_, ?_, ?_, ?_, ?_, ?_⟩
  · intro key vlob stored
    obtain ⟨nonempty, inOrder⟩ := ordered key vlob stored
    exact ⟨List.length_pos_iff.mpr nonempty, inOrder⟩
  · intro organizationId author vlobId numbers listed
    exact MemoryVlobComponent.listVersions_eq_ok listed
  · intro request key later stored absent
    have creates := tracked.new_of_serve request absent stored
    obtain ⟨version, is⟩ := ReencryptionBackend.exists_of_creates? creates
    exact ⟨by rw [Vlob.currentVersion, is, List.length_singleton], creates⟩
  · intro organizationId author realmId revision vlobId timestamp blob vlobs created
    obtain ⟨-, absent, written⟩ := MemoryVlobComponent.create_spec created
    exact ⟨absent, by rw [ReencryptionBackend.serve, created]; exact written⟩
  · intro organizationId author realmId revision vlobId timestamp blob error refused
    rw [ReencryptionBackend.serve, refused]
    rfl
  · intro organizationId author revision vlobId version timestamp blob vlobs updated
    obtain ⟨vlob, stored, -, next, -, rfl⟩ := MemoryVlobComponent.update_eq_ok_iff.mp updated
    refine ⟨vlob, stored, by omega, ?_⟩
    rw [ReencryptionBackend.serve, updated]
    rfl
  · intro organizationId author revision vlobId version timestamp blob error refused
    rw [ReencryptionBackend.serve, refused]
    rfl
  · intro organizationId author revision vlobId timestamp vlob stored access
    exact MemoryVlobComponent.read_of_access stored access
  · rintro organizationId vlobId author other revision revision' earlier later ⟨first, old⟩
      ⟨second, new⟩ grows
      before after
    have read := before
    simp only [MemoryVlobComponent.read, Except.bind_eq_ok_iff, MemoryVlobComponent.getVlob_eq_ok_iff] at read
    obtain ⟨vlob, stored, -⟩ := read
    exact (MemoryVlobComponent.lastAt_of_read stored before).mono
      (MemoryVlobComponent.lastAt_of_read stored after) grows

section Example

private def aliceDevice : DeviceID := ⟨"alice", "dev"⟩

/-- The realm of Alice. -/
private def hers : RealmGrantedRole where
  certificate := ⟨⟨0⟩, some ⟨aliceDevice, 1, 1, "alice", some .owner⟩⟩
  realmId := 1
  userId := "alice"
  role := some .owner
  grantedBy := aliceDevice
  grantedOn := 1

/-- Alice creates a vlob and updates it, once in vain, re-encrypts her realm and updates the vlob again. -/
private def reencrypted : List (VlobRequest String) :=
  [.realmCreate "org" hers, .create "org" aliceDevice 1 1 7 3 "first",
    .update "org" aliceDevice 1 7 2 4 "second", .update "org" aliceDevice 1 7 3 2 "too early",
    .start (fun _ _ => some ⟨.standard, none⟩) "org" aliceDevice 1 2 ["alice"] 5 5,
    .saveBatch "org" aliceDevice 1 2 [(7, 1, "first again"), (7, 2, "second again")],
    .finish "org" aliceDevice 1 2, .update "org" aliceDevice 2 7 3 6 "third"]

theorem vlob_histories_grow_reencrypted :
    let backend := ReencryptionBackend.afterRequests reencrypted
    let history : List (VlobVersion String) := [⟨"first again", aliceDevice, 3⟩, ⟨"second again", aliceDevice, 4⟩,
      ⟨"third", aliceDevice, 6⟩]
    backend.vlobs.vlobs.get? ("org", 7) = some ⟨1, history⟩ ∧ InOrder history ∧
      backend.vlobs.read backend.realms "org" aliceDevice 2 7 none (some 5) =
        .ok (2, ⟨"second again", aliceDevice, 4⟩) ∧
      backend.vlobs.read backend.realms "org" aliceDevice 2 7 none (some 2) = .error .version := by
  intro backend history
  have stored : backend.vlobs.vlobs.get? ("org", 7) = some ⟨1, history⟩ := rfl
  have histories : backend.HasHistories := vlob_histories_grow reencrypted
  refine ⟨stored, (histories.versions _ _ stored).2, ?_, ?_⟩
  · refine ((histories.read "org" aliceDevice 2 7 5 _ stored rfl).1 2 _).mpr ⟨by decide, rfl, by decide, ?_⟩
    intro index later high found
    have bound := (List.getElem?_eq_some_iff.mp found).1
    obtain rfl : index = 2 := Nat.le_antisymm (Nat.le_of_lt_succ bound) high
    cases found
    decide
  · exact (histories.read "org" aliceDevice 2 7 2 _ stored rfl).2.mpr (by decide)

end Example

end Guardata
