import Guardata.Machine.Run
import Guardata.Proofs.ManifestStorage

/-! # The manifest storage is coherent

The cache holds manifests that were set last, and every manifest that was set and does not wait to be
written is in its row. A row that was told of a version of the backend never forgets it, as long as the
versions it is told of do not decrease. The checkpoint is the one that was given last.
-/

namespace Guardata

open Machine Coroutine

variable {μ : Type}

/-- The manifest that a call sets for an entry. -/
def ManifestCall.sets : ManifestCall μ → EntryID → Option μ
  | .setManifest entryId manifest _ _, other => if other = entryId then some manifest else none
  | _, _ => none

/-- The version that a call reports for an entry. -/
def ManifestCall.reports : ManifestCall μ → EntryID → Option ℕ
  | .updateRealmCheckpoint _ changedVlobs, entryId => changedVlobs.get? entryId
  | _, _ => none

/-- The checkpoint that a call gives to the realm. -/
def ManifestCall.checkpoint : ManifestCall μ → Option ℕ
  | .updateRealmCheckpoint newCheckpoint _ => some newCheckpoint
  | _ => none

/-- The manifest that was set last for an entry. -/
def lastManifest (calls : List (ManifestCall μ)) (entryId : EntryID) : Option μ :=
  calls.foldl (fun last call => (call.sets entryId).or last) none

def lastCheckpoint (calls : List (ManifestCall μ)) : Option ℕ :=
  calls.foldl (fun last call => call.checkpoint.or last) none

/-- The versions reported for an entry do not decrease. -/
def ReportsGrow (calls : List (ManifestCall μ)) : Prop :=
  calls.Pairwise fun earlier later => ∀ entryId version other,
    earlier.reports entryId = some version → later.reports entryId = some other → version ≤ other

namespace ManifestStorage

variable [BaseLocalManifest μ]

/-- A row that holds a manifest. -/
def Holds (storage : ManifestStorage μ) (row : VlobRow μ) (manifest : μ) : Prop :=
  row.blob = ⟨storage.localSymkey, manifest⟩ ∧ row.needSync = BaseLocalManifest.needSync manifest

/-- The storage agrees with the manifests that were set last. -/
structure Coherent (last : EntryID → Option μ) (storage : ManifestStorage μ) : Prop where
  waiting : ∀ entryId removedIds, storage.cacheAheadOfLocaldb.get? entryId = some removedIds →
    ∃ manifest, storage.cache.get? entryId = some manifest
  cached : ∀ entryId manifest, storage.cache.get? entryId = some manifest → last entryId = some manifest
  written : ∀ entryId manifest, last entryId = some manifest →
    storage.cacheAheadOfLocaldb.get? entryId = none →
      ∃ row, storage.localdb.vlobs.get? entryId = some row ∧ storage.Holds row manifest
  known : ∀ entryId row, storage.localdb.vlobs.get? entryId = some row →
    (∃ manifest, last entryId = some manifest) ∧
      row.baseVersion = BaseLocalManifest.baseVersion row.blob.plain

/-- The row of an entry was told of a version of the backend. -/
def Told (storage : ManifestStorage μ) (entryId : EntryID) (version : ℕ) : Prop :=
  ∃ row, storage.localdb.vlobs.get? entryId = some row ∧ version ≤ row.remoteVersion

/-- Whatever the rows were told before, they were told after, and the checkpoint is the same. -/
structure Remembers (storage next : ManifestStorage μ) : Prop where
  told : ∀ entryId version, storage.Told entryId version → next.Told entryId version
  checkpoint : next.localdb.realmCheckpoint = storage.localdb.realmCheckpoint

omit [BaseLocalManifest μ] in
theorem Remembers.refl (storage : ManifestStorage μ) : storage.Remembers storage := ⟨fun _ _ told => told, rfl⟩

omit [BaseLocalManifest μ] in
theorem Remembers.trans {first middle last : ManifestStorage μ} (left : first.Remembers middle)
    (right : middle.Remembers last) : first.Remembers last :=
  ⟨fun entryId version told => right.told entryId version (left.told entryId version told),
    right.checkpoint.trans left.checkpoint⟩

variable {last : EntryID → Option μ} {storage : ManifestStorage μ}

theorem Coherent.cacheManifest (coherent : storage.Coherent last) (entryId : EntryID) (manifest : μ)
    (removedIds : Finset ChunkID) :
    (storage.cacheManifest entryId manifest removedIds).Coherent
    (Function.update last entryId (some manifest)) where
  waiting other ids found := by
    simp only [ManifestStorage.cacheManifest, Dict.get?_insert] at found ⊢
    split
    · exact ⟨_, rfl⟩
    · next differs =>
      rw [if_neg differs] at found
      exact coherent.waiting other ids found
  cached other found is := by
    simp only [ManifestStorage.cacheManifest, Dict.get?_insert] at is
    split at is
    · next same =>
      subst same
      rwa [Function.update_self]
    · next differs =>
      rw [Function.update_of_ne differs]
      exact coherent.cached other found is
  written other found is ready := by
    simp only [ManifestStorage.cacheManifest, Dict.get?_insert] at ready
    split at ready
    · cases ready
    · next differs =>
      rw [Function.update_of_ne differs] at is
      exact coherent.written other found is ready
  known other row found := by
    obtain ⟨⟨before, is⟩, based⟩ := coherent.known other row found
    by_cases same : other = entryId
    · subst same
      exact ⟨⟨_, Function.update_self ..⟩, based⟩
    · exact ⟨⟨before, by rwa [Function.update_of_ne same]⟩, based⟩

/-- Writing a manifest never fails, and it is not ahead of the database afterwards. -/
theorem Coherent.writeManifest (coherent : storage.Coherent last) (entryId : EntryID) :
    ∃ next, ManifestStorage.writeManifest entryId storage = .ok ((), next) ∧ next.Coherent last ∧
      storage.Remembers next ∧ next.cacheAheadOfLocaldb.keys = storage.cacheAheadOfLocaldb.keys.filter
      (· ≠ entryId) := by
  unfold ManifestStorage.writeManifest
  cases waits : storage.cacheAheadOfLocaldb.get? entryId with
  | none =>
    refine ⟨storage, rfl, coherent, .refl storage, (List.filter_eq_self.mpr fun other member => ?_).symm⟩
    have differs : other ≠ entryId := by
      rintro rfl
      exact Dict.get?_eq_none_iff.mp waits member
    simpa using differs
  | some removedIds =>
    obtain ⟨manifest, cached⟩ := coherent.waiting entryId removedIds waits
    rw [cached]
    refine ⟨_, rfl, ⟨?_, coherent.cached, ?_, ?_⟩, ⟨?_, rfl⟩, Dict.keys_erase ..⟩
    · intro other ids found
      rw [Dict.get?_erase] at found
      split at found
      · cases found
      · exact coherent.waiting other ids found
    · intro other found is ready
      simp only [LocalDatabase.get?_insertOrReplace]
      split
      · next same =>
        subst same
        obtain rfl : manifest = found := Option.some.inj
          ((coherent.cached other manifest cached).symm.trans is)
        exact ⟨_, rfl, rfl, rfl⟩
      · next differs =>
        rw [Dict.get?_erase, if_neg differs] at ready
        exact coherent.written other found is ready
    · intro other row found
      simp only [LocalDatabase.get?_insertOrReplace] at found
      split at found
      · next same =>
        subst same
        cases found
        exact ⟨⟨manifest, coherent.cached other manifest cached⟩, rfl⟩
      · exact coherent.known other row found
    · rintro other version ⟨row, found, told⟩
      simp only [Told, LocalDatabase.get?_insertOrReplace]
      split
      · next same =>
        subst same
        refine ⟨_, rfl, ?_⟩
        simp only [found, Option.map_some, Option.getD_some]
        exact told.trans (le_max_right ..)
      · exact ⟨row, found, told⟩

/-- Alone, the flush needs as many rounds as manifests wait. -/
theorem Coherent.run_flush {rounds : ℕ} (coherent : storage.Coherent last)
    (enough : storage.cacheAheadOfLocaldb.keys.length = rounds) :
    ∃ next, (flushCacheAheadOfPersistance rounds).run storage = some (.ok (), next) ∧ next.Coherent last ∧
      storage.Remembers next ∧ next.cacheAheadOfLocaldb.keys = [] := by
  induction rounds generalizing storage with
  | zero =>
    have nothing := List.length_eq_zero_iff.mp enough
    refine ⟨storage, ?_, coherent, .refl storage, nothing⟩
    rw [flushCacheAheadOfPersistance, run_bind_of_ok _ (run_observe _ _), if_pos nothing]
    rfl
  | succ rounds ih =>
    rw [flushCacheAheadOfPersistance, run_bind_of_ok _ (run_observe _ _)]
    cases waiting : storage.cacheAheadOfLocaldb.keys with
    | nil =>
      rw [waiting] at enough
      cases enough
    | cons entryId rest =>
      obtain ⟨middle, wrote, coherent, remembers, left⟩ := coherent.writeManifest entryId
      have distinct := storage.cacheAheadOfLocaldb.nodup_keys
      rw [waiting, List.nodup_cons] at distinct
      have remaining : middle.cacheAheadOfLocaldb.keys = rest := by
        rw [left, waiting, List.filter_cons_of_neg (by simp), List.filter_eq_self]
        intro other member
        exact decide_eq_true fun same => distinct.1 (same ▸ member)
      obtain ⟨next, flushed, coherent, later, nothing⟩ := ih coherent (by
        rw [remaining]
        simpa [waiting] using enough)
      refine ⟨next, ?_, coherent, remembers.trans later, nothing⟩
      exact (run_bind_of_ok _ (run_openCursor wrote)).trans flushed

theorem Coherent.run_clearMemoryCache (coherent : storage.Coherent last) :
    ∃ next, (clearMemoryCache true).run storage = some (.ok (), next) ∧ next.Coherent last ∧
      storage.Remembers next := by
  obtain ⟨flushed, played, coherent, remembers, nothing⟩ := coherent.run_flush rfl
  refine ⟨{ flushed with cacheAheadOfLocaldb := ∅, cache := ∅ }, ?_, ⟨?_, ?_, ?_, coherent.known⟩,
    ⟨remembers.told, remembers.checkpoint⟩⟩
  · rw [clearMemoryCache, run_bind_of_ok _ (run_observe _ _)]
    exact (run_bind_of_ok _ played).trans (run_update ..)
  · rintro entryId removedIds ⟨⟩
  · rintro entryId manifest ⟨⟩
  · intro entryId manifest is _
    refine coherent.written entryId manifest is (Dict.get?_eq_none_iff.mpr ?_)
    rw [nothing]
    exact List.not_mem_nil

/-- A report changes nothing but the versions that the rows were told. -/
theorem Coherent.updateRealmCheckpoint (coherent : storage.Coherent last) (newCheckpoint : ℕ)
    (changedVlobs : Dict EntryID ℕ) :
    ({ storage with
      localdb := storage.localdb.updateRealmCheckpoint newCheckpoint changedVlobs } :
      ManifestStorage μ).Coherent
        last where
  waiting := coherent.waiting
  cached := coherent.cached
  written entryId manifest is ready := by
    obtain ⟨row, found, blob, needSync⟩ := coherent.written entryId manifest is ready
    refine ⟨{ row with remoteVersion := (changedVlobs.get? entryId).getD row.remoteVersion }, ?_,
      blob, needSync⟩
    rw [LocalDatabase.get?_updateRealmCheckpoint, found]
    rfl
  known entryId row found := by
    rw [LocalDatabase.get?_updateRealmCheckpoint, Option.map_eq_some_iff] at found
    obtain ⟨before, found, rfl⟩ := found
    exact coherent.known entryId before found

/-- `get_manifest` answers with the manifest that was set last, and only fills the cache. -/
theorem Coherent.run_getManifest (coherent : storage.Coherent last) (entryId : EntryID) :
    ∃ next, (getManifest entryId).run storage =
        some ((last entryId).elim (.error (.localMiss entryId)) .ok, next) ∧
      next.Coherent last ∧ next.localdb = storage.localdb := by
  rw [getManifest, run_bind_of_ok _ (run_observe _ _)]
  cases cached : storage.cache.get? entryId with
  | some manifest =>
    rw [coherent.cached entryId manifest cached]
    exact ⟨storage, rfl, coherent, rfl⟩
  | none =>
    have queried : (openCursor fun storage : ManifestStorage μ =>
        .ok ((storage.localdb.vlobs.get? entryId).map (·.blob), storage)).run storage =
          some (.ok ((storage.localdb.vlobs.get? entryId).map (·.blob)), storage) := run_openCursor rfl
    simp only
    rw [run_bind_of_ok _ queried]
    cases is : last entryId with
    | none =>
      have missing : storage.localdb.vlobs.get? entryId = none := by
        rw [Option.eq_none_iff_forall_ne_some]
        intro row found
        obtain ⟨⟨manifest, other⟩, -⟩ := coherent.known entryId row found
        rw [is] at other
        cases other
      rw [missing]
      exact ⟨storage, rfl, coherent, rfl⟩
    | some manifest =>
      have ready : storage.cacheAheadOfLocaldb.get? entryId = none := by
        rw [Option.eq_none_iff_forall_ne_some]
        intro removedIds waits
        obtain ⟨other, found⟩ := coherent.waiting entryId removedIds waits
        rw [cached] at found
        cases found
      obtain ⟨row, found, blob, -⟩ := coherent.written entryId manifest is ready
      have filled : fillCache entryId row.blob storage =
          .ok (manifest, { storage with cache := storage.cache.insert entryId manifest }) := by
        rw [fillCache, cached, blob]
        simp [Ciphered.decrypt, Except.mapError]
      rw [found]
      refine ⟨_, run_transact_of_ok _ filled, ⟨?_, ?_, coherent.written, coherent.known⟩, rfl⟩
      · intro other removedIds waits
        rw [Dict.get?_insert]
        split
        · exact ⟨_, rfl⟩
        · exact coherent.waiting other removedIds waits
      · intro other found cached
        rw [Dict.get?_insert] at cached
        split at cached
        · next same =>
          cases cached
          rwa [same]
        · exact coherent.cached other found cached

theorem run_getNeedSyncEntries (storage : ManifestStorage μ) :
    getNeedSyncEntries.run storage =
      some (.ok (storage.cachedChanges ∪ storage.localdb.needSyncEntries.1,
      storage.localdb.needSyncEntries.2),
        storage) := by
  rw [getNeedSyncEntries, run_bind_of_ok _ (run_observe _ _)]
  exact run_openCursor rfl

/-- A manifest that needs a sync is found in the cache, or else in its row. -/
theorem Coherent.mem_localChanges (coherent : storage.Coherent last) {entryId : EntryID} {manifest : μ}
    (is : last entryId = some manifest) (needs : BaseLocalManifest.needSync manifest = true) :
    entryId ∈ storage.cachedChanges ∪ storage.localdb.needSyncEntries.1 := by
  rw [Finset.mem_union, mem_cachedChanges_iff, LocalDatabase.mem_localChanges_iff]
  cases cached : storage.cache.get? entryId with
  | some found =>
    obtain rfl : found = manifest := Option.some.inj ((coherent.cached entryId found cached).symm.trans is)
    exact .inl ⟨found, rfl, needs⟩
  | none =>
    have ready : storage.cacheAheadOfLocaldb.get? entryId = none := by
      rw [Option.eq_none_iff_forall_ne_some]
      intro removedIds waits
      obtain ⟨other, found⟩ := coherent.waiting entryId removedIds waits
      rw [cached] at found
      cases found
    obtain ⟨row, found, -, needSync⟩ := coherent.written entryId manifest is ready
    exact .inr ⟨row, found, needSync.trans needs⟩

/-- Every call keeps the storage coherent, and what the rows were told unless it reports less. The checkpoint stays
unless another is given. -/
theorem Coherent.step (coherent : storage.Coherent last) (call : ManifestCall μ) :
    ∃ next, storage.step? call = some next ∧ next.Coherent (fun entryId => (call.sets entryId).or
    (last entryId)) ∧
      (∀ entryId version, (∀ other, call.reports entryId = some other → version ≤ other) →
        storage.Told entryId version → next.Told entryId version) ∧
      next.localdb.realmCheckpoint = call.checkpoint.or storage.localdb.realmCheckpoint := by
  cases call with
  | setManifest entryId manifest cacheOnly removedIds =>
    have set : (fun other =>
      ((ManifestCall.setManifest entryId manifest cacheOnly removedIds).sets other).or (last other)) =
        Function.update last entryId (some manifest) := by
      funext other
      by_cases same : other = entryId
      · simp [ManifestCall.sets, same]
      · simp [ManifestCall.sets, same]
    have cached := coherent.cacheManifest entryId manifest removedIds
    rw [set, step?, setManifest, run_bind_of_ok _ (run_update _ _)]
    cases cacheOnly with
    | true => exact ⟨_, rfl, cached, fun _ _ _ told => told, rfl⟩
    | false =>
      obtain ⟨next, wrote, coherent, remembers, -⟩ := cached.writeManifest entryId
      exact ⟨next, congrArg (Option.map Prod.snd) (run_openCursor wrote), coherent,
        fun other version _ told => remembers.told other version told, remembers.checkpoint⟩
  | ensureManifestPersistent entryId =>
    rw [step?, ensureManifestPersistent, run_bind_of_ok _ (run_observe _ _)]
    split
    · obtain ⟨next, wrote, coherent, remembers, -⟩ := coherent.writeManifest entryId
      exact ⟨next, congrArg (Option.map Prod.snd) (run_openCursor wrote), coherent,
        fun other version _ told => remembers.told other version told, remembers.checkpoint⟩
    · exact ⟨storage, rfl, coherent, fun _ _ _ told => told, rfl⟩
  | clearMemoryCache =>
    obtain ⟨next, played, coherent, remembers⟩ := coherent.run_clearMemoryCache
    exact ⟨next, by rw [step?, played]; rfl, coherent, fun other version _ told =>
      remembers.told other version told, remembers.checkpoint⟩
  | getManifest entryId =>
    obtain ⟨next, played, coherent, same⟩ := coherent.run_getManifest entryId
    refine ⟨next, by rw [step?, played]; rfl, coherent, fun other version _ told => ?_, by rw [same]; rfl⟩
    rwa [Told, same]
  | updateRealmCheckpoint newCheckpoint changedVlobs =>
    have played : (ManifestStorage.updateRealmCheckpoint newCheckpoint changedVlobs).run storage =
        some (.ok (), { storage with
          localdb := storage.localdb.updateRealmCheckpoint newCheckpoint changedVlobs }) := run_openCursor rfl
    refine ⟨_, congrArg (Option.map Prod.snd) played,
      coherent.updateRealmCheckpoint newCheckpoint changedVlobs, ?_, rfl⟩
    rintro entryId version least ⟨row, found, told⟩
    refine ⟨{ row with remoteVersion := (changedVlobs.get? entryId).getD row.remoteVersion }, ?_, ?_⟩
    · rw [LocalDatabase.get?_updateRealmCheckpoint, found]
      rfl
    · cases reported : changedVlobs.get? entryId with
      | none => exact told
      | some other => exact least other reported
  | getNeedSyncEntries =>
    exact ⟨storage, by rw [step?, run_getNeedSyncEntries]; rfl, coherent, fun _ _ _ told => told, rfl⟩

omit [BaseLocalManifest μ] in
theorem lastManifest_append_singleton (calls : List (ManifestCall μ)) (call : ManifestCall μ) :
    lastManifest (calls ++ [call]) = fun entryId => (call.sets entryId).or (lastManifest calls entryId) := by
  funext entryId
  rw [lastManifest, List.foldl_append]
  rfl

/-- No sequence of calls gets stuck, and the storage is coherent after it. -/
theorem exists_coherent_of_run (localSymkey : SecretKey) (calls : List (ManifestCall μ)) :
    ∃ storage, run? step? { localSymkey := localSymkey } calls = some storage ∧
      storage.Coherent (lastManifest calls) ∧ storage.localdb.realmCheckpoint = lastCheckpoint calls := by
  induction calls using List.reverseRecOn with
  | nil =>
    refine ⟨_, rfl, ⟨?_, ?_, ?_, ?_⟩, rfl⟩
    · rintro entryId removedIds ⟨⟩
    · rintro entryId manifest ⟨⟩
    · rintro entryId manifest ⟨⟩
    · rintro entryId row ⟨⟩
  | append_singleton calls call ih =>
    obtain ⟨storage, played, coherent, checkpoint⟩ := ih
    obtain ⟨next, step, coherent, -, given⟩ := coherent.step call
    refine ⟨next, ?_, ?_, ?_⟩
    · rw [run?_append, played, Option.bind_some, run?, step]
      rfl
    · rwa [lastManifest_append_singleton]
    · rw [given, checkpoint, lastCheckpoint, lastCheckpoint, List.foldl_append]
      rfl

/-- After any calls, `get_realm_checkpoint` answers with the checkpoint that was given last, and with 0 if none
was. -/
theorem getRealmCheckpoint_of_run (localSymkey : SecretKey) (calls : List (ManifestCall μ)) :
    ∃ storage, run? step? { localSymkey := localSymkey } calls = some storage ∧
      getRealmCheckpoint.run storage = some (.ok ((lastCheckpoint calls).getD 0), storage) := by
  obtain ⟨storage, played, -, checkpoint⟩ := exists_coherent_of_run localSymkey calls
  exact ⟨storage, played, checkpoint ▸ run_openCursor rfl⟩

/-- The storage is coherent, and the row was told. -/
private def StaysTold (entryId : EntryID) (version : ℕ) (storage : ManifestStorage μ) : Prop :=
  (∃ last, storage.Coherent last) ∧ storage.Told entryId version

/-- What a row was told, it was told after every run that does not report less. -/
theorem told_of_run {calls : List (ManifestCall μ)} {entryId : EntryID} {version : ℕ}
    (least : ∀ call ∈ calls, ∀ other, call.reports entryId = some other → version ≤ other)
    {final : ManifestStorage μ} (played : run? step? storage calls = some final)
    (coherent : storage.Coherent last) (told : storage.Told entryId version) :
    final.Told entryId version := by
  have invariant : StaysTold entryId version final := by
    refine run?_invariant (fun storage call next step least here => ?_) (along_of_forall_mem least) played
      ⟨⟨last, coherent⟩, told⟩
    obtain ⟨⟨last, coherent⟩, told⟩ := here
    obtain ⟨other, stepped, coherent, carried, -⟩ := coherent.step call
    obtain rfl : next = other := Option.some.inj (step.symm.trans stepped)
    exact ⟨⟨_, coherent⟩, carried entryId version least told⟩
  exact invariant.2

/-- After any calls, `get_manifest` answers with the manifest that was set last, the local changes contain
every entry whose last manifest needs a sync, and an entry whose row was behind a version reported for it
is among the remote changes until a manifest of that version or a later one is written to its row. -/
theorem manifest_storage_coherent (localSymkey : SecretKey) (calls : List (ManifestCall μ))
    (grow : ReportsGrow calls) :
    ∃ storage, run? step? { localSymkey := localSymkey } calls = some storage ∧
      (∀ entryId, ((getManifest entryId).run storage).map Prod.fst =
        some ((lastManifest calls entryId).elim (.error (.localMiss entryId)) .ok)) ∧
      ∃ localChanges remoteChanges,
        getNeedSyncEntries.run storage = some (.ok (localChanges, remoteChanges), storage) ∧
        (∀ entryId manifest, lastManifest calls entryId = some manifest →
          BaseLocalManifest.needSync manifest = true → entryId ∈ localChanges) ∧
        ∀ before newCheckpoint changedVlobs later earlier entryId version row,
          calls = before ++ .updateRealmCheckpoint newCheckpoint changedVlobs :: later →
          run? step? { localSymkey := localSymkey } before = some earlier →
          earlier.localdb.vlobs.get? entryId = some row → row.baseVersion < version →
          changedVlobs.get? entryId = some version →
            entryId ∈ remoteChanges ∨
              ∃ row, storage.localdb.vlobs.get? entryId = some row ∧
                version ≤ BaseLocalManifest.baseVersion row.blob.plain := by
  obtain ⟨storage, played, coherent, -⟩ := exists_coherent_of_run localSymkey calls
  refine ⟨storage, played, fun entryId => ?_, _, _, run_getNeedSyncEntries storage,
    fun entryId manifest => coherent.mem_localChanges, ?_⟩
  · obtain ⟨next, answered, -⟩ := coherent.run_getManifest entryId
    rw [answered]
    rfl
  intro before newCheckpoint changedVlobs later earlier entryId version row split reached found _ reported
  subst split
  obtain ⟨other, replayed, coherentBefore, -⟩ := exists_coherent_of_run localSymkey before
  obtain rfl : earlier = other := Option.some.inj (reached.symm.trans replayed)
  obtain ⟨next, step, coherentNext, -⟩ := coherentBefore.step
    (.updateRealmCheckpoint newCheckpoint changedVlobs)
  have resumed : run? step? next later = some storage := by
    rwa [run?_append, reached, Option.bind_some, run?, step, Option.bind_some] at played
  -- The report itself lifts the version of the row to the one reported.
  have told : next.Told entryId version := by
    have updated : (ManifestStorage.updateRealmCheckpoint newCheckpoint changedVlobs).run earlier =
        some (.ok (), { earlier with
          localdb := earlier.localdb.updateRealmCheckpoint newCheckpoint changedVlobs }) := run_openCursor rfl
    rw [step?, updated] at step
    cases step
    refine ⟨_, by rw [LocalDatabase.get?_updateRealmCheckpoint, found]; rfl, ?_⟩
    simp [reported]
  have least : ∀ call ∈ later, ∀ other, call.reports entryId = some other → version ≤ other := by
    intro call member other
    exact (List.pairwise_cons.mp
      (List.pairwise_append.mp grow).2.1).1 call member entryId version other reported
  obtain ⟨row, found, told⟩ := told_of_run least resumed coherentNext told
  obtain ⟨-, based⟩ := coherent.known entryId row found
  by_cases behind : row.baseVersion = row.remoteVersion
  · exact .inr ⟨row, found, by rw [← based, behind]; exact told⟩
  · exact .inl ((LocalDatabase.mem_remoteChanges_iff _).mpr ⟨row, found, behind⟩)

private def draft (blocksize : ℕ) : LocalFileManifest := .newPlaceholder ⟨"alice", "laptop"⟩ 0 1 3 blocksize

/-- A file is set twice, the second time without writing it, and versions are reported in between. -/
private def reportedTwice : List (ManifestCall LocalFileManifest) :=
  [.setManifest 1 (draft 512) false ∅, .updateRealmCheckpoint 5 (.ofList [(1, 2)]),
    .setManifest 1 (draft 1024) true {4}, .updateRealmCheckpoint 6 (.ofList [(1, 3)]), .clearMemoryCache]

theorem manifest_storage_coherent_reported :
    ∃ storage, run? step? { localSymkey := ⟨0⟩ } reportedTwice = some storage ∧
      ((getManifest 1).run storage).map Prod.fst = some (.ok (draft 1024)) := by
  have grow : ReportsGrow reportedTwice := by
    simp only [ReportsGrow, reportedTwice, List.pairwise_cons, List.mem_cons, List.not_mem_nil, or_false,
      forall_eq_or_imp, forall_eq, IsEmpty.forall_iff, implies_true, List.Pairwise.nil, and_true]
    simp [ManifestCall.reports, Dict.ofList, Dict.insertMany]
    omega
  obtain ⟨storage, played, answers, -⟩ := manifest_storage_coherent ⟨0⟩ reportedTwice grow
  exact ⟨storage, played, answers 1⟩

end ManifestStorage

end Guardata
