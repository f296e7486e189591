import Guardata.Model.ManifestCache
import Guardata.Soundness.VlobHistories
import Mathlib.Data.List.Induction

/-! # The manifest cache answers as the backend does

Against a backend that stands still, a load through the cache returns what a load without it returns. The
last version that is dated no later than a date only grows with the date. So all dates between two that
have returned a version return it too, and the dates of different versions never cross.
-/

namespace Guardata

open MemoryVlobComponent

variable {γ : Type}

/-- The cached role certificates are those that the backend serves. -/
def Remote.UpToDate (remote : Remote γ) (loader : RemoteLoader) : Prop :=
  ∀ certifs date, loader.realmRoleCertificatesCache = some (certifs, date) →
    ∃ roles, loadRealmRoleCertificates remote.directory (remote.roleCertificates loader.workspaceId) =
      .ok (certifs, roles)

/-- The backend has this vlob, and lets the client read it. -/
def Remote.Readable (remote : Remote γ) (entryId : UUID) (vlob : Vlob (ManifestBlob γ)) : Prop :=
  remote.vlobs.vlobs.get? (remote.ctx.organizationId, entryId) = some vlob ∧
    checkRealmReadAccess remote.realms remote.ctx.organizationId vlob.realmId remote.ctx.deviceId.userId
      (some remote.entry.encryptionRevision) = .ok ()

/-- By version, by date or with neither; a date that is expected of the version is the one it has. -/
def LoadRequest.Plain (request : LoadRequest) (remote : Remote γ) : Prop :=
  (request.version = none ∨ request.timestamp = none) ∧
    ∀ expected ∈ request.expectedBackendTimestamp, ∀ number version,
      remote.vlobRead request.entryId request.version request.timestamp = .ok (number, version) →
        version.timestamp = expected

/-- The verified manifest that a served version holds. -/
def Remote.Accepts (remote : Remote γ) (workspaceId entryId : UUID) (number : ℕ)
    (data : VlobVersion (ManifestBlob γ)) (manifest : RemoteManifest γ) : Prop :=
  ∃ author certifs roles, getDevice remote.directory data.author = .ok author ∧
    RemoteManifest.decryptVerifyAndLoad data.blob remote.entry.key author.verifyKey data.author data.timestamp
      entryId number = .ok manifest ∧
    loadRealmRoleCertificates remote.directory (remote.roleCertificates workspaceId) = .ok (certifs, roles) ∧
    checkAuthorRole data.author data.timestamp (roleAt certifs data.author.userId data.timestamp) = .ok ()

/-- What a load leads to if its role certificates are those that the backend serves. -/
def Remote.outcome (remote : Remote γ) (workspaceId : UUID) (request : LoadRequest) :
    Except FSError (RemoteManifest γ) := do
  let (manifest, data) ← verifyManifest remote.directory remote.entry request.entryId request.version
    request.expectedBackendTimestamp (remote.vlobRead request.entryId request.version request.timestamp)
  let (certifs, _) ← loadRealmRoleCertificates remote.directory (remote.roleCertificates workspaceId)
  checkAuthorRole data.author data.timestamp (roleAt certifs data.author.userId data.timestamp)
  return manifest

namespace Remote

variable {remote : Remote γ} {loader : RemoteLoader} {request : LoadRequest} {entryId workspaceId : UUID}
  {vlob other : Vlob (ManifestBlob γ)} {number : ℕ} {version : VlobVersion (ManifestBlob γ)}
  {manifest : RemoteManifest γ}

theorem Readable.unique (readable : remote.Readable entryId vlob) (same : remote.Readable entryId other) :
    vlob = other := Option.some.inj (readable.1.symm.trans same.1)

/-- Whether the cached certificates are used does not matter. -/
theorem loadManifest_eq_outcome (upToDate : remote.UpToDate loader)
    (exclusive : request.version = none ∨ request.timestamp = none) :
    (remote.loadManifest loader request).1 = remote.outcome loader.workspaceId request ∧
      remote.UpToDate (remote.loadManifest loader request).2 ∧
      (remote.loadManifest loader request).2.workspaceId = loader.workspaceId := by
  unfold loadManifest RemoteLoader.loadManifest outcome
  split
  · next given dated => simp [given, dated] at exclusive
  · split
    · next err failed =>
      rw [failed]
      exact ⟨rfl, upToDate, rfl⟩
    · next found version verified =>
      rw [verified]
      simp only [RemoteLoader.getUserRealmRoleAt, Except.ok_bind]
      cases cached : loader.cachedCertificates? version.timestamp with
      | some certifs =>
        obtain ⟨date, filled⟩ := loader.cache_of_cachedCertificates? cached
        obtain ⟨roles, loaded⟩ := upToDate certifs date filled
        rw [loaded]
        exact ⟨rfl, upToDate, rfl⟩
      | none =>
        cases loaded : loadRealmRoleCertificates remote.directory
            (remote.roleCertificates loader.workspaceId) with
        | error err => exact ⟨rfl, upToDate, rfl⟩
        | ok both =>
          refine ⟨rfl, fun certifs date filled => ?_, rfl⟩
          cases filled
          exact ⟨both.2, loaded⟩

theorem outcome_eq_ok_iff : remote.outcome workspaceId request = .ok manifest ↔
    ∃ number version, remote.vlobRead request.entryId request.version request.timestamp =
        .ok (number, version) ∧ request.version ∈ [none, some number] ∧
      request.expectedBackendTimestamp ∈ [none, some version.timestamp] ∧
      remote.Accepts workspaceId request.entryId number version manifest := by
  simp only [outcome, verifyManifest, Except.bind_eq_ok_iff, Except.mapError_eq_ok_iff,
    Except.require_eq_ok_iff, exists_const, Except.pure_eq_ok_iff, Prod.exists, Prod.mk.injEq, Accepts]
  constructor
  · rintro ⟨found, version, ⟨number, _, served, asked, expected, author, known, _, opened, rfl, rfl⟩, certifs,
      roles, loaded, _, checked, rfl⟩
    exact ⟨number, _, served, asked, expected, author, certifs, roles, known, opened, loaded, checked⟩
  · rintro ⟨number, version, served, asked, expected, author, certifs, roles, known, opened, loaded, checked⟩
    exact ⟨manifest, version, ⟨number, version, served, asked, expected, author, known, manifest, opened, rfl,
      rfl⟩, certifs, roles, loaded, (), checked, rfl⟩

theorem vlobRead_eq_ok_iff {asked : Option ℕ} {timestamp : Option DateTime} :
    remote.vlobRead entryId asked timestamp = .ok (number, version) ↔
      (∀ number ∈ asked, 1 ≤ number) ∧ ∃ vlob, remote.Readable entryId vlob ∧
        chooseVersion vlob asked timestamp = .ok number ∧ versionAt? vlob.data number = some version := by
  simp only [vlobRead, apiVlobRead, MemoryVlobComponent.read, Except.bind_eq_ok_iff, Except.require_eq_ok_iff,
    exists_const, Except.mapError_eq_ok_iff, getVlob_eq_ok_iff, Readable]
  refine and_congr_right fun _ => exists_congr fun vlob => ?_
  constructor
  · rintro ⟨found, _, access, chosen, chose, served⟩
    cases stored : versionAt? vlob.data chosen with
    | none => simp only [stored, reduceCtorEq, throw, throwThe, MonadExceptOf.throw] at served
    | some data =>
      simp only [stored, Except.pure_eq_ok_iff, Prod.mk.injEq] at served
      obtain ⟨rfl, rfl⟩ := served
      exact ⟨⟨found, access⟩, chose, stored⟩
  · rintro ⟨⟨found, access⟩, chose, stored⟩
    refine ⟨found, (), access, number, chose, ?_⟩
    simp only [stored, Except.pure_eq_ok_iff]

theorem vlobRead_version_iff : remote.vlobRead entryId (some number) none = .ok (number, version) ↔
    1 ≤ number ∧ ∃ vlob, remote.Readable entryId vlob ∧ vlob.data[number - 1]? = some version := by
  rw [vlobRead_eq_ok_iff]
  cases number with
  | zero => simp
  | succ index => simp [chooseVersion, versionAt?]

theorem vlobRead_timestamp_iff {timestamp : DateTime} :
    remote.vlobRead entryId none (some timestamp) = .ok (number, version) ↔
      ∃ vlob, remote.Readable entryId vlob ∧ LastAt vlob.data timestamp number version := by
  rw [vlobRead_eq_ok_iff]
  simp only [Option.not_mem_none, false_implies, implies_true, true_and, chooseVersion,
    lastVersionAt_eq_ok_iff]
  refine exists_congr fun vlob => and_congr_right fun _ => ?_
  constructor
  · rintro ⟨⟨data, last⟩, stored⟩
    obtain ⟨index, rfl⟩ := Nat.exists_eq_add_of_le' last.1
    cases last.2.1.symm.trans stored
    exact last
  · rintro last
    obtain ⟨index, rfl⟩ := Nat.exists_eq_add_of_le' last.1
    exact ⟨⟨version, last⟩, last.2.1⟩

/-- Whatever is asked for, what is served is a version under its number. -/
theorem readable_of_vlobRead {asked : Option ℕ} {timestamp : Option DateTime}
    (served : remote.vlobRead entryId asked timestamp = .ok (number, version)) :
    ∃ vlob, remote.Readable entryId vlob ∧ 1 ≤ number ∧ vlob.data[number - 1]? = some version := by
  obtain ⟨positive, vlob, readable, chose, stored⟩ := vlobRead_eq_ok_iff.mp served
  refine ⟨vlob, readable, ?_⟩
  cases number with
  | succ index => exact ⟨by omega, stored⟩
  | zero =>
    exfalso
    match asked, timestamp, chose with
    | some chosen, _, chose =>
      cases chose
      exact absurd (positive 0 rfl) (by omega)
    | none, some timestamp, chose =>
      obtain ⟨_, last⟩ := lastVersionAt_eq_ok_iff.mp chose
      exact absurd last.1 (by omega)
    | none, none, chose =>
      have empty : vlob.data.length = 0 := Except.ok.inj chose
      rw [List.eq_nil_of_length_eq_zero empty] at stored
      cases stored

theorem Accepts.header (accepted : remote.Accepts workspaceId entryId number version manifest) :
    manifest.id = entryId ∧ manifest.version = number := by
  obtain ⟨author, certifs, roles, -, opened, -⟩ := accepted
  simp only [RemoteManifest.decryptVerifyAndLoad, Except.bind_eq_ok_iff, Except.require_eq_ok_iff,
    exists_const, Except.pure_eq_ok_iff] at opened
  obtain ⟨signed, -, data, -, -, sameId, sameVersion, rfl⟩ := opened
  exact ⟨sameId, sameVersion⟩

end Remote

section Cache

variable {remote : Remote γ} {loader : RemoteLoader} {request : LoadRequest} {entryId workspaceId : UUID}
  {vlob : Vlob (ManifestBlob γ)} {number : ℕ} {manifest : RemoteManifest γ} {entry : CacheEntry γ}

/-- All dates between two at which a version is the last one have it as the last one. -/
theorem LastAt.between {data : List (VlobVersion (ManifestBlob γ))} {early late timestamp : DateTime}
    {version : VlobVersion (ManifestBlob γ)} (first : LastAt data early number version)
    (last : LastAt data late number version) (since : early ≤ timestamp) (until_ : timestamp ≤ late) :
    LastAt data timestamp number version :=
  ⟨first.1, first.2.1, first.2.2.1.trans since, fun index later behind is =>
    until_.trans_lt (last.2.2.2 index later behind is)⟩

/-- The manifest is the one that is served under the number, and at the dates the number is the last. -/
def CacheEntry.Sound (entry : CacheEntry γ) (remote : Remote γ) (workspaceId entryId : UUID)
    (vlob : Vlob (ManifestBlob γ)) (number : ℕ) : Prop :=
  ∃ version, 1 ≤ number ∧ vlob.data[number - 1]? = some version ∧
    remote.Accepts workspaceId entryId number version entry.manifest ∧
    ∀ date, entry.early = some date ∨ entry.late = some date → LastAt vlob.data date number version

/-- Every manifest of one entry is cached with its own number and dates. -/
def SoundVersions (remote : Remote γ) (workspaceId entryId : UUID) (vlob : Vlob (ManifestBlob γ))
    (cacheForId : Dict ℕ (CacheEntry γ)) : Prop :=
  ∀ number entry, cacheForId.get? number = some entry → entry.Sound remote workspaceId entryId vlob number

def ManifestCache.Sound (cache : ManifestCache γ) (remote : Remote γ) (workspaceId : UUID) : Prop :=
  ∀ entryId cacheForId, cache.entries.get? entryId = some cacheForId →
    ∃ vlob, remote.Readable entryId vlob ∧ SoundVersions remote workspaceId entryId vlob cacheForId

theorem CacheEntry.Sound.spans (sound : entry.Sound remote workspaceId entryId vlob number)
    {timestamp : DateTime} (inside : entry.spans timestamp = true) :
    ∃ version, LastAt vlob.data timestamp number version ∧
      remote.Accepts workspaceId entryId number version entry.manifest := by
  obtain ⟨version, -, -, accepted, dates⟩ := sound
  unfold CacheEntry.spans at inside
  split at inside
  · next early late isEarly isLate =>
    obtain ⟨since, until_⟩ := of_decide_eq_true inside
    exact ⟨version, (dates early (.inl isEarly)).between (dates late (.inr isLate)) since until_, accepted⟩
  · cases inside

theorem CacheEntry.extend_manifest (entry : CacheEntry γ) (timestamp : DateTime)
    (manifest : RemoteManifest γ) : (entry.extend timestamp manifest).manifest = manifest ∨
      (entry.extend timestamp manifest).manifest = entry.manifest := by
  unfold extend
  grind

theorem CacheEntry.extend_dates (entry : CacheEntry γ) {timestamp date : DateTime}
    (is : (entry.extend timestamp manifest).early = some date ∨
      (entry.extend timestamp manifest).late = some date) :
    date = timestamp ∨ entry.early = some date ∨ entry.late = some date := by
  unfold extend at is
  grind

/-- A manifest that was returned for one more date. -/
theorem CacheEntry.Sound.extend (sound : entry.Sound remote workspaceId entryId vlob number)
    {timestamp : DateTime} {version : VlobVersion (ManifestBlob γ)}
    (last : LastAt vlob.data timestamp number version)
    (accepted : remote.Accepts workspaceId entryId number version manifest) :
    (entry.extend timestamp manifest).Sound remote workspaceId entryId vlob number := by
  obtain ⟨same, positive, stored, before, dates⟩ := sound
  cases stored.symm.trans last.2.1
  refine ⟨version, positive, stored, ?_, fun date is => ?_⟩
  · rcases entry.extend_manifest timestamp manifest with same | same <;> rw [same]
    exacts [accepted, before]
  · rcases entry.extend_dates is with rfl | given
    · exact last
    · exact dates date given

theorem CacheEntry.Sound.crosses_eq_false {earlier later : CacheEntry γ} {first second : ℕ}
    (before : earlier.Sound remote workspaceId entryId vlob first)
    (after : later.Sound remote workspaceId entryId vlob second) (less : first < second) :
    ManifestCache.crosses (some earlier) (some later) = false := by
  obtain ⟨old, -, -, -, oldDates⟩ := before
  obtain ⟨new, -, -, -, newDates⟩ := after
  unfold ManifestCache.crosses
  split
  · next late early isLate isEarly =>
    apply decide_eq_false
    intro crossed
    have backwards := (newDates early (.inl isEarly)).mono (oldDates late (.inr isLate)) crossed.le
    omega
  · rfl

/-- The dates of two versions never cross, so those of neighbours do not. -/
theorem isInconsistent_eq_false {cacheForId : Dict ℕ (CacheEntry γ)}
    (sound : SoundVersions remote workspaceId entryId vlob cacheForId)
    (cached : number ∈ cacheForId.keys) : ManifestCache.isInconsistent cacheForId number = false := by
  have apart (first second : ℕ) (less : first < second) :
      ManifestCache.crosses (cacheForId.get? first) (cacheForId.get? second) = false := by
    cases before : cacheForId.get? first with
    | none => rfl
    | some earlier =>
      cases after : cacheForId.get? second with
      | none => cases late : earlier.late <;> simp [ManifestCache.crosses]
      | some later => exact (sound first earlier before).crosses_eq_false (sound second later after) less
  unfold ManifestCache.isInconsistent
  set keys := cacheForId.keys.sortedBy id with sortedKeys
  have inside : keys.idxOf number < keys.length :=
    List.idxOf_lt_length_of_mem ((List.mem_sortedBy id).mpr cached)
  have here : keys[keys.idxOf number] = number := List.getElem_idxOf inside
  have strict := List.pairwise_iff_getElem.mp (List.sortedBy_pairwise_lt cacheForId.nodup_keys)
  rw [← sortedKeys] at strict
  rw [Bool.or_eq_false_iff, Bool.and_eq_false_imp, Bool.and_eq_false_imp]
  constructor
  · intro later
    have later := of_decide_eq_true later
    have before := strict (keys.idxOf number - 1) (keys.idxOf number) (by omega) inside (by omega)
    rw [here] at before
    beta_reduce
    rw [List.getElem?_eq_getElem (by omega), Option.bind_some]
    exact apart _ _ before
  · intro earlier
    have bound : keys.idxOf number + 1 < keys.length := by
      have := of_decide_eq_true earlier
      omega
    have after := strict (keys.idxOf number) (keys.idxOf number + 1) inside bound (by omega)
    rw [here] at after
    beta_reduce
    rw [List.getElem?_eq_getElem bound, Option.bind_some]
    exact apart _ _ after

theorem SoundVersions.insert {cacheForId : Dict ℕ (CacheEntry γ)}
    (sound : SoundVersions remote workspaceId entryId vlob cacheForId)
    (fits : entry.Sound remote workspaceId entryId vlob number) :
    SoundVersions remote workspaceId entryId vlob (cacheForId.insert number entry) := by
  intro other cached found
  rw [Dict.get?_insert] at found
  split at found
  · next same =>
    cases found
    exact same ▸ fits
  · exact sound other cached found

/-- A version that the backend has just returned, for a date or for none. -/
theorem SoundVersions.updateEntries {cacheForId : Dict ℕ (CacheEntry γ)}
    (sound : SoundVersions remote workspaceId entryId vlob cacheForId)
    {version : VlobVersion (ManifestBlob γ)} {timestamp : Option DateTime} (positive : 1 ≤ number)
    (stored : vlob.data[number - 1]? = some version)
    (accepted : remote.Accepts workspaceId entryId number version manifest)
    (dated : ∀ date ∈ timestamp, LastAt vlob.data date number version) :
    SoundVersions remote workspaceId entryId vlob
        (ManifestCache.updateEntries cacheForId manifest timestamp) ∧
      manifest.version ∈ (ManifestCache.updateEntries cacheForId manifest timestamp).keys := by
  rw [Dict.mem_keys_iff]
  unfold ManifestCache.updateEntries
  rw [accepted.header.2]
  split
  · next absent =>
    exact ⟨sound.insert ⟨version, positive, stored, accepted, fun date is => dated date (by simpa using is)⟩,
      _, by rw [Dict.get?_insert, if_pos rfl]⟩
  · next cached date found =>
    exact ⟨sound.insert ((sound number cached found).extend (dated date rfl) accepted),
      _, by rw [Dict.get?_insert, if_pos rfl]⟩
  · next cached found => exact ⟨sound, cached, found⟩

namespace ManifestCache

variable {cache : ManifestCache γ}

theorem find?_of_get_eq_ok {version : Option ℕ} {timestamp : Option DateTime}
    (found : cache.get entryId version timestamp = .ok manifest) :
    ∃ entry, cache.find? entryId version timestamp = some entry ∧ entry.manifest = manifest := by
  unfold get at found
  split at found
  · next entry is => exact ⟨entry, is, Except.ok.inj found⟩
  · cases found

/-- What is found in the cache is what the backend would serve. -/
theorem Sound.find? (sound : cache.Sound remote workspaceId)
    (exclusive : request.version = none ∨ request.timestamp = none)
    (found : cache.find? request.entryId request.version request.timestamp = some entry) :
    ∃ number version, remote.vlobRead request.entryId request.version request.timestamp =
        .ok (number, version) ∧ request.version ∈ [none, some number] ∧
      remote.Accepts workspaceId request.entryId number version entry.manifest := by
  obtain ⟨cacheForId, cached, chosen⟩ := Option.bind_eq_some_iff.mp found
  obtain ⟨vlob, readable, versions⟩ := sound request.entryId cacheForId cached
  split at chosen
  · next number given =>
    have asked : request.version = some number := Option.eq_some_of_filter_eq_some given
    have undated : request.timestamp = none := exclusive.resolve_left (by simp [asked])
    obtain ⟨version, positive, stored, accepted, -⟩ := versions number entry chosen
    rw [asked, undated]
    exact ⟨number, version, Remote.vlobRead_version_iff.mpr ⟨positive, vlob, readable, stored⟩, by simp,
      accepted⟩
  · next timestamp _ dated =>
    have unasked : request.version = none := exclusive.resolve_right (by simp [dated])
    obtain ⟨number, is⟩ := Dict.mem_values_iff.mp (List.mem_of_find?_eq_some chosen)
    have inside : entry.spans timestamp = true := by simpa using List.find?_some chosen
    obtain ⟨version, last, accepted⟩ := (versions number entry is).spans inside
    rw [unasked, dated]
    exact ⟨number, version, Remote.vlobRead_timestamp_iff.mpr ⟨vlob, readable, last⟩, by simp, accepted⟩
  · cases chosen

theorem Sound.get_eq_ok (sound : cache.Sound remote workspaceId) (plain : request.Plain remote)
    (found : cache.get request.entryId request.version request.timestamp = .ok manifest) :
    remote.outcome workspaceId request = .ok manifest := by
  obtain ⟨entry, is, rfl⟩ := find?_of_get_eq_ok found
  obtain ⟨number, version, served, asked, accepted⟩ := sound.find? plain.1 is
  refine Remote.outcome_eq_ok_iff.mpr ⟨number, version, served, asked, ?_, accepted⟩
  cases given : request.expectedBackendTimestamp with
  | none => simp
  | some expected => simp [plain.2 expected given number version served]

/-- A manifest that the backend has just served contradicts nothing that is cached. -/
theorem Sound.update (sound : cache.Sound remote workspaceId) (plain : request.Plain remote)
    (loaded : remote.outcome workspaceId request = .ok manifest) :
    (cache.update manifest request.timestamp).1 = .ok () ∧
      (cache.update manifest request.timestamp).2.Sound remote workspaceId := by
  obtain ⟨number, version, served, -, -, accepted⟩ := Remote.outcome_eq_ok_iff.mp loaded
  obtain ⟨vlob, readable, positive, stored⟩ := Remote.readable_of_vlobRead served
  have dated : ∀ date ∈ request.timestamp, LastAt vlob.data date number version := by
    intro date given
    rw [plain.1.resolve_right (by simp [Option.mem_def.mp given]), Option.mem_def.mp given] at served
    obtain ⟨same, readable', last⟩ := Remote.vlobRead_timestamp_iff.mp served
    cases readable.unique readable'
    exact last
  have before : SoundVersions remote workspaceId request.entryId vlob
      ((cache.entries.get? request.entryId).getD ∅) := by
    cases cached : cache.entries.get? request.entryId with
    | none => exact fun number entry found => by cases found
    | some cacheForId =>
      obtain ⟨same, readable', versions⟩ := sound request.entryId cacheForId cached
      cases readable.unique readable'
      exact versions
  obtain ⟨after, kept⟩ := before.updateEntries positive stored accepted dated
  unfold ManifestCache.update
  dsimp only
  rw [accepted.header.1]
  refine ⟨by rw [isInconsistent_eq_false after kept]; rfl, fun entryId cacheForId found => ?_⟩
  rw [Dict.get?_insert] at found
  split at found
  · next same =>
    subst same
    cases found
    exact ⟨vlob, readable, after⟩
  · exact sound entryId cacheForId found

/-- One load: the answer is that of the backend, and the cache stays sound. -/
theorem Sound.load (sound : cache.Sound remote loader.workspaceId) (upToDate : remote.UpToDate loader)
    (plain : request.Plain remote) :
    (cache.load remote loader request).1.map Prod.fst =
        (remote.loadManifest loader request).1.mapError .fs ∧
      (cache.load remote loader request).2.1.Sound remote loader.workspaceId ∧
      remote.UpToDate (cache.load remote loader request).2.2 ∧
      (cache.load remote loader request).2.2.workspaceId = loader.workspaceId := by
  obtain ⟨same, upToDate', sameWorkspace⟩ := Remote.loadManifest_eq_outcome upToDate plain.1
  unfold ManifestCache.load
  cases found : cache.get request.entryId request.version request.timestamp with
  | ok manifest =>
    rw [same, sound.get_eq_ok plain found]
    exact ⟨rfl, sound, upToDate, rfl⟩
  | error _ =>
    rcases direct : remote.loadManifest loader request with ⟨outcome, after⟩
    rw [direct] at same upToDate' sameWorkspace
    dsimp only at same upToDate' sameWorkspace ⊢
    cases outcome with
    | error error => exact ⟨rfl, sound, upToDate', sameWorkspace⟩
    | ok manifest =>
      obtain ⟨accepted, sound'⟩ := sound.update plain same.symm
      refine ⟨?_, sound', upToDate', sameWorkspace⟩
      dsimp only
      rw [accepted]
      rfl

theorem sound_afterLoads (upToDate : remote.UpToDate loader) (requests : List LoadRequest)
    (plain : ∀ request ∈ requests, request.Plain remote) :
    (afterLoads remote loader requests).1.Sound remote loader.workspaceId ∧
      remote.UpToDate (afterLoads remote loader requests).2 ∧
      (afterLoads remote loader requests).2.workspaceId = loader.workspaceId := by
  induction requests using List.reverseRecOn with
  | nil => exact ⟨fun entryId cacheForId found => (by cases found), upToDate, rfl⟩
  | append_singleton earlier request ih =>
    obtain ⟨sound, upToDate', same⟩ := ih fun other member => plain other (List.mem_append_left _ member)
    rw [← same] at sound ⊢
    rw [afterLoads, List.foldl_append]
    exact (sound.load upToDate' (plain request (by simp))).2

/-- After any loads, in any order, a load through the cache answers as one that goes past it does. It never
finds its dates crossed. -/
theorem manifest_cache_transparent (remote : Remote γ) (loader : RemoteLoader)
    (upToDate : remote.UpToDate loader) (earlier : List LoadRequest)
    (earlierPlain : ∀ request ∈ earlier, request.Plain remote)
    (request : LoadRequest) (plain : request.Plain remote) :
    let state := afterLoads remote loader earlier
    (state.1.load remote state.2 request).1.map Prod.fst =
        (remote.loadManifest state.2 request).1.mapError .fs ∧
      (state.1.load remote state.2 request).1 ≠ .error .inconsistent := by
  intro state
  obtain ⟨sound, upToDate', same⟩ := sound_afterLoads upToDate earlier earlierPlain
  rw [← same] at sound
  obtain ⟨direct, -⟩ : (state.1.load remote state.2 request).1.map Prod.fst = _ ∧ _ :=
    sound.load upToDate' plain
  refine ⟨direct, fun crossed => ?_⟩
  rw [crossed] at direct
  cases outcome : (remote.loadManifest state.2 request).1 with
  | ok manifest =>
    rw [outcome] at direct
    cases direct
  | error error =>
    rw [outcome] at direct
    cases direct

end ManifestCache

end Cache

section Example

private def grantAlice : Signed RealmRoleCertificateContent :=
  ⟨⟨0⟩, some ⟨⟨"alice", "dev"⟩, 10, 1, "alice", some .owner⟩⟩

private def aliceVersion (number : ℕ) (date : DateTime) : VlobVersion (ManifestBlob Unit) :=
  ⟨⟨⟨5⟩, ⟨⟨0⟩, some ⟨⟨"alice", "dev"⟩, date, 7, number, ()⟩⟩⟩, ⟨"alice", "dev"⟩, date⟩

private def aliceRealm : Realm where
  grantedRoles := [⟨grantAlice, 1, "alice", some .owner, ⟨"alice", "dev"⟩, 10⟩]

/-- An entry with three versions, the first two of one date. -/
private def datedTwice : Remote Unit where
  directory := fun _ => some ⟨0⟩
  ctx := ⟨"org", ⟨"alice", "dev"⟩, .standard, ⟨0⟩⟩
  entry := ⟨⟨5⟩, 1⟩
  realms := ⟨.ofList [(("org", 1), aliceRealm)]⟩
  vlobs := ⟨.ofList [(("org", 7), ⟨1, [aliceVersion 1 20, aliceVersion 2 20, aliceVersion 3 30]⟩)], ∅⟩

private def freshLoader : RemoteLoader := ⟨⟨"alice", "dev"⟩, 1, none⟩

/-- By version, by date before and after the date that is asked for last, and the current version. -/
private def earlierLoads : List LoadRequest :=
  [⟨7, some 1, none, none, 100⟩, ⟨7, none, some 29, none, 101⟩, ⟨7, none, none, none, 102⟩,
    ⟨7, none, some 20, none, 103⟩]

private def loadBetween : LoadRequest := ⟨7, none, some 25, none, 104⟩

private theorem plain_of_unexpected {request : LoadRequest}
    (exclusive : request.version = none ∨ request.timestamp = none)
    (unexpected : request.expectedBackendTimestamp = none) : request.Plain datedTwice :=
  ⟨exclusive, fun expected given => by cases unexpected.symm.trans given⟩

theorem manifest_cache_transparent_between_dates :
    let state := ManifestCache.afterLoads datedTwice freshLoader earlierLoads
    (state.1.load datedTwice state.2 loadBetween).1 = .ok (⟨⟨"alice", "dev"⟩, 20, 7, 2, ()⟩, false) ∧
      (state.1.load datedTwice state.2 loadBetween).1.map Prod.fst =
        (datedTwice.loadManifest state.2 loadBetween).1.mapError .fs := by
  refine ⟨by decide +kernel, (ManifestCache.manifest_cache_transparent datedTwice freshLoader ?_ _ ?_ _ ?_).1⟩
  · intro certifs date filled
    cases filled
  · intro request member
    simp only [earlierLoads, List.mem_cons, List.not_mem_nil, or_false] at member
    rcases member with rfl | rfl | rfl | rfl
    all_goals exact plain_of_unexpected (by simp) rfl
  · exact plain_of_unexpected (.inl rfl) rfl

end Example

end Guardata
