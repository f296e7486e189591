import Guardata.Model.RemoteLoader

/-! # The manifest cache of the version lister

A manifest is cached under its version, with the earliest and the latest date for which a load has
returned it. A load by version looks under the version, a load by date takes the first version whose
dates lie around it, and a load of the current version always goes to the backend.
-/

namespace Guardata

variable {γ : Type}

/-- The backend as one client reaches it, and what the client knows of its organization and workspace. -/
structure Remote (γ : Type) where
  directory : DeviceDirectory
  ctx : ClientContext
  entry : WorkspaceEntry
  realms : MemoryRealmComponent
  vlobs : MemoryVlobComponent (ManifestBlob γ)

/-- The arguments of a load, and the client's clock. -/
structure LoadRequest where
  entryId : UUID
  version : Option ℕ := none
  timestamp : Option DateTime := none
  expectedBackendTimestamp : Option DateTime := none
  now : DateTime := 0

namespace Remote

def vlobRead (remote : Remote γ) (entryId : UUID) (version : Option ℕ) (timestamp : Option DateTime) :
    Except VlobRefusal (ℕ × VlobVersion (ManifestBlob γ)) :=
  remote.vlobs.apiVlobRead remote.realms remote.ctx remote.entry.encryptionRevision entryId version timestamp

def roleCertificates (remote : Remote γ) (workspaceId : UUID) :
    Except RealmRefusal (List (Signed RealmRoleCertificateContent)) :=
  remote.realms.apiRealmGetRoleCertificates remote.ctx workspaceId none

/-- `load_manifest` against this backend. -/
def loadManifest (remote : Remote γ) (loader : RemoteLoader) (request : LoadRequest) :
    Except FSError (RemoteManifest γ) × RemoteLoader :=
  loader.loadManifest remote.directory remote.entry request.entryId request.version request.timestamp
    request.expectedBackendTimestamp (remote.vlobRead request.entryId)
    (remote.roleCertificates loader.workspaceId) request.now

end Remote

/-- A manifest with the earliest and the latest date for which its version has been returned. -/
structure CacheEntry (γ : Type) where
  early : Option DateTime
  late : Option DateTime
  manifest : RemoteManifest γ

namespace CacheEntry

def spans (entry : CacheEntry γ) (timestamp : DateTime) : Bool :=
  match entry.early, entry.late with
  | some early, some late => early ≤ timestamp ∧ timestamp ≤ late
  | _, _ => false

/-- The manifest has been returned for one more date. -/
def extend (entry : CacheEntry γ) (timestamp : DateTime) (manifest : RemoteManifest γ) : CacheEntry γ :=
  let entry := if entry.late.all (· < timestamp) then ⟨entry.early, some timestamp, manifest⟩ else entry
  if entry.early.all (timestamp < ·) then ⟨some timestamp, entry.late, manifest⟩ else entry

end CacheEntry

inductive ManifestCacheError where
  /-- `ManifestCacheNotFound`. -/
  | notFound
  /-- `ManifestCacheInconsistent`. -/
  | inconsistent
  | fs (error : FSError)
deriving DecidableEq

/-- `_manifest_cache`: by entry and version. -/
structure ManifestCache (γ : Type) where
  entries : Dict UUID (Dict ℕ (CacheEntry γ)) := ∅

namespace ManifestCache

/-- The entry that `get` finds. -/
def find? (cache : ManifestCache γ) (entryId : UUID) (version : Option ℕ) (timestamp : Option DateTime) :
    Option (CacheEntry γ) := do
  let entries ← cache.entries.get? entryId
  -- The version number 0 counts as none.
  match version.filter (0 < ·), timestamp with
  | some version, _ => entries.get? version
  | none, some timestamp => entries.values.find? (·.spans timestamp)
  | none, none => none

def get (cache : ManifestCache γ) (entryId : UUID) (version : Option ℕ) (timestamp : Option DateTime) :
    Except ManifestCacheError (RemoteManifest γ) :=
  match cache.find? entryId version timestamp with
  | some entry => .ok entry.manifest
  | none => .error .notFound

/-- The dates of two neighbours cross. -/
def crosses (before after : Option (CacheEntry γ)) : Bool :=
  match before.bind CacheEntry.late, after.bind CacheEntry.early with
  | some late, some early => early < late
  | _, _ => false

/-- The dates of a version cross those of the cached version before or after it. -/
def isInconsistent (cacheForId : Dict ℕ (CacheEntry γ)) (version : ℕ) : Bool :=
  let keys := cacheForId.keys.sortedBy id
  let index := keys.idxOf version
  let entryAt (index : ℕ) := keys[index]?.bind cacheForId.get?
  (0 < index && crosses (entryAt (index - 1)) (cacheForId.get? version)) ||
    (index < keys.length - 1 && crosses (cacheForId.get? version) (entryAt (index + 1)))

/-- The versions of an entry after the manifest was returned for a date, or for none. -/
def updateEntries (cacheForId : Dict ℕ (CacheEntry γ)) (manifest : RemoteManifest γ)
    (timestamp : Option DateTime) : Dict ℕ (CacheEntry γ) :=
  match cacheForId.get? manifest.version, timestamp with
  | none, timestamp => cacheForId.insert manifest.version ⟨timestamp, timestamp, manifest⟩
  | some entry, some timestamp => cacheForId.insert manifest.version (entry.extend timestamp manifest)
  | some _, none => cacheForId

/-- `update`; the cache has changed also when it raises. -/
def update (cache : ManifestCache γ) (manifest : RemoteManifest γ) (timestamp : Option DateTime) :
    Except ManifestCacheError Unit × ManifestCache γ :=
  let cacheForId := updateEntries ((cache.entries.get? manifest.id).getD ∅) manifest timestamp
  (if isInconsistent cacheForId manifest.version then .error .inconsistent else .ok (),
    { entries := cache.entries.insert manifest.id cacheForId })

/-- `load`: the manifest and whether it was downloaded, the cache and the remote loader. -/
def load (cache : ManifestCache γ) (remote : Remote γ) (loader : RemoteLoader) (request : LoadRequest) :
    Except ManifestCacheError (RemoteManifest γ × Bool) × ManifestCache γ × RemoteLoader :=
  match cache.get request.entryId request.version request.timestamp with
  | .ok manifest => (.ok (manifest, false), cache, loader)
  | .error _ =>
      match remote.loadManifest loader request with
      | (.error error, loader) => (.error (.fs error), cache, loader)
      | (.ok manifest, loader) =>
          let (outcome, cache) := cache.update manifest request.timestamp
          (outcome.map fun _ => (manifest, true), cache, loader)

/-- An empty cache and its remote loader after some loads. -/
def afterLoads (remote : Remote γ) (loader : RemoteLoader) (requests : List LoadRequest) :
    ManifestCache γ × RemoteLoader :=
  requests.foldl (fun state request => (state.1.load remote state.2 request).2) ({}, loader)

end ManifestCache

end Guardata
