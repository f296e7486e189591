import Mathlib.Data.Finset.Basic
import Mathlib.Data.Finset.Dedup
import Guardata.Machine.Coroutine
import Guardata.Model.FileManifest
import Guardata.Model.SignedData

/-! # The storage of local manifests

The manifests of a workspace are kept in a table of the local database and in a cache before it. The ids in
`cacheAheadOfLocaldb` are those of the manifests that the cache holds and the table does not yet, with the
chunks to be deleted when they are written. A row also tells the last version that the backend is known to
have.

Every `await` of the source is an atomic action of a coroutine: a cursor runs all its statements in one
action, and its commit may suspend the call once more. The pattern filter, and the errors of the database
itself, are left out.
-/

namespace Guardata

open Machine

/-- What the storage reads of a manifest. -/
class BaseLocalManifest (μ : Type) where
  needSync : μ → Bool
  baseVersion : μ → ℕ

instance : BaseLocalManifest LocalFileManifest where
  needSync manifest := manifest.needSync
  baseVersion manifest := manifest.base.version

/-- A row of the table `vlobs`. -/
structure VlobRow (μ : Type) where
  blob : Ciphered μ
  needSync : Bool
  baseVersion : ℕ
  remoteVersion : ℕ
deriving DecidableEq, Repr

structure LocalDatabase (μ : Type) where
  vlobs : Dict EntryID (VlobRow μ) := ∅
  chunks : Finset ChunkID := ∅
  realmCheckpoint : Option ℕ := none

structure ManifestStorage (μ : Type) where
  /-- `device.local_symkey` -/
  localSymkey : SecretKey
  localdb : LocalDatabase μ := {}
  cache : Dict EntryID μ := ∅
  cacheAheadOfLocaldb : Dict EntryID (Finset ChunkID) := ∅

inductive StorageError where
  | keyError
  | localMiss (id : EntryID)
  | data (error : DataError)
  /-- More manifests had to be written than were waiting. -/
  | flushBound
deriving DecidableEq

namespace LocalDatabase

variable {μ : Type} (localdb : LocalDatabase μ)

/-- `UPDATE vlobs SET remote_version = ? WHERE vlob_id = ?` -/
def updateRemoteVersion (entryId : EntryID) (version : ℕ) : LocalDatabase μ :=
  match localdb.vlobs.get? entryId with
  | none => localdb
  | some row =>
    { localdb with vlobs := localdb.vlobs.insert entryId { row with remoteVersion := version } }

def updateRealmCheckpoint (newCheckpoint : ℕ) (changedVlobs : Dict EntryID ℕ) : LocalDatabase μ :=
  { changedVlobs.items.foldl
    (fun localdb change => localdb.updateRemoteVersion change.1 change.2) localdb with
    realmCheckpoint := some newCheckpoint }

/-- `INSERT OR REPLACE INTO vlobs`: the last known version of the backend never goes back. -/
def insertOrReplace [BaseLocalManifest μ] (entryId : EntryID) (ciphered : Ciphered μ) (manifest : μ) :
    LocalDatabase μ :=
  let remoteVersion := ((localdb.vlobs.get? entryId).map (·.remoteVersion)).getD 0
  { localdb with
    vlobs := localdb.vlobs.insert entryId
      { blob := ciphered
        needSync := BaseLocalManifest.needSync manifest
        baseVersion := BaseLocalManifest.baseVersion manifest
        remoteVersion := max (BaseLocalManifest.baseVersion manifest) remoteVersion } }

/-- The entries with local changes, and those with remote changes, as the table has them. -/
def needSyncEntries : Finset EntryID × Finset EntryID :=
  let rows := localdb.vlobs.items.filter fun (_, row) => row.needSync || row.baseVersion ≠ row.remoteVersion
  (((rows.filter fun (_, row) => row.needSync).map Prod.fst).toFinset,
    ((rows.filter fun (_, row) => row.baseVersion ≠ row.remoteVersion).map Prod.fst).toFinset)

end LocalDatabase

namespace ManifestStorage

open Coroutine

variable {μ : Type} [BaseLocalManifest μ]

abbrev Call (μ α : Type) := Coroutine StorageError (ManifestStorage μ) α

/-- `open_cursor(commit=True)` -/
def openCursor {α : Type} (statements : ManifestStorage μ → Except StorageError (α × ManifestStorage μ)) :
    Call μ α := do
  let value ← transact statements
  observe fun _ => ()
  return value

def getRealmCheckpoint : Call μ ℕ :=
  openCursor fun storage => .ok (storage.localdb.realmCheckpoint.getD 0, storage)

def updateRealmCheckpoint (newCheckpoint : ℕ) (changedVlobs : Dict EntryID ℕ) : Call μ Unit :=
  openCursor fun storage =>
    .ok ((), { storage with localdb := storage.localdb.updateRealmCheckpoint newCheckpoint changedVlobs })

/-- The entries of the cache that need a sync. -/
def cachedChanges (storage : ManifestStorage μ) : Finset EntryID :=
  ((storage.cache.items.filter fun (_, manifest) =>
    BaseLocalManifest.needSync manifest).map Prod.fst).toFinset

def getNeedSyncEntries : Call μ (Finset EntryID × Finset EntryID) := do
  let localChanges ← observe cachedChanges
  openCursor fun storage =>
    let stored := storage.localdb.needSyncEntries
    .ok ((localChanges ∪ stored.1, stored.2), storage)

/-- What follows the query of `get_manifest`: fill the cache, unless it was filled meanwhile. -/
def fillCache (entryId : EntryID) (blob : Ciphered μ) (storage : ManifestStorage μ) :
    Except StorageError (μ × ManifestStorage μ) :=
  match storage.cache.get? entryId with
  | some manifest => .ok (manifest, storage)
  | none => do
    let manifest ← (blob.decrypt storage.localSymkey).mapError .data
    return (manifest, { storage with cache := storage.cache.insert entryId manifest })

def getManifest (entryId : EntryID) : Call μ μ := do
  match ← observe fun storage => storage.cache.get? entryId with
  | some manifest => return manifest
  | none =>
    match ← openCursor fun storage => .ok ((storage.localdb.vlobs.get? entryId).map (·.blob), storage) with
    | none => .raise (.localMiss entryId)
    | some blob => transact (fillCache entryId blob)

/-- The statements of `_ensure_manifest_persistent`. -/
def writeManifest (entryId : EntryID) (storage : ManifestStorage μ) :
    Except StorageError (Unit × ManifestStorage μ) :=
  match storage.cacheAheadOfLocaldb.get? entryId with
  | none => .ok ((), storage)
  | some removedIds =>
    match storage.cache.get? entryId with
    | none => .error .keyError
    | some manifest =>
      let ciphered : Ciphered μ := ⟨storage.localSymkey, manifest⟩
      let localdb := storage.localdb.insertOrReplace entryId ciphered manifest
      .ok ((), { storage with
        localdb := { localdb with chunks := localdb.chunks \ removedIds }
        cacheAheadOfLocaldb := storage.cacheAheadOfLocaldb.erase entryId })

/-- `_ensure_manifest_persistent` -/
def ensurePersistent (entryId : EntryID) : Call μ Unit := openCursor (writeManifest entryId)

def ensureManifestPersistent (entryId : EntryID) : Call μ Unit := do
  if ← observe fun storage => storage.cacheAheadOfLocaldb.contains entryId then ensurePersistent entryId
  else return ()

/-- What `set_manifest` does before it writes to the database. -/
def cacheManifest (entryId : EntryID) (manifest : μ) (removedIds : Finset ChunkID)
    (storage : ManifestStorage μ) : ManifestStorage μ :=
  let waiting := (storage.cacheAheadOfLocaldb.get? entryId).getD ∅
  { storage with
    cache := storage.cache.insert entryId manifest
    cacheAheadOfLocaldb := storage.cacheAheadOfLocaldb.insert entryId (waiting ∪ removedIds) }

def setManifest (entryId : EntryID) (manifest : μ) (cacheOnly : Bool) (removedIds : Finset ChunkID) :
    Call μ Unit := do
  update (cacheManifest entryId manifest removedIds)
  if cacheOnly then return () else ensurePersistent entryId

/-- `_flush_cache_ahead_of_persistance`, for at most as many rounds as given. -/
def flushCacheAheadOfPersistance : ℕ → Call μ Unit
  | 0 => do
    if (← observe fun storage => storage.cacheAheadOfLocaldb.keys) = [] then return ()
    else .raise .flushBound
  | rounds + 1 => do
    match ← observe fun storage => storage.cacheAheadOfLocaldb.keys with
    | [] => return ()
    | entryId :: _ =>
      ensurePersistent entryId
      flushCacheAheadOfPersistance rounds

def clearMemoryCache (flush : Bool) : Call μ Unit := do
  let waiting ← observe fun storage => storage.cacheAheadOfLocaldb.keys.length
  if flush then flushCacheAheadOfPersistance waiting else return ()
  update fun storage => { storage with cacheAheadOfLocaldb := ∅, cache := ∅ }

end ManifestStorage

/-- A call on the storage. -/
inductive ManifestCall (μ : Type) where
  | setManifest (entryId : EntryID) (manifest : μ) (cacheOnly : Bool) (removedIds : Finset ChunkID)
  | ensureManifestPersistent (entryId : EntryID)
  /-- `clear_memory_cache(flush=True)` -/
  | clearMemoryCache
  | getManifest (entryId : EntryID)
  | updateRealmCheckpoint (newCheckpoint : ℕ) (changedVlobs : Dict EntryID ℕ)
  | getNeedSyncEntries

namespace ManifestStorage

variable {μ : Type} [BaseLocalManifest μ]

/-- The storage after a call that runs alone, whatever it answers or raises. -/
def step? (storage : ManifestStorage μ) : ManifestCall μ → Option (ManifestStorage μ)
  | .setManifest entryId manifest cacheOnly removedIds =>
      ((setManifest entryId manifest cacheOnly removedIds).run storage).map Prod.snd
  | .ensureManifestPersistent entryId => ((ensureManifestPersistent entryId).run storage).map Prod.snd
  | .clearMemoryCache => ((clearMemoryCache true).run storage).map Prod.snd
  | .getManifest entryId => ((getManifest entryId).run storage).map Prod.snd
  | .updateRealmCheckpoint newCheckpoint changedVlobs =>
      ((updateRealmCheckpoint newCheckpoint changedVlobs).run storage).map Prod.snd
  | .getNeedSyncEntries => (getNeedSyncEntries.run storage).map Prod.snd

end ManifestStorage

end Guardata
