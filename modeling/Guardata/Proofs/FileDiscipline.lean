import Guardata.Machine.Discipline
import Guardata.Model.FileSync
import Guardata.Proofs.FileAccess
import Guardata.Proofs.FileTransactions

/-! # What the tasks on a file rely on

At every moment each block of the local manifest is in the chunk storage or on the backend, and what waits
for its deletion is no chunk of the manifest, unless the backend has it. A task that holds the entry lock
finds the manifest and the waiting chunks as it left them; the tasks without the lock only give up a chunk
once the backend has its block.
-/

namespace Guardata

open Machine Coroutine

/-- The backend has the block. -/
def Backend.Has (backend : Backend) (id : BlockID) : Prop := ∃ ciphered, backend.blocks id = some ciphered

/-- The block can be uploaded, or has been. -/
def World.Available (world : World) (id : BlockID) : Prop :=
  (∃ data, world.storage.chunkStorage id = some data) ∨ world.backend.Has id

/-- Its blocks are laid out as a file is, and an access has the id of its chunk. -/
structure LocalFileManifest.WellFormed (manifest : LocalFileManifest) (nextId : ℕ) : Prop where
  positive : 0 < manifest.blocksize
  layout : ∃ store, FileLayout store manifest.blocksize manifest.size manifest.blocks
  drawn : ∀ id ∈ fileIds manifest.blocks, id < nextId
  named : ∀ chunk ∈ manifest.blocks.flatten, ∀ access, chunk.access = some access → access.id = chunk.id

def RemoteFileManifest.WellFormed (remote : RemoteFileManifest) (nextId : ℕ) : Prop :=
  (LocalFileManifest.fromRemote remote).WellFormed nextId

/-- Every block that the manifest refers to is on the backend. -/
def RemoteFileManifest.Complete (remote : RemoteFileManifest) (backend : Backend) : Prop :=
  ∀ access ∈ remote.blocks, backend.Has access.id

/-- What holds between any two actions. -/
structure World.Consistent (world : World) : Prop where
  clean : ∀ id data, world.storage.blockStorage id = some data → world.backend.Has id
  manifest : world.storage.manifest.WellFormed world.nextId
  available : ∀ chunk ∈ world.storage.manifest.blocks.flatten, ∀ access, chunk.access = some access →
    world.Available chunk.id
  pending : ∀ id ∈ world.storage.pending,
    id < world.nextId ∧ (id ∈ fileIds world.storage.manifest.blocks → world.backend.Has id)
  versions : ∀ remote ∈ world.backend.versions,
    remote.WellFormed world.nextId ∧ remote.Complete world.backend

theorem LocalFileManifest.WellFormed.mono {manifest : LocalFileManifest} {nextId later : ℕ}
    (wellFormed : manifest.WellFormed nextId) (more : nextId ≤ later) : manifest.WellFormed later :=
  ⟨wellFormed.positive, wellFormed.layout, fun id member => (wellFormed.drawn id member).trans_le more,
    wellFormed.named⟩

/-- What every action does: no block leaves the backend, and no id is drawn twice. -/
structure World.Grows (world after : World) : Prop where
  has : ∀ id, world.backend.Has id → after.backend.Has id
  drawn : world.nextId ≤ after.nextId

/-- What an action does without the lock. -/
structure World.Spares (world after : World) : Prop extends world.Grows after where
  locked : after.storage.locked = world.storage.locked
  manifest : after.storage.manifest = world.storage.manifest
  pending : after.storage.pending = world.storage.pending
  available : ∀ id, world.Available id → after.Available id

theorem World.Grows.refl (world : World) : world.Grows world := ⟨fun _ => id, le_rfl⟩

theorem World.Grows.trans {first second third : World} (left : first.Grows second)
    (right : second.Grows third) : first.Grows third :=
  ⟨fun id has => right.has id (left.has id has), left.drawn.trans right.drawn⟩

theorem World.Spares.refl (world : World) : world.Spares world :=
  ⟨.refl world, rfl, rfl, rfl, fun _ => id⟩

theorem World.Spares.trans {first second third : World} (left : first.Spares second)
    (right : second.Spares third) : first.Spares third :=
  ⟨left.toGrows.trans right.toGrows, right.locked.trans left.locked, right.manifest.trans left.manifest,
    right.pending.trans left.pending, fun id available => right.available id (left.available id available)⟩

def fileDiscipline : Discipline World where
  locked world := world.storage.locked
  inv := World.Consistent
  grows := World.Grows
  spares := World.Spares
  grows_refl := .refl
  grows_trans := .trans
  spares_refl := .refl
  spares_trans := .trans
  grows_of_spares := World.Spares.toGrows
  locked_of_spares := World.Spares.locked

section Effects

variable {world : World}

/-- An action that changes neither the manifest nor what waits for its deletion. -/
theorem World.Consistent.of_grows (consistent : world.Consistent) {after : World} (grows : world.Grows after)
    (manifest : after.storage.manifest = world.storage.manifest)
    (pending : after.storage.pending = world.storage.pending)
    (versions : after.backend.versions = world.backend.versions)
    (clean : ∀ id data, after.storage.blockStorage id = some data → after.backend.Has id)
    (available : ∀ id, world.Available id → after.Available id) : after.Consistent where
  clean := clean
  manifest := by
    rw [manifest]
    exact consistent.manifest.mono grows.drawn
  available := by
    rw [manifest]
    exact fun chunk member access has => available _ (consistent.available chunk member access has)
  pending := by
    rw [manifest, pending]
    intro id member
    obtain ⟨drawn, known⟩ := consistent.pending id member
    exact ⟨drawn.trans_le grows.drawn, fun inside => grows.has id (known inside)⟩
  versions := by
    rw [versions]
    intro remote member
    obtain ⟨wellFormed, complete⟩ := consistent.versions remote member
    exact ⟨LocalFileManifest.WellFormed.mono wellFormed grows.drawn,
      fun access inside => grows.has _ (complete access inside)⟩

/-- All that can be set as the next manifest. -/
structure World.Cacheable (world : World) (manifest : LocalFileManifest) (removedIds : Finset ChunkID) :
    Prop where
  wellFormed : manifest.WellFormed world.nextId
  available : ∀ chunk ∈ manifest.blocks.flatten, ∀ access, chunk.access = some access →
    world.Available chunk.id
  pending : ∀ id ∈ world.storage.pending ∪ removedIds,
    id < world.nextId ∧ (id ∈ fileIds manifest.blocks → world.backend.Has id)

theorem World.Consistent.cache (consistent : world.Consistent) {manifest : LocalFileManifest}
    {removedIds : Finset ChunkID} (cacheable : world.Cacheable manifest removedIds) :
    (world.updateStorage fun storage => storage.cache manifest removedIds).Consistent :=
  ⟨consistent.clean, cacheable.wellFormed, cacheable.available, cacheable.pending, consistent.versions⟩

theorem World.Consistent.persist (consistent : world.Consistent) :
    (world.updateStorage LocalStorage.persist).Consistent := by
  cases ahead : world.storage.aheadOfLocaldb with
  | none =>
    have same : world.updateStorage LocalStorage.persist = world := by
      simp only [World.updateStorage, LocalStorage.persist, ahead]
    rwa [same]
  | some removedIds =>
    have waiting : world.storage.pending = removedIds := by
      rw [LocalStorage.pending, ahead]
      rfl
    simp only [World.updateStorage, LocalStorage.persist, ahead]
    refine ⟨consistent.clean, consistent.manifest, ?_, ?_, consistent.versions⟩
    · intro chunk member access has
      rcases consistent.available chunk member access has with ⟨data, stored⟩ | known
      · by_cases gone : chunk.id ∈ removedIds
        · have inside : chunk.id ∈ fileIds world.storage.manifest.blocks :=
            mem_chunkIdSet.mpr ⟨chunk, member, rfl⟩
          exact .inr ((consistent.pending _ (waiting ▸ gone)).2 inside)
        · exact .inl ⟨data, (if_neg gone).trans stored⟩
      · exact .inr known
    · intro id member
      cases member

end Effects

section Actions

open Transaction

variable {α : Type} {assume : World → Prop} {holds : Bool} {pre raises : World → Prop}

theorem stays_of_spares {world after : World} (spares : world.Spares after)
    (locked : holds = true → world.storage.locked = true) : fileDiscipline.Stays holds world after := by
  cases holds with
  | true => exact spares.locked.trans (locked rfl)
  | false => exact spares

/-- An update that spares the others, wherever it stands. -/
theorem runs_sparing {change : World → World} {after : Unit → World → Prop}
    (stable : fileDiscipline.Stable holds pre)
    (spares : ∀ now, now.Consistent → pre now → now.Spares (change now))
    (versions : ∀ now, (change now).backend.versions = now.backend.versions)
    (clean : ∀ now, now.Consistent → pre now → ∀ id data,
      (change now).storage.blockStorage id = some data → (change now).backend.Has id)
    (ends : ∀ now, now.Consistent → pre now → after () (change now)) :
    Runs fileDiscipline assume holds pre (update change : Transaction Unit) after raises := by
  refine runs_update stable fun now consistent _ locked given => ?_
  have sparing := spares now consistent given
  exact ⟨consistent.of_grows sparing.toGrows sparing.manifest sparing.pending (versions now)
    (clean now consistent given) sparing.available, sparing.toGrows, stays_of_spares sparing locked,
    ends now consistent given⟩

theorem stable_of_spares (stable : fileDiscipline.Stable holds pre) {world after : World}
    (spares : world.Spares after) (given : pre world) : pre after := by
  cases holds with
  | true => exact stable world after spares given
  | false => exact stable world after spares.toGrows given

theorem runs_setChunk (stable : fileDiscipline.Stable holds pre) (id : ChunkID) (data : Bytes) :
    Runs fileDiscipline assume holds pre (setChunk id data)
      (fun _ world => pre world ∧ world.Available id) raises := by
  have available (now : World) (other : ChunkID) (before : now.Available other) :
      (now.updateStorage fun storage =>
        { storage with chunkStorage := Function.update storage.chunkStorage id (some data) }).Available
          other := by
    rcases before with ⟨old, stored⟩ | known
    · by_cases same : other = id
      · subst same
        exact .inl ⟨data, Function.update_self ..⟩
      · exact .inl ⟨old, (Function.update_of_ne same ..).trans stored⟩
    · exact .inr known
  have spares (now : World) : now.Spares (now.updateStorage fun storage =>
      { storage with chunkStorage := Function.update storage.chunkStorage id (some data) }) :=
    ⟨⟨fun _ known => known, le_rfl⟩, rfl, rfl, rfl, available now⟩
  refine runs_sparing stable (fun now _ _ => spares now) (fun _ => rfl)
    (fun now consistent _ => consistent.clean) fun now _ given => ?_
  exact ⟨stable_of_spares stable (spares now) given, .inl ⟨data, Function.update_self ..⟩⟩

/-- A chunk may be cleared once its block is on the backend. -/
theorem runs_clearChunk (stable : fileDiscipline.Stable holds pre) {id : ChunkID}
    (has : ∀ now, pre now → now.backend.Has id) :
    Runs fileDiscipline assume holds pre (clearChunk id) (fun _ => pre) raises := by
  have spares (now : World) (given : pre now) : now.Spares (now.updateStorage fun storage =>
      { storage with chunkStorage := Function.update storage.chunkStorage id none }) := by
    refine ⟨⟨fun _ known => known, le_rfl⟩, rfl, rfl, rfl, fun other before => ?_⟩
    rcases before with ⟨old, stored⟩ | known
    · by_cases same : other = id
      · exact .inr (same ▸ has now given)
      · exact .inl ⟨old, (Function.update_of_ne same ..).trans stored⟩
    · exact .inr known
  exact runs_sparing stable (fun now _ => spares now) (fun _ => rfl)
    (fun now consistent _ => consistent.clean)
    fun now _ given => stable_of_spares stable (spares now given) given

theorem runs_setCleanBlock (stable : fileDiscipline.Stable holds pre) {id : BlockID}
    (has : ∀ now, pre now → now.backend.Has id) (data : Bytes) :
    Runs fileDiscipline assume holds pre (setCleanBlock id data) (fun _ => pre) raises := by
  have spares (now : World) : now.Spares (now.updateStorage fun storage =>
      { storage with blockStorage := Function.update storage.blockStorage id (some data) }) :=
    ⟨⟨fun _ known => known, le_rfl⟩, rfl, rfl, rfl, fun _ known => known⟩
  refine runs_sparing stable (fun now _ _ => spares now) (fun _ => rfl)
    (fun now consistent given other old stored => ?_)
    fun now _ given => stable_of_spares stable (spares now) given
  by_cases same : other = id
  · exact same ▸ has now given
  · exact consistent.clean other old ((Function.update_of_ne same ..).symm.trans stored)

theorem runs_blockCreate (stable : fileDiscipline.Stable holds pre) (id : BlockID)
    (ciphered : Ciphered Bytes) : Runs fileDiscipline assume holds pre (blockCreate id ciphered)
      (fun _ world => pre world ∧ world.backend.Has id) raises := by
  have grows (now : World) (other : BlockID) (known : now.backend.Has other) : Backend.Has { now.backend with
      blocks := Function.update now.backend.blocks id (some ((now.backend.blocks id).getD ciphered)) }
      other := by
    by_cases same : other = id
    · subst same
      exact ⟨_, Function.update_self ..⟩
    · obtain ⟨stored, found⟩ := known
      exact ⟨stored, (Function.update_of_ne same ..).trans found⟩
  have spares (now : World) : now.Spares { now with backend := { now.backend with
      blocks := Function.update now.backend.blocks id (some ((now.backend.blocks id).getD ciphered)) } } :=
    ⟨⟨grows now, le_rfl⟩, rfl, rfl, rfl, fun other before => before.imp_right (grows now other)⟩
  refine runs_sparing stable (fun now _ _ => spares now) (fun _ => rfl)
    (fun now consistent _ other data stored => grows now other (consistent.clean other data stored))
    fun now _ given => ⟨stable_of_spares stable (spares now) given, _, Function.update_self ..⟩

/-- A change of the open descriptors or the write counts. -/
theorem runs_bookkeeping (stable : fileDiscipline.Stable holds pre) {change : LocalStorage → LocalStorage}
    (manifest : ∀ storage, (change storage).manifest = storage.manifest)
    (ahead : ∀ storage, (change storage).aheadOfLocaldb = storage.aheadOfLocaldb)
    (chunks : ∀ storage, (change storage).chunkStorage = storage.chunkStorage)
    (blocks : ∀ storage, (change storage).blockStorage = storage.blockStorage)
    (locked : ∀ storage, (change storage).locked = storage.locked) :
    Runs fileDiscipline assume holds pre (update fun world => world.updateStorage change : Transaction Unit)
      (fun _ => pre) raises := by
  have spares (now : World) : now.Spares (now.updateStorage change) := by
    refine ⟨⟨fun _ => id, le_rfl⟩, locked _, manifest _, ?_, fun other before => ?_⟩
    · rw [LocalStorage.pending, LocalStorage.pending]
      exact congrArg (Option.getD · ∅) (ahead now.storage)
    · refine before.imp_left ?_
      rintro ⟨data, stored⟩
      exact ⟨data, (congrFun (chunks now.storage) other).trans stored⟩
  refine runs_sparing stable (fun now _ _ => spares now) (fun _ => rfl)
    (fun now consistent _ id data stored => consistent.clean id data ?_)
    fun now _ given => stable_of_spares stable (spares now) given
  exact (congrFun (blocks now.storage) id).symm.trans stored

theorem runs_drawing {compute : ℕ → DateTime → Except FileError (α × ℕ)} {returns : α → World → Prop}
    (stable : fileDiscipline.Stable holds pre)
    (draws : ∀ now value nextId, now.Consistent → pre now →
      compute now.nextId now.clock = .ok (value, nextId) →
      now.nextId ≤ nextId ∧ returns value { now with nextId := nextId })
    (fails : ∀ now, pre now → raises now) :
    Runs fileDiscipline assume holds pre (drawing compute) returns raises := by
  refine runs_atomic stable fun now consistent _ locked given later updated => ?_
  cases computed : compute now.nextId now.clock with
  | error error =>
    simp only [computed] at updated ⊢
    cases updated
    refine ⟨consistent, .refl now, stays_of_spares (.refl now) locked, runs_raise ?_⟩
    rintro state rfl
    exact fails state given
  | ok result =>
    obtain ⟨value, nextId⟩ := result
    obtain ⟨more, ends⟩ := draws now value nextId consistent given computed
    simp only [computed] at updated ⊢
    cases updated
    have spares : now.Spares { now with nextId := nextId } :=
      ⟨⟨fun _ => id, more⟩, rfl, rfl, rfl, fun _ => id⟩
    refine ⟨consistent.of_grows spares.toGrows rfl rfl rfl consistent.clean fun _ => id, spares.toGrows,
      stays_of_spares spares locked, runs_pure ?_⟩
    rintro state rfl
    exact ends

end Actions

section Locked

open Transaction

variable {assume : World → Prop} {pre raises : World → Prop} {manifest : LocalFileManifest}

theorem stable_reads : fileDiscipline.Stable true fun world => world.storage.manifest = manifest :=
  fun _ _ (spares : World.Spares _ _) reads => spares.manifest.trans reads

theorem stable_true {holds : Bool} : fileDiscipline.Stable holds fun _ => True := fun _ _ _ given => given

/-- What is on its way to the disk is the manifest that was set last. -/
theorem runs_ensureManifestPersistent (stable : fileDiscipline.Stable true pre)
    (kept : ∀ world, pre world → pre (world.updateStorage LocalStorage.persist)) :
    Runs fileDiscipline assume true pre ensureManifestPersistent (fun _ => pre) raises := by
  refine runs_update stable fun now consistent _ locked given => ?_
  have still : (LocalStorage.persist now.storage).locked = now.storage.locked := by
    unfold LocalStorage.persist
    split <;> rfl
  exact ⟨consistent.persist, ⟨fun _ known => known, le_rfl⟩, still.trans (locked rfl), kept now given⟩

theorem runs_setManifest (cacheOnly : Bool) {removedIds : Finset ChunkID}
    (stable : fileDiscipline.Stable true pre)
    (cacheable : ∀ now : World, now.Consistent → pre now → now.Cacheable manifest removedIds) :
    Runs fileDiscipline assume true pre (setManifest manifest cacheOnly removedIds)
      (fun _ world => world.storage.manifest = manifest) raises := by
  have cached : Runs fileDiscipline assume true pre
      (update fun world => world.updateStorage fun storage => storage.cache manifest removedIds :
        Transaction Unit) (fun _ world => world.storage.manifest = manifest) raises :=
    runs_update stable fun now consistent _ locked given =>
      ⟨consistent.cache (cacheable now consistent given), ⟨fun _ known => known, le_rfl⟩, locked rfl, rfl⟩
  refine cached.bind fun _ => ?_
  split
  · exact runs_pure fun _ reads => reads
  · refine runs_ensureManifestPersistent stable_reads fun world reads => ?_
    refine Eq.trans ?_ reads
    simp only [World.updateStorage, LocalStorage.persist]
    split <;> rfl

theorem runs_loadFileDescriptor {fd : FileDescriptor} {holds : Bool} :
    Runs fileDiscipline assume holds (fun _ => True) (loadFileDescriptor fd)
      (fun manifest world => world.storage.manifest = manifest) (fun _ => True) := by
  refine runs_observeOr stable_true fun now _ _ _ => ?_
  split
  · rfl
  · trivial

theorem runs_getManifest : Runs fileDiscipline assume true (fun _ => True) getManifest
    (fun manifest world => world.storage.manifest = manifest) raises :=
  runs_observe stable_true fun _ _ _ _ => rfl

/-- A chunk that can be read is available. -/
theorem runs_getChunk (stable : fileDiscipline.Stable true pre) (id : ChunkID) :
    Runs fileDiscipline assume true pre (getChunk id)
      (fun _ world => pre world ∧ world.Available id) pre := by
  have looked : Runs fileDiscipline assume true pre
      (observe fun world => world.storage.chunkStorage id : Transaction (Option Bytes))
      (fun found world => pre world ∧ ∀ data, found = some data → world.Available id) pre :=
    runs_observe stable fun now _ _ given => ⟨given, fun data is => .inl ⟨data, is⟩⟩
  refine looked.bind fun found => ?_
  cases found with
  | some data => exact runs_pure fun _ given => ⟨given.1, given.2 data rfl⟩
  | none =>
    refine runs_observeOr (fun first second moved given => ?_) fun now consistent _ given => ?_
    · exact ⟨stable first second moved given.1, fun _ is => by cases is⟩
    · cases stored : now.storage.blockStorage id with
      | none => exact given.1
      | some block => exact ⟨given.1, .inr (consistent.clean id block stored)⟩

theorem runs_readChunk (stable : fileDiscipline.Stable true pre) (chunk : Chunk) :
    Runs fileDiscipline assume true pre (readChunk chunk)
      (fun _ world => pre world ∧ world.Available chunk.id) pre :=
  (runs_getChunk stable chunk.id).bind fun _ => runs_pure fun _ given => given

/-- What is known about the chunks of a block that is being built, when some of them are left. -/
def Building (pre : World → Prop) (chunks : List Chunk) (built : Bytes × List BlockAccess)
    (left : List Chunk) (world : World) : Prop :=
  pre world ∧ (built.2 = [] → ∀ chunk ∈ chunks, chunk ∈ left ∨ world.Available chunk.id)

theorem stable_building (stable : fileDiscipline.Stable true pre) {chunks left : List Chunk}
    {built : Bytes × List BlockAccess} : fileDiscipline.Stable true (Building pre chunks built left) := by
  intro before after spares given
  refine ⟨stable before after spares given.1, fun nothing chunk member => ?_⟩
  exact (given.2 nothing chunk member).imp_right (World.Spares.available spares _)

theorem runs_buildChunk (stable : fileDiscipline.Stable true pre) (start : ℕ) (chunks : List Chunk)
    (built : Bytes × List BlockAccess) (chunk : Chunk) (left : List Chunk) :
    Runs fileDiscipline assume true (Building pre chunks built (chunk :: left))
      (buildChunk start built chunk) (fun next => Building pre chunks next left) (fun _ => True) := by
  refine (runs_readChunk (stable_building stable) chunk).attempt.bind fun read => ?_
  cases read with
  | ok data =>
    refine runs_pure fun world given => ⟨given.1.1, fun nothing other member => ?_⟩
    rcases given.1.2 nothing other member with here | available
    · rcases List.mem_cons.mp here with rfl | later
      · exact .inr given.2
      · exact .inl later
    · exact .inr available
  | error error =>
    cases error with
    | localMiss id =>
      dsimp only
      split
      · exact runs_pure fun world given => ⟨given.1, fun nothing => by simp at nothing⟩
      · exact runs_raise fun _ _ => trivial
    | _ => exact runs_raise fun _ _ => trivial

/-- If nothing has to be downloaded, all chunks are available. -/
theorem runs_buildData (stable : fileDiscipline.Stable true pre) (chunks : List Chunk) :
    Runs fileDiscipline assume true pre (buildData chunks)
      (fun built world => pre world ∧ (built.2 = [] → ∀ chunk ∈ chunks, world.Available chunk.id))
      (fun _ => True) := by
  cases chunks with
  | nil => exact runs_pure fun _ given => ⟨given, fun _ _ member => by cases member⟩
  | cons first rest =>
    refine (runs_foldlM (runs_buildChunk stable first.start (first :: rest)) (first :: rest) _).mono
      (fun _ given => ⟨given, fun _ _ member => .inl member⟩) (fun built world given => ?_) fun _ => id
    exact ⟨given.1, fun nothing chunk member => (given.2 nothing chunk member).resolve_left List.not_mem_nil⟩

theorem runs_writeChunk (stable : fileDiscipline.Stable true pre) (chunk : Chunk) (content : Bytes)
    (offset : ℤ) : Runs fileDiscipline assume true pre (writeChunk chunk content offset)
      (fun _ world => pre world ∧ world.Available chunk.id) (fun _ => True) := by
  have padded : Runs fileDiscipline assume true pre
      (.ofExcept (paddedData content offset (offset + chunk.stop - chunk.start)) : Transaction Bytes)
      (fun _ => pre) (fun _ => True) := by
    refine runs_ofExcept fun world given => ?_
    cases paddedData content offset (offset + chunk.stop - chunk.start) with
    | ok data => exact given
    | error error => trivial
  refine padded.bind fun data => (runs_setChunk stable chunk.id data).bind fun _ => ?_
  exact runs_pure fun _ given => given

end Locked

end Guardata
