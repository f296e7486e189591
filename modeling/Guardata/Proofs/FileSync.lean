import Guardata.Proofs.FileDiscipline

/-! # The transactions on a file keep to the discipline

What a transaction holds for true of the manifest that it has prepared stays true while it holds the entry
lock, until the manifest is set.
-/

namespace Guardata

open Machine Coroutine Transaction

/-- The manifest has been prepared from the cached one, with ids that were new then. -/
structure World.Prepared (world : World) (manifest : LocalFileManifest) (prepared : PreparedWrite) :
    Prop where
  reads : world.storage.manifest = manifest
  prepares : ∃ start store content piece expected,
    Prepares store manifest start content piece expected prepared ∧
      ∀ id ∈ fileIds manifest.blocks ∪ world.storage.pending, id < start
  drawn : prepared.nextId ≤ world.nextId

/-- A block has been chosen for a reshape, whatever access it is going to have. -/
structure World.Reshaping (world : World) (manifest : LocalFileManifest) (block : ℕ)
    (operation : ReshapeOperation) : Prop where
  raw : ¬ operation.destination.isBlock
  prepared : ∀ access, ∃ operations nextId, world.Prepared manifest
    ⟨updateManifest block manifest { operation.destination with access := access }, operations,
      operation.removedIds, nextId⟩

section Prepared

variable {world : World} {manifest : LocalFileManifest} {prepared : PreparedWrite} {block : ℕ}
  {operation : ReshapeOperation}

theorem World.Prepared.of_spares (is : world.Prepared manifest prepared) {after : World}
    (spares : world.Spares after) : after.Prepared manifest prepared where
  reads := spares.manifest.trans is.reads
  prepares := by
    rw [spares.pending]
    exact is.prepares
  drawn := is.drawn.trans spares.drawn

theorem stable_reshaping : fileDiscipline.Stable true fun world =>
    world.Reshaping manifest block operation := by
  intro before after spares is
  refine ⟨is.raw, fun access => ?_⟩
  obtain ⟨operations, nextId, prepared⟩ := is.prepared access
  exact ⟨operations, nextId, prepared.of_spares spares⟩

/-- The ids of what was prepared are those of its writes, or old ones that were not removed. -/
theorem World.Prepared.cacheable (is : world.Prepared manifest prepared) (consistent : world.Consistent)
    (accesses : ∀ chunk ∈ prepared.manifest.blocks.flatten, ∀ access, chunk.access = some access →
      access.id = chunk.id ∧ world.Available chunk.id) :
    world.Cacheable prepared.manifest prepared.removedIds := by
  obtain ⟨rfl, ⟨start, store, content, piece, expected, prepares, older⟩, drawn⟩ := is
  have known (id : ChunkID) (inside : id ∈ fileIds world.storage.manifest.blocks) : id < start :=
    older id (Finset.mem_union_left _ inside)
  have waiting (id : ChunkID) (member : id ∈ world.storage.pending) : id < start :=
    older id (Finset.mem_union_right _ member)
  have later : start ≤ world.nextId := prepares.drawn.trans drawn
  refine ⟨⟨?_, ?_, fun id member => ?_, fun chunk member access has =>
    (accesses chunk member access has).1⟩, fun chunk member access has =>
    (accesses chunk member access has).2, fun id member => ?_⟩
  · rw [prepares.blocksize]
    exact consistent.manifest.positive
  · rw [prepares.blocksize]
    exact ⟨_, prepares.layout⟩
  · rcases (prepares.ids id).mp member with ⟨operation, written, rfl⟩ | ⟨inside, -⟩
    · exact (prepares.writes operation written).2.trans_le drawn
    · exact (known id inside).trans_le later
  · have old : id < start := (Finset.mem_union.mp member).elim (waiting id) fun gone =>
      known id (prepares.gone gone)
    refine ⟨old.trans_le later, fun inside => ?_⟩
    rcases (prepares.ids id).mp inside with ⟨operation, written, rfl⟩ | ⟨before, kept⟩
    · exact absurd (prepares.writes operation written).1 old.not_ge
    · exact (consistent.pending id ((Finset.mem_union.mp member).resolve_right kept)).2 before

/-- The accesses of the cached manifest. -/
theorem World.Consistent.accesses (consistent : world.Consistent) {chunks : List Chunk}
    (inherits : Inherits chunks world.storage.manifest.blocks.flatten) :
    ∀ chunk ∈ chunks, ∀ access, chunk.access = some access →
      access.id = chunk.id ∧ world.Available chunk.id := by
  intro chunk member access has
  obtain ⟨origin, found, same, hasToo⟩ := inherits chunk member access has
  rw [← same]
  exact ⟨consistent.manifest.named origin found access hasToo,
    consistent.available origin found access hasToo⟩

end Prepared

section Reshape

variable {assume : World → Prop} {manifest : LocalFileManifest} {chunks : List Chunk} {block : ℕ}

/-- The choice of an operation for a block. -/
theorem World.Consistent.reshaping {world : World} (consistent : world.Consistent)
    (found : world.storage.manifest.blocks[block]? = some chunks) {operation : ReshapeOperation}
    (reshaped : reshapeBlock chunks world.nextId = .ok (some operation)) :
    World.Reshaping { world with nextId := world.nextId + 1 } world.storage.manifest block operation := by
  obtain ⟨store, layout⟩ := consistent.manifest.layout
  have bound := (List.getElem?_eq_some_iff.mp found).1
  have inside := (layout.exists_iff block).mp bound
  have contiguous := layout.contiguous block chunks found
  have positive := consistent.manifest.positive
  have occupied : block * world.storage.manifest.blocksize <
      min ((block + 1) * world.storage.manifest.blocksize) world.storage.manifest.size := by
    rw [Nat.succ_mul]
    omega
  have older : ∀ id ∈ fileIds world.storage.manifest.blocks ∪ world.storage.pending, id < world.nextId := by
    intro id member
    rcases Finset.mem_union.mp member with known | waiting
    · exact consistent.manifest.drawn id known
    · exact (consistent.pending id waiting).1
  rcases reshapeBlock_spec contiguous occupied world.nextId with
    ⟨chunk, rfl, -, nothing⟩ | ⟨chunk, rfl, -, raw, is⟩ | is
  · rw [nothing] at reshaped
    cases reshaped
  · rw [is] at reshaped
    cases reshaped
    refine ⟨raw, fun access => ?_⟩
    have prepares := prepares_access world.nextId layout found access [] fun _ => []
    exact ⟨_, _, rfl, ⟨_, store, _, _, _, prepares, older⟩, Nat.le_succ world.nextId⟩
  · rw [is] at reshaped
    cases reshaped
    refine ⟨by simp [Chunk.isBlock, newChunk], fun access => ?_⟩
    have prepares := prepares_newChunk layout found contiguous consistent.manifest.drawn access rfl rfl
      occupied
    exact ⟨_, _, rfl, ⟨_, store, _, _, _, prepares, older⟩, le_rfl⟩

/-- A chunk that becomes a block has an access of its own. -/
theorem access_of_evolveAsBlock {chunk evolved : Chunk} {key : SecretKey} {data : Bytes}
    (raw : ¬ chunk.isBlock) (done : chunk.evolveAsBlock key data = .ok evolved) :
    ∃ access, access.id = chunk.id ∧ evolved = { chunk with access := some access } := by
  rw [Chunk.evolveAsBlock, if_neg raw] at done
  simp only [Except.bind_eq_ok_iff, Except.pure_eq_ok_iff] at done
  obtain ⟨-, -, rfl⟩ := done
  exact ⟨_, rfl, rfl⟩

/-- The chunk of a block has been evolved, and waits for being set. -/
structure World.Evolved (world : World) (manifest : LocalFileManifest) (block : ℕ)
    (operation : ReshapeOperation) (newChunk : Chunk) : Prop where
  reshaping : world.Reshaping manifest block operation
  evolved : ∃ access, access.id = operation.destination.id ∧
    newChunk = { operation.destination with access := some access }

theorem World.Evolved.of_spares {world after : World} {operation : ReshapeOperation} {newChunk : Chunk}
    (is : world.Evolved manifest block operation newChunk) (spares : world.Spares after) :
    after.Evolved manifest block operation newChunk :=
  ⟨stable_reshaping world after spares is.reshaping, is.evolved⟩

/-- The new chunk has its data, the others are those of the manifest before. -/
theorem World.Evolved.cacheable {world : World} {operation : ReshapeOperation} {newChunk : Chunk}
    (is : world.Evolved manifest block operation newChunk) (consistent : world.Consistent)
    (available : world.Available newChunk.id) :
    world.Cacheable (updateManifest block manifest newChunk) operation.removedIds := by
  obtain ⟨⟨-, prepared⟩, access, own, rfl⟩ := is
  obtain ⟨operations, nextId, prepared⟩ := prepared (some access)
  refine prepared.cacheable consistent fun chunk member other has => ?_
  obtain rfl := prepared.reads
  obtain ⟨part, inside, member⟩ := List.mem_flatten.mp member
  rcases List.mem_or_eq_of_mem_set inside with old | rfl
  · exact consistent.accesses (inherits_of_subset fun _ => id) chunk
      (List.mem_flatten.mpr ⟨part, old, member⟩) other has
  · obtain rfl := List.mem_singleton.mp member
    cases has
    exact ⟨own, available⟩

/-- The last part of a reshape. -/
theorem runs_setReshaped {operation : ReshapeOperation} {newChunk : Chunk} (missing : List BlockAccess) :
    Runs fileDiscipline assume true (fun world => world.Evolved manifest block operation newChunk ∧
        world.Available newChunk.id)
      (do
        setManifest (updateManifest block manifest newChunk) true operation.removedIds
        return (updateManifest block manifest newChunk, missing))
      (fun next world => world.storage.manifest = next.1 ∧
        ∀ other ≠ block, next.1.blocks[other]? = manifest.blocks[other]?) (fun _ => True) := by
  refine (runs_setManifest true (fun before after spares given => ?_)
    fun now consistent given => given.1.cacheable consistent given.2).bind fun _ => ?_
  · exact ⟨given.1.of_spares spares, World.Spares.available spares _ given.2⟩
  · exact runs_pure fun _ reads => ⟨reads, fun _ different => List.getElem?_set_ne different.symm⟩

/-- The step lemma of a reshape: the manifest that it returns is the cached one, and differs from the one
before in this block at most. -/
theorem runs_reshapeOne (found : manifest.blocks[block]? = some chunks) (missing : List BlockAccess) :
    Runs fileDiscipline assume true (fun world => world.storage.manifest = manifest)
      (reshapeOne (manifest, missing) (chunks, block))
      (fun next world => world.storage.manifest = next.1 ∧
        ∀ other ≠ block, next.1.blocks[other]? = manifest.blocks[other]?) (fun _ => True) := by
  have chosen : Runs fileDiscipline assume true (fun world => world.storage.manifest = manifest)
      (drawing fun id _ => return (← reshapeBlock chunks id, id + 1))
      (fun choice world => world.storage.manifest = manifest ∧
        ∀ operation, choice = some operation → world.Reshaping manifest block operation)
      (fun _ => True) := by
    refine runs_drawing stable_reads (fun now choice nextId consistent reads drawn => ?_) fun _ _ => trivial
    simp only [Except.bind_eq_ok_iff, Except.pure_eq_ok_iff, Prod.mk.injEq] at drawn
    obtain ⟨_, reshaped, rfl, rfl⟩ := drawn
    subst reads
    refine ⟨Nat.le_succ _, rfl, ?_⟩
    rintro operation rfl
    exact consistent.reshaping found reshaped
  refine chosen.bind fun choice => ?_
  cases choice with
  | none => exact runs_pure fun _ given => ⟨given.1, fun _ _ => rfl⟩
  | some operation =>
    have source : Runs fileDiscipline assume true (fun world => world.Reshaping manifest block operation)
        (buildData operation.source) (fun built world => world.Reshaping manifest block operation ∧
          (built.2 = [] → ∀ chunk ∈ operation.source, world.Available chunk.id)) (fun _ => True) :=
      runs_buildData stable_reshaping operation.source
    refine (source.mono (fun _ given => given.2 operation rfl) (fun _ _ => id) fun _ => id).bind
      fun built => ?_
    obtain ⟨data, extraMissing⟩ := built
    dsimp only
    split
    · refine runs_pure fun world given => ⟨?_, fun _ _ => rfl⟩
      obtain ⟨_, _, prepared⟩ := given.1.prepared none
      exact prepared.reads
    · next complete =>
      have evolved : Runs fileDiscipline assume true
          (fun world => world.Reshaping manifest block operation ∧
            (extraMissing = [] → ∀ chunk ∈ operation.source, world.Available chunk.id))
          (drawing fun key _ => return (← operation.destination.evolveAsBlock ⟨key⟩ data, key + 1))
          (fun newChunk world => world.Evolved manifest block operation newChunk ∧
            ∀ chunk ∈ operation.source, world.Available chunk.id) (fun _ => True) := by
        refine runs_drawing (fun before after spares given => ?_)
          (fun now newChunk nextId _ given drawn => ?_) fun _ _ => trivial
        · exact ⟨stable_reshaping before after spares given.1, fun nothing chunk member =>
            World.Spares.available spares _ (given.2 nothing chunk member)⟩
        · simp only [Except.bind_eq_ok_iff, Except.pure_eq_ok_iff, Prod.mk.injEq] at drawn
          obtain ⟨_, done, rfl, rfl⟩ := drawn
          have spares : now.Spares { now with nextId := now.nextId + 1 } :=
            ⟨⟨fun _ => id, Nat.le_succ _⟩, rfl, rfl, rfl, fun _ => id⟩
          exact ⟨Nat.le_succ _, ⟨stable_reshaping now _ spares given.1,
            access_of_evolveAsBlock given.1.raw done⟩, given.2 (not_not.mp complete)⟩
      refine evolved.bind fun newChunk => ?_
      split
      · refine ((runs_writeChunk (fun before after spares is => is.of_spares spares) newChunk data 0).mono
          (fun _ given => given.1) (fun _ _ => id) fun _ => id).bind fun _ => ?_
        exact runs_setReshaped missing
      · next own =>
        refine (runs_setReshaped missing).mono (fun world given => ⟨given.1, ?_⟩) (fun _ _ => id) fun _ => id
        obtain ⟨access, -, rfl⟩ := given.1.evolved
        have member : operation.destination ∈ operation.source := by
          rw [not_not.mp own]
          exact List.mem_singleton_self _
        exact given.2 operation.destination member

/-- What is known about a reshape when some blocks are left: they are as they were. -/
def Reshaped (progress : LocalFileManifest × List BlockAccess) (left : List (List Chunk × ℕ))
    (world : World) : Prop :=
  world.storage.manifest = progress.1 ∧ (left.map Prod.snd).Nodup ∧
    ∀ entry ∈ left, progress.1.blocks[entry.2]? = some entry.1

theorem runs_manifestReshape (cacheOnly : Bool) :
    Runs fileDiscipline assume true (fun world => world.storage.manifest = manifest)
      (manifestReshape manifest cacheOnly) (fun _ _ => True) (fun _ => True) := by
  have round (progress : LocalFileManifest × List BlockAccess) (entry : List Chunk × ℕ)
      (left : List (List Chunk × ℕ)) : Runs fileDiscipline assume true (Reshaped progress (entry :: left))
        (reshapeOne progress entry) (fun next => Reshaped next left) (fun _ => True) := by
    intro state given
    obtain ⟨reads, distinct, same⟩ := given
    rw [List.map_cons, List.nodup_cons] at distinct
    refine (runs_reshapeOne (same entry List.mem_cons_self) progress.2).mono (fun _ => id)
      (fun next world given => ⟨given.1, distinct.2, fun other member => ?_⟩) (fun _ => id) state reads
    rw [given.2 other.2 fun is => distinct.1 (is ▸ List.mem_map_of_mem member)]
    exact same other (List.mem_cons_of_mem _ member)
  refine ((runs_foldlM round manifest.blocks.zipIdx (manifest, [])).mono (fun _ reads => ⟨reads, ?_, ?_⟩)
    (fun _ _ => id) fun _ => id).bind fun progress => ?_
  · rw [List.zipIdx_map_snd]
    exact List.nodup_range'
  · intro entry member
    exact List.mem_zipIdx_iff_getElem?.mp member
  · obtain ⟨_, missing⟩ := progress
    dsimp only
    split
    · exact runs_pure fun _ _ => trivial
    · refine ((runs_ensureManifestPersistent stable_true fun _ => id).mono (fun _ _ => trivial)
        (fun _ _ => id) fun _ => id).bind fun _ => ?_
      exact runs_pure fun _ _ => trivial

end Reshape

section Write

variable {assume : World → Prop} {manifest : LocalFileManifest}

/-- The manifest that a write or a resize has prepared can be set. -/
theorem World.Prepared.cacheable_of_inherits {world : World} {prepared : PreparedWrite}
    (is : world.Prepared manifest prepared) (consistent : world.Consistent)
    (inherits : Inherits prepared.manifest.blocks.flatten manifest.blocks.flatten) :
    world.Cacheable prepared.manifest prepared.removedIds := by
  obtain rfl := is.reads
  exact is.cacheable consistent (consistent.accesses inherits)

/-- The preparation of a write or a resize. -/
theorem runs_prepare {prepare : ℕ → DateTime → Except FileError PreparedWrite}
    (prepares : ∀ store nextId now prepared,
      FileLayout store manifest.blocksize manifest.size manifest.blocks → 0 < manifest.blocksize →
      (∀ id ∈ fileIds manifest.blocks, id < nextId) → prepare nextId now = .ok prepared →
      ∃ content piece expected, Prepares store manifest nextId content piece expected prepared)
    (inherits : ∀ nextId now prepared, prepare nextId now = .ok prepared →
      Inherits prepared.manifest.blocks.flatten manifest.blocks.flatten) :
    Runs fileDiscipline assume true (fun world => world.storage.manifest = manifest)
      (drawing fun nextId now => do
        let prepared ← prepare nextId now
        return (prepared, prepared.nextId))
      (fun prepared world => world.Prepared manifest prepared ∧
        Inherits prepared.manifest.blocks.flatten manifest.blocks.flatten) (fun _ => True) := by
  refine runs_drawing stable_reads (fun now prepared nextId consistent reads drawn => ?_) fun _ _ => trivial
  simp only [Except.bind_eq_ok_iff, Except.pure_eq_ok_iff, Prod.mk.injEq] at drawn
  obtain ⟨_, done, rfl, rfl⟩ := drawn
  subst reads
  obtain ⟨store, layout⟩ := consistent.manifest.layout
  obtain ⟨content, piece, expected, is⟩ := prepares store now.nextId now.clock _ layout
    consistent.manifest.positive consistent.manifest.drawn done
  refine ⟨is.drawn, ⟨rfl, ⟨_, store, content, piece, expected, is, fun id member => ?_⟩, le_rfl⟩,
    inherits _ _ _ done⟩
  rcases Finset.mem_union.mp member with known | waiting
  · exact consistent.manifest.drawn id known
  · exact (consistent.pending id waiting).1

theorem stable_prepared_write {prepared : PreparedWrite} :
    fileDiscipline.Stable true fun world => world.Prepared manifest prepared ∧
      Inherits prepared.manifest.blocks.flatten manifest.blocks.flatten :=
  fun _ _ spares given => ⟨given.1.of_spares spares, given.2⟩

/-- The end of a write or a resize. -/
theorem runs_setPrepared {prepared : PreparedWrite} (cacheOnly : Bool) :
    Runs fileDiscipline assume true (fun world => world.Prepared manifest prepared ∧
        Inherits prepared.manifest.blocks.flatten manifest.blocks.flatten)
      (setManifest prepared.manifest cacheOnly prepared.removedIds)
      (fun _ world => world.storage.manifest = prepared.manifest) (fun _ => True) :=
  runs_setManifest cacheOnly stable_prepared_write
    fun _ consistent given => given.1.cacheable_of_inherits consistent given.2

theorem runs_manifestResize (length : ℕ) (cacheOnly : Bool) :
    Runs fileDiscipline assume true (fun world => world.storage.manifest = manifest)
      (manifestResize manifest length cacheOnly) (fun _ _ => True) (fun _ => True) := by
  unfold manifestResize
  split
  · exact runs_pure fun _ _ => trivial
  · next different =>
    refine (runs_prepare (fun store nextId now prepared layout positive fresh done => ?_)
      fun nextId now prepared done => (stems_prepareResize done).inherits).bind fun prepared => ?_
    · obtain ⟨_, piece, computed, prepares⟩ :=
        prepareResize_spec layout positive fresh different now
      cases computed.symm.trans done
      exact ⟨_, piece, _, prepares⟩
    · refine (runs_forM_of_keeps (fun operation => ?_) prepared.writeOperations).bind fun _ => ?_
      · refine (runs_writeChunk stable_prepared_write operation.1 [] operation.2).bind fun _ => ?_
        exact runs_pure fun _ given => given.1
      · exact (runs_setPrepared cacheOnly).mono (fun _ => id) (fun _ _ _ => trivial) fun _ => id

/-- The loop over the write operations of a write. -/
theorem runs_writeOperations {prepared : PreparedWrite} (fd : FileDescriptor) (content : Bytes) :
    Runs fileDiscipline assume true (fun world => world.Prepared manifest prepared ∧
        Inherits prepared.manifest.blocks.flatten manifest.blocks.flatten)
      (prepared.writeOperations.forM fun operation => do
        let written ← writeChunk operation.1 content operation.2
        update fun world => world.updateStorage fun storage => { storage with
          writeCount := Function.update storage.writeCount fd (storage.writeCount fd + written) })
      (fun _ world => world.Prepared manifest prepared ∧
        Inherits prepared.manifest.blocks.flatten manifest.blocks.flatten) (fun _ => True) := by
  refine runs_forM_of_keeps (fun operation => ?_) prepared.writeOperations
  refine (runs_writeChunk stable_prepared_write operation.1 content operation.2).bind fun written => ?_
  refine (runs_bookkeeping stable_prepared_write ?_ ?_ ?_ ?_ ?_).mono (fun _ given => given.1)
    (fun _ _ => id) fun _ => id
  all_goals exact fun _ => rfl

theorem runs_writeContent (fd : FileDescriptor) {content : Bytes} (something : content ≠ []) (offset : ℕ) :
    Runs fileDiscipline assume true (fun world => world.storage.manifest = manifest)
      (writeContent fd manifest content offset) (fun _ _ => True) (fun _ => True) := by
  refine (runs_prepare (fun store nextId now prepared layout positive fresh done => ?_)
    fun nextId now prepared done => (stems_prepareWrite done).inherits).bind fun prepared => ?_
  · have positiveLength : 0 < content.length := List.length_pos_iff.mpr something
    obtain ⟨_, piece, computed, prepares⟩ :=
      prepareWrite_spec layout positive fresh content offset (by omega) now
    cases computed.symm.trans done
    exact ⟨_, piece, _, prepares⟩
  · refine (runs_writeOperations fd content).bind fun _ => (runs_setPrepared true).bind fun _ => ?_
    refine (runs_look stable_reads fun world => world.storage.writeCount fd).bind fun writeCount => ?_
    dsimp only
    split
    · refine (runs_manifestReshape true).bind fun _ => ?_
      refine Runs.bind (runs_bookkeeping stable_true (fun _ => rfl) (fun _ => rfl) (fun _ => rfl)
        (fun _ => rfl) fun _ => rfl) fun _ => ?_
      exact runs_pure fun _ _ => trivial
    · exact runs_pure fun _ _ => trivial

end Write

section Lock

variable {α : Type} {assume pre : World → Prop}

/-- The world once the entry is unlocked. -/
def World.unlock (world : World) : World :=
  world.updateStorage fun storage => { storage with locked := false }

/-- The body runs with the lock held, from what is true without it to what is true without it again. -/
theorem runs_lockEntry {body : Transaction α} {middle returns : α → World → Prop}
    (stable : fileDiscipline.Stable false pre) (locks : ∀ world, pre world → pre world.lock)
    (runs : Runs fileDiscipline assume true pre body middle fun _ => True)
    (later : ∀ value, fileDiscipline.Stable true (middle value))
    (unlocks : ∀ value world, world.Consistent → middle value world → returns value world.unlock) :
    Runs fileDiscipline assume false pre (lockEntry body) returns fun _ => True := by
  intro state given now moved consistent assumed _ after updated
  change (if now.storage.locked then none else some now.lock) = some after at updated
  by_cases taken : now.storage.locked
  · rw [if_pos taken] at updated
    cases updated
  · rw [if_neg taken] at updated
    cases updated
    have free : now.storage.locked = false := eq_false_of_ne_true taken
    have acquired : fileDiscipline.holdsAfter false now now.lock = true := by
      simp [Discipline.holdsAfter, fileDiscipline, World.lock, World.updateStorage, free]
    refine ⟨⟨consistent.clean, consistent.manifest, consistent.available, consistent.pending,
      consistent.versions⟩, ⟨fun _ => id, le_rfl⟩, fun _ => .inl ⟨free, rfl⟩, ?_⟩
    change Follows fileDiscipline assume _ (fileDiscipline.holdsAfter false now now.lock)
      (body.ensuring release) now.lock
    rw [acquired]
    have attempted : Runs fileDiscipline assume true pre body.attempt (Ends middle fun _ => True)
        fun _ => False := runs.attempt
    refine Follows.bind ((attempted now.lock (locks now (stable state now moved given))).mono
      fun side result world ends => ?_)
    obtain ⟨rfl, ends⟩ := ends
    cases result with
    | error error => exact ends.elim
    | ok result =>
      intro last spares consistentLast _ _ final released
      cases released
      refine ⟨⟨consistentLast.clean, consistentLast.manifest, consistentLast.available,
        consistentLast.pending, consistentLast.versions⟩, ⟨fun _ => id, le_rfl⟩, ?_,
        follows_ofExcept ⟨rfl, ?_⟩⟩
      · intro outside
        cases outside
      cases result with
      | ok value => exact unlocks value last consistentLast (later value world last spares ends)
      | error error => trivial

/-- A call on a descriptor, whose body may rely on the cached manifest. -/
theorem runs_loadAndLockFile {fd : FileDescriptor} {body : LocalFileManifest → Transaction α}
    (runs : ∀ manifest, Runs fileDiscipline assume true (fun world => world.storage.manifest = manifest)
      (body manifest) (fun _ _ => True) fun _ => True) :
    Runs fileDiscipline assume false (fun _ => True) (loadAndLockFile fd body) (fun _ _ => True)
      fun _ => True := by
  have locked : Runs fileDiscipline assume false (fun _ => True)
      (lockEntry do
        let manifest ← loadFileDescriptor fd
        body manifest) (fun _ _ => True) fun _ => True :=
    runs_lockEntry stable_true (fun _ => id) (runs_loadFileDescriptor.bind runs) (fun _ => stable_true)
      fun _ _ _ => id
  exact runs_loadFileDescriptor.bind fun _ => locked.mono (fun _ _ => trivial) (fun _ _ => id) fun _ => id

/-- Every call keeps to the discipline. -/
theorem DescriptorCall.runs (call : DescriptorCall) :
    Runs fileDiscipline assume false (fun _ => True) call.transaction (fun _ _ => True) fun _ => True := by
  cases call with
  | write fd content offset constrained =>
    refine (runs_loadAndLockFile fun manifest => ?_).bind fun _ => runs_pure fun _ => id
    dsimp only
    generalize (if constrained then constrainedContent manifest content offset else content) = limited
    split
    · exact runs_pure fun _ _ => trivial
    · next something => exact runs_writeContent fd something _
  | resize fd length truncateOnly =>
    refine runs_loadAndLockFile fun manifest => ?_
    split
    · exact runs_pure fun _ _ => trivial
    · exact runs_manifestResize length true
  | flush fd =>
    refine runs_loadAndLockFile fun manifest => (runs_manifestReshape false).bind fun _ => ?_
    exact runs_ensureManifestPersistent stable_true fun _ => id
  | close fd =>
    refine runs_loadAndLockFile fun manifest => ?_
    refine ((runs_ensureManifestPersistent stable_true fun _ => id).mono (fun _ _ => trivial)
      (fun _ _ => id) fun _ => id).bind fun _ => ?_
    have removed : Runs fileDiscipline assume true (fun _ => True) (removeFileDescriptor fd)
        (fun _ _ => True) fun _ => True := by
      refine (runs_loadFileDescriptor.mono (fun _ => id) (fun _ _ _ => trivial) fun _ => id).bind
        fun _ => ?_
      exact runs_bookkeeping stable_true (fun _ => rfl) (fun _ => rfl) (fun _ => rfl) (fun _ => rfl)
        fun _ => rfl
    exact removed.bind fun _ => runs_bookkeeping stable_true (fun _ => rfl) (fun _ => rfl) (fun _ => rfl)
      (fun _ => rfl) fun _ => rfl

end Lock

/-- The blocks of a manifest that is about to be uploaded can be uploaded, or have been. -/
def World.InFlight (world : World) (manifest : RemoteFileManifest) : Prop :=
  ∀ access ∈ manifest.blocks, world.Available access.id

section Blocks

variable {assume pre : World → Prop}

theorem stable_has {holds : Bool} {id : BlockID} :
    fileDiscipline.Stable holds fun world => world.backend.Has id :=
  fun _ _ moved has => (fileDiscipline.grows_of_rely moved).has id has

theorem runs_loadBlock (access : BlockAccess) : Runs fileDiscipline assume false (fun _ => True)
    (loadBlock access) (fun _ _ => True) fun _ => True := by
  have checked {α : Type} (result : Except FileError α) : Runs fileDiscipline assume false
      (fun world => world.backend.Has access.id) (.ofExcept result : Transaction α)
      (fun _ world => world.backend.Has access.id) fun _ => True := by
    refine runs_ofExcept fun world has => ?_
    cases result with
    | ok value => exact has
    | error error => trivial
  refine Runs.bind (runs_observeOr stable_true fun now _ _ _ => ?_) fun ciphered =>
    (checked _).bind fun block => (checked _).bind fun _ =>
      (runs_setCleanBlock stable_has (fun _ => id) block).mono (fun _ => id)
        (fun _ _ _ => trivial) fun _ => id
  cases stored : now.backend.blocks access.id with
  | some ciphered => exact ⟨ciphered, stored⟩
  | none => trivial

theorem runs_loadBlocks (accesses : List BlockAccess) : Runs fileDiscipline assume false (fun _ => True)
    (loadBlocks accesses) (fun _ _ => True) fun _ => True :=
  runs_forM_of_keeps runs_loadBlock accesses

/-- A block that is not in the chunk storage any more is on the backend, as it can be uploaded or has been. -/
theorem runs_uploadDirtyBlock (stable : fileDiscipline.Stable false pre) {access : BlockAccess}
    (available : ∀ now, assume now → now.Available access.id) :
    Runs fileDiscipline assume false pre (uploadDirtyBlock access)
      (fun _ world => pre world ∧ world.backend.Has access.id) fun _ => True := by
  have found : Runs fileDiscipline assume false pre (getDirtyBlock access.id) (fun _ => pre)
      fun world => pre world ∧ world.backend.Has access.id := by
    refine runs_observeOr stable fun now _ assumed given => ?_
    cases stored : now.storage.chunkStorage access.id with
    | some data => exact given
    | none =>
      refine ⟨given, (available now assumed).resolve_left ?_⟩
      rintro ⟨data, is⟩
      rw [stored] at is
      cases is
  have stableHas : fileDiscipline.Stable false fun world => pre world ∧ world.backend.Has access.id :=
    fun before after grows given => ⟨stable before after grows given.1, stable_has _ _ grows given.2⟩
  refine found.attempt.bind fun result => ?_
  cases result with
  | error error => exact runs_pure fun _ given => given
  | ok data =>
    refine (runs_blockCreate stable access.id ⟨access.key, data⟩).bind fun _ => ?_
    refine (runs_setCleanBlock stableHas (fun _ given => given.2) data).bind fun _ => ?_
    exact runs_clearChunk stableHas fun _ given => given.2

/-- After `_upload_blocks` the backend has all blocks, provided that they can be uploaded all the time. -/
theorem runs_uploadBlocks (manifest : RemoteFileManifest) :
    Runs fileDiscipline (fun world => world.InFlight manifest) false (fun _ => True)
      (uploadBlocks manifest.blocks) (fun _ world => manifest.Complete world.backend) fun _ => True := by
  let loop (left : List BlockAccess) (world : World) : Prop :=
    left ⊆ manifest.blocks ∧ ∀ access ∈ manifest.blocks, access ∈ left ∨ world.backend.Has access.id
  have stable (left : List BlockAccess) : fileDiscipline.Stable false (loop left) := by
    intro before after grows given
    exact ⟨given.1, fun access member => (given.2 access member).imp_right (grows.has access.id)⟩
  have round (access : BlockAccess) (left : List BlockAccess) :
      Runs fileDiscipline (fun world => world.InFlight manifest) false (loop (access :: left))
        (uploadDirtyBlock access) (fun _ => loop left) fun _ => True := by
    intro state given
    have here : access ∈ manifest.blocks := given.1 List.mem_cons_self
    refine (runs_uploadDirtyBlock (stable (access :: left)) fun _ inFlight => inFlight access here).mono
      (fun _ => id) (fun _ world after => ⟨?_, fun other member => ?_⟩) (fun _ => id) state given
    · exact fun _ member => after.1.1 (List.mem_cons_of_mem _ member)
    · rcases after.1.2 other member with waiting | has
      · rcases List.mem_cons.mp waiting with rfl | later
        · exact .inr after.2
        · exact .inl later
      · exact .inr has
  refine (runs_forM round manifest.blocks).mono (fun _ _ => ⟨List.Subset.refl _, fun _ => .inl⟩)
    (fun _ world given => ?_) fun _ => id
  exact fun access member => (given.2 access member).resolve_left List.not_mem_nil

end Blocks

section Step

variable {assume : World → Prop} {manifest : LocalFileManifest} {remote : Option RemoteFileManifest}

/-- What is known about a version that the backend has returned. -/
def World.Knows (world : World) (remote : Option RemoteFileManifest) : Prop :=
  ∀ version, remote = some version →
    version.WellFormed world.nextId ∧ version.Complete world.backend

theorem World.Knows.of_grows {world after : World} (knows : world.Knows remote) (grows : world.Grows after) :
    after.Knows remote := by
  intro version is
  obtain ⟨wellFormed, complete⟩ := knows version is
  exact ⟨wellFormed.mono grows.drawn, fun access member => grows.has _ (complete access member)⟩

theorem stable_knows {holds : Bool} : fileDiscipline.Stable holds fun world => world.Knows remote :=
  fun _ _ moved knows => knows.of_grows (fileDiscipline.grows_of_rely moved)

/-- A manifest that can be uploaded. -/
def World.Uploads (world : World) (toUpload : Option RemoteFileManifest) : Prop :=
  ∀ version, toUpload = some version → version.WellFormed world.nextId ∧ world.InFlight version

theorem stable_uploads {toUpload : Option RemoteFileManifest} :
    fileDiscipline.Stable true fun world => world.Uploads toUpload := by
  intro before after (spares : World.Spares _ _) uploads version is
  obtain ⟨wellFormed, inFlight⟩ := uploads version is
  exact ⟨wellFormed.mono spares.drawn, fun access member => spares.available _ (inFlight access member)⟩

/-- A block has the access under which its chunk comes back from the backend. -/
theorem fromBlockAccess_of_blockAccess {chunk : Chunk} {access : BlockAccess} (reshaped : chunk.isBlock)
    (named : ∀ access, chunk.access = some access → access.id = chunk.id)
    (accessed : LocalFileManifest.blockAccess [chunk] = .ok access) :
    Chunk.fromBlockAccess access = chunk ∧ chunk.access = some access := by
  have has : chunk.access = some access := by
    cases is : chunk.access with
    | none =>
      rw [Chunk.isBlock, is] at reshaped
      cases reshaped
    | some found =>
      simp only [LocalFileManifest.blockAccess, Chunk.getBlockAccess, Except.require, if_pos reshaped,
        is] at accessed
      cases accessed
      rfl
  refine ⟨?_, has⟩
  obtain ⟨id, start, stop, rawOffset, rawSize, _⟩ := chunk
  obtain rfl := has
  simp only [Chunk.isBlock, Chunk.isPseudoBlock, Bool.decide_and, Bool.and_eq_true,
    decide_eq_true_eq] at reshaped
  obtain ⟨⟨rfl, rfl⟩, rfl, rfl⟩ := reshaped
  exact congrArg (fun name => Chunk.mk name _ _ _ _ _) (named access rfl)

/-- A version comes back from the backend as the blocks that were uploaded. -/
theorem fromBlockAccess_of_mapM {blocks : List (List Chunk)} {accesses : List BlockAccess}
    (reshaped : ∀ chunks ∈ blocks, ∃ chunk : Chunk, chunks = [chunk] ∧ chunk.isBlock)
    (named : ∀ chunk ∈ blocks.flatten, ∀ access, chunk.access = some access → access.id = chunk.id)
    (mapped : blocks.mapM LocalFileManifest.blockAccess = .ok accesses) :
    accesses.map (fun access => [Chunk.fromBlockAccess access]) = blocks := by
  induction blocks generalizing accesses with
  | nil =>
    cases mapped
    rfl
  | cons chunks rest ih =>
    simp only [List.mapM_cons, Except.bind_eq_ok_iff, Except.pure_eq_ok_iff] at mapped
    obtain ⟨access, accessed, others, mapped, rfl⟩ := mapped
    obtain ⟨chunk, rfl, isBlock⟩ := reshaped chunks List.mem_cons_self
    have here := fromBlockAccess_of_blockAccess isBlock (named chunk (by simp)) accessed
    have later := ih (fun chunks member => reshaped chunks (List.mem_cons_of_mem _ member))
      (fun chunk member => named chunk (List.mem_append_right _ member)) mapped
    rw [List.map_cons, here.1, later]

theorem exists_isBlock_of_isReshaped (reshaped : manifest.isReshaped) :
    ∀ chunks ∈ manifest.blocks, ∃ chunk : Chunk, chunks = [chunk] ∧ chunk.isBlock := by
  intro chunks member
  have whole := List.all_eq_true.mp reshaped chunks member
  split at whole
  · next chunk => exact ⟨chunk, rfl, whole⟩
  · cases whole

/-- What `to_remote` makes of the cached manifest can be uploaded. -/
theorem World.Consistent.uploads {world : World} (consistent : world.Consistent) {author : DeviceID}
    {now : DateTime} {version : RemoteFileManifest}
    (done : world.storage.manifest.toRemote author now = .ok version) : world.Uploads (some version) := by
  simp only [LocalFileManifest.toRemote, Except.bind_eq_ok_iff, Except.pure_eq_ok_iff] at done
  obtain ⟨_, -, _, reshaped, accesses, mapped, rfl⟩ := done
  have same := fromBlockAccess_of_mapM (exists_isBlock_of_isReshaped (Except.require_eq_ok_iff.mp reshaped))
    consistent.manifest.named mapped
  have whole : world.storage.manifest.WellFormed world.nextId := consistent.manifest
  intro version is
  cases is
  refine ⟨⟨whole.positive, ?_, ?_, ?_⟩, fun access member => ?_⟩
  · simpa only [LocalFileManifest.fromRemote, same] using whole.layout
  · simpa only [LocalFileManifest.fromRemote, same] using whole.drawn
  · simpa only [LocalFileManifest.fromRemote, same] using whole.named
  · have inside : [Chunk.fromBlockAccess access] ∈ world.storage.manifest.blocks := by
      rw [← same]
      exact List.mem_map_of_mem member
    exact consistent.available _ (List.mem_flatten.mpr ⟨_, inside, List.mem_singleton_self _⟩) access rfl

/-- What the merge makes of the cached manifest can be set. -/
theorem World.Consistent.cacheable_merged {world : World} (consistent : world.Consistent)
    (knows : world.Knows remote) {localAuthor : DeviceID} {merged : LocalFileManifest}
    (done : mergeFileManifests localAuthor world.storage.manifest remote = .ok merged) :
    world.Cacheable merged ∅ := by
  have kept {base : RemoteFileManifest} :
      world.Cacheable { world.storage.manifest with base := base } ∅ := by
    refine ⟨⟨consistent.manifest.positive, consistent.manifest.layout, consistent.manifest.drawn,
      consistent.manifest.named⟩, consistent.available, ?_⟩
    rw [Finset.union_empty]
    exact consistent.pending
  have served (version : RemoteFileManifest) (is : remote = some version) :
      world.Cacheable (.fromRemote version) ∅ := by
    obtain ⟨wellFormed, complete⟩ := knows version is
    have has : ∀ chunk ∈ (LocalFileManifest.fromRemote version).blocks.flatten,
        world.backend.Has chunk.id := by
      intro chunk member
      obtain ⟨part, inside, member⟩ := List.mem_flatten.mp member
      obtain ⟨access, listed, rfl⟩ := List.mem_map.mp inside
      obtain rfl := List.mem_singleton.mp member
      exact complete access listed
    refine ⟨wellFormed, fun chunk member _ _ => .inr (has chunk member), fun id member => ?_⟩
    rw [Finset.union_empty] at member
    refine ⟨(consistent.pending id member).1, fun inside => ?_⟩
    obtain ⟨chunk, found, rfl⟩ := mem_chunkIdSet.mp inside
    exact has chunk found
  unfold mergeFileManifests at done
  cases remote with
  | none =>
    cases done
    exact kept
  | some version =>
    dsimp only at done
    split at done
    · cases done
      exact kept
    · split at done
      · cases done
        exact served version rfl
      · obtain ⟨uploaded, -, done⟩ := Except.bind_eq_ok_iff.mp done
        split at done
        · cases done
          exact served version rfl
        · split at done
          · cases done
            exact kept
          · cases done

theorem runs_quickReshape (final : Bool) :
    Runs fileDiscipline assume true (fun world => world.storage.manifest = manifest)
      (quickReshape manifest final) (fun manifest world => world.storage.manifest = manifest)
      fun _ => True := by
  unfold quickReshape
  split
  · exact runs_pure fun _ reads => reads
  · refine (runs_manifestReshape false).bind fun missing => ?_
    split
    · exact runs_raise fun _ _ => trivial
    · refine runs_getManifest.bind fun manifest => ?_
      have checked : Runs fileDiscipline assume true (fun world => world.storage.manifest = manifest)
          (.ofExcept (.require manifest.isReshaped .assertion) : Transaction Unit)
          (fun _ world => world.storage.manifest = manifest) fun _ => True := by
        refine runs_ofExcept fun world reads => ?_
        cases Except.require (manifest.isReshaped = true) FileError.assertion with
        | ok _ => exact reads
        | error _ => trivial
      exact checked.bind fun _ => runs_pure fun _ reads => reads

/-- The end of a synchronization step, once the merged manifest is set. -/
theorem runs_chooseUpload (localAuthor : DeviceID) (final : Bool) :
    Runs fileDiscipline assume true (fun world => world.storage.manifest = manifest)
      (if final ∨ ¬manifest.needSync then return none
      else do
        let now ← observe fun world => world.clock
        let toUpload ← .ofExcept (manifest.toRemote localAuthor now)
        return some toUpload)
      (fun toUpload world => world.Uploads toUpload) fun _ => True := by
  split
  · exact runs_pure fun _ _ version is => by cases is
  · have looked : Runs fileDiscipline assume true (fun world => world.storage.manifest = manifest)
        (observe fun world => world.clock : Transaction DateTime)
        (fun now world => ∀ version, manifest.toRemote localAuthor now = .ok version →
          world.Uploads (some version)) fun _ => True := by
      refine runs_observe stable_reads fun now consistent _ reads version done => ?_
      subst reads
      exact consistent.uploads done
    refine looked.bind fun now => ?_
    have computed : Runs fileDiscipline assume true
        (fun world => ∀ version, manifest.toRemote localAuthor now = .ok version →
          world.Uploads (some version))
        (.ofExcept (manifest.toRemote localAuthor now) : Transaction RemoteFileManifest)
        (fun version world => world.Uploads (some version)) fun _ => True := by
      refine runs_ofExcept fun world given => ?_
      cases done : manifest.toRemote localAuthor now with
      | ok version => exact given version done
      | error error => trivial
    exact computed.bind fun version => runs_pure fun _ => id

theorem runs_mergeStep (localAuthor : DeviceID) (final : Bool) :
    Runs fileDiscipline assume true
      (fun world => world.storage.manifest = manifest ∧ world.Knows remote)
      (mergeStep localAuthor manifest remote final) (fun toUpload world => world.Uploads toUpload)
      fun _ => True := by
  have merged : Runs fileDiscipline assume true
      (fun world => world.storage.manifest = manifest ∧ world.Knows remote)
      (.ofExcept (mergeFileManifests localAuthor manifest remote) : Transaction LocalFileManifest)
      (fun merged world => mergeFileManifests localAuthor manifest remote = .ok merged ∧
        world.storage.manifest = manifest ∧ world.Knows remote) fun _ => True := by
    refine runs_ofExcept fun world given => ?_
    cases done : mergeFileManifests localAuthor manifest remote with
    | ok merged => exact ⟨rfl, given⟩
    | error error => trivial
  refine merged.bind fun merged => ?_
  dsimp only
  split
  · refine (runs_setManifest false (fun before after spares given => ?_)
      fun now consistent given => ?_).bind fun _ => runs_chooseUpload localAuthor final
    · exact ⟨given.1, stable_reads before after spares given.2.1, stable_knows before after spares given.2.2⟩
    · obtain ⟨done, rfl, knows⟩ := given
      exact consistent.cacheable_merged knows done
  · next same =>
    obtain rfl := not_not.mp same
    exact (runs_chooseUpload localAuthor final).mono (fun _ given => given.2.1) (fun _ _ => id) fun _ => id

/-- What a synchronization step returns can be uploaded. -/
theorem runs_synchronizationStep (localAuthor : DeviceID) (confined final : Bool) :
    Runs fileDiscipline assume false (fun world => world.Knows remote)
      (Transaction.synchronizationStep localAuthor confined remote final)
      (fun toUpload world => world.Uploads toUpload) fun _ => True := by
  refine runs_lockEntry stable_knows (fun _ => id) ?_ (fun _ => stable_uploads) fun _ _ _ => id
  refine ((runs_getManifest.frame stable_knows).mono (fun _ knows => ⟨trivial, knows⟩) (fun _ _ => id)
    fun _ => id).bind fun manifest => ?_
  split
  · exact runs_pure fun _ _ version is => by cases is
  · exact ((runs_quickReshape final).frame stable_knows).bind fun manifest =>
      runs_mergeStep localAuthor final

theorem runs_fileReshape : Runs fileDiscipline assume false (fun _ => True) fileReshape
    (fun _ _ => True) fun _ => True :=
  runs_lockEntry stable_true (fun _ => id)
    (runs_getManifest.bind fun _ => runs_manifestReshape false) (fun _ => stable_true) fun _ _ _ => id

end Step

end Guardata
