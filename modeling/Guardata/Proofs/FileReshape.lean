import Guardata.Proofs.FileIntegrity
import Guardata.Proofs.FileSync

/-! # Reshaping a file with missing chunks

The raw data of a chunk lies on the device or elsewhere. A round of `_manifest_reshape` takes one block
after the other: a block whose chunks are all on the device becomes a single chunk with an access, any
other block stays as it is and its missing chunks are reported. Either way the file shows the same bytes.
-/

namespace Guardata

open Machine Coroutine Transaction

/-- No chunk id occurs in two blocks. -/
def BlocksApart (blocks : List (List Chunk)) : Prop :=
  ∀ (first second : ℕ) left right, blocks[first]? = some left → blocks[second]? = some right →
    first ≠ second → Disjoint (chunkIdSet left) (chunkIdSet right)

section Set

variable {store : ChunkID → Option Bytes} {blocksize size block : ℕ} {blocks : List (List Chunk)}
  {chunks : List Chunk} {chunk : Chunk}

theorem fileContent_eq_flatten : fileContent store blocks = (blocks.map (chunksContent store)).flatten := by
  rw [fileContent, chunksContent, List.flatMap_def, List.map_flatten, List.flatten_flatten, List.map_map]
  rfl

/-- A block that shows the same can take the place of another. -/
theorem fileContent_set (found : blocks[block]? = some chunks) {replacement : List Chunk}
    (shows : chunksContent store replacement = chunksContent store chunks) :
    fileContent store (blocks.set block replacement) = fileContent store blocks := by
  obtain ⟨bound, rfl⟩ := List.getElem?_eq_some_iff.mp found
  have same : (blocks.map (chunksContent store)).set block (chunksContent store replacement) =
      blocks.map (chunksContent store) := by
    rw [shows, ← List.getElem_map (chunksContent store) (h := by simpa using bound), List.set_getElem_self]
  rw [fileContent_eq_flatten, fileContent_eq_flatten, List.map_set, same]

/-- Stores that agree on the ids of the chunks show the same bytes. -/
theorem chunksContent_congr {other : ChunkID → Option Bytes}
    (agree : ∀ id ∈ chunkIdSet chunks, other id = store id) :
    chunksContent other chunks = chunksContent store chunks := by
  rw [chunksContent, chunksContent, List.flatMap_def, List.flatMap_def, List.map_congr_left]
  intro chunk member
  rw [Chunk.view, Chunk.view, agree _ (mem_chunkIdSet.mpr ⟨chunk, member, rfl⟩)]

theorem eq_or_mem_of_mem_flatten_set {other : Chunk} (member : other ∈ (blocks.set block [chunk]).flatten) :
    other = chunk ∨ other ∈ blocks.flatten := by
  obtain ⟨part, listed, inside⟩ := List.mem_flatten.mp member
  rcases List.mem_or_eq_of_mem_set listed with old | rfl
  · exact .inr (List.mem_flatten.mpr ⟨part, old, inside⟩)
  · exact .inl (List.mem_singleton.mp inside)

theorem FileIntegrity.set (integrity : FileIntegrity blocksize size blocks)
    (found : blocks[block]? = some chunks) (start : chunk.start = block * blocksize)
    (stop : chunk.stop = blockStop blocksize size blocks block) (within : chunk.Within)
    (proper : chunk.start < chunk.stop) : FileIntegrity blocksize size (blocks.set block [chunk]) where
  contiguous := by
    intro other part stands
    have same : blockStop blocksize size (blocks.set block [chunk]) other =
      blockStop blocksize size blocks other := by
      rw [blockStop, blockStop, List.length_set]
    rw [same]
    by_cases here : block = other
    · subst here
      rw [List.getElem?_set_self (List.getElem?_eq_some_iff.mp found).1] at stands
      cases stands
      exact ⟨start, within, stop⟩
    · rw [List.getElem?_set_ne here] at stands
      exact integrity.contiguous other part stands
  occupied := by
    intro part member
    rcases List.mem_or_eq_of_mem_set member with old | rfl
    · exact integrity.occupied part old
    · exact List.cons_ne_nil chunk []
  proper := by
    intro part member
    rcases List.mem_or_eq_of_mem_set member with old | rfl
    · exact integrity.proper part old
    · simpa [Proper] using proper
  nothing := by
    intro nothing
    rw [List.set_eq_nil_iff] at nothing
    rw [nothing] at found
    cases found

theorem BlocksApart.set (apart : BlocksApart blocks) (found : blocks[block]? = some chunks)
    (own : chunk.id ∈ fileIds blocks → chunk.id ∈ chunkIdSet chunks) :
    BlocksApart (blocks.set block [chunk]) := by
  have others : ∀ (other : ℕ) part, other ≠ block → blocks[other]? = some part →
      Disjoint (chunkIdSet [chunk]) (chunkIdSet part) := by
    intro other part elsewhere stands
    refine Finset.disjoint_left.mpr fun id member within => ?_
    obtain rfl : id = chunk.id := by simpa [chunkIdSet] using member
    have known := own (mem_fileIds_iff.mpr ⟨other, part, stands, within⟩)
    exact Finset.disjoint_left.mp (apart _ _ _ _ found stands elsewhere.symm) known within
  have bound := (List.getElem?_eq_some_iff.mp found).1
  intro first second left right standsLeft standsRight different
  rw [List.getElem?_set] at standsLeft standsRight
  split at standsLeft <;> split at standsRight
  · omega
  · next here there =>
    cases standsLeft
    exact others second right (Ne.symm there) standsRight
  · next there here =>
    cases standsRight
    exact (others first left (Ne.symm there) standsLeft).symm
  · exact apart first second left right standsLeft standsRight different

/-- The ids of a file with a block replaced. -/
theorem mem_fileIds_set (bound : block < blocks.length) {replacement : List Chunk} {id : ChunkID} :
    id ∈ fileIds (blocks.set block replacement) ↔ id ∈ chunkIdSet replacement ∨
      ∃ (other : ℕ) (part : List Chunk), other ≠ block ∧ blocks[other]? = some part ∧
      id ∈ chunkIdSet part := by
  rw [mem_fileIds_iff]
  constructor
  · rintro ⟨other, part, stands, within⟩
    rw [List.getElem?_set] at stands
    split at stands
    · next here =>
      cases stands
      exact .inl within
    · next there => exact .inr ⟨other, part, Ne.symm there, stands, within⟩
  · rintro (within | ⟨other, part, there, stands, within⟩)
    · exact ⟨block, replacement, List.getElem?_set_self bound, within⟩
    · exact ⟨other, part, by rw [List.getElem?_set_ne there.symm, stands], within⟩

end Set

/-- The raw data under an id: the device's, or else what is elsewhere. -/
def LocalStorage.rawData (storage : LocalStorage) (elsewhere : ChunkID → Option Bytes) (id : ChunkID) :
    Option Bytes :=
  (storage.held id).or (elsewhere id)

/-- A block that a reshape leaves alone. -/
def IsReshapedBlock (chunks : List Chunk) : Prop := ∃ chunk : Chunk, chunks = [chunk] ∧ chunk.isBlock

/-- The access names the raw data of the chunk. -/
def BlockAccess.Names (access : BlockAccess) (store : ChunkID → Option Bytes) (chunk : Chunk) : Prop :=
  access.id = chunk.id ∧ ∃ data, store chunk.id = some data ∧ access.digest = .fromData data

/-- The manifest passes its assertions and shows the bytes, wherever the raw data of its chunks is. -/
structure Shows (elsewhere : ChunkID → Option Bytes) (storage : LocalStorage) (nextId : ℕ) (file : Bytes) :
    Prop where
  integrity : FileIntegrity storage.manifest.blocksize storage.manifest.size storage.manifest.blocks
  stored : ∀ chunk ∈ storage.manifest.blocks.flatten, chunk.Stored (storage.rawData elsewhere)
  reachable : ∀ chunk ∈ storage.manifest.blocks.flatten, storage.held chunk.id = none → chunk.access ≠ none
  content : fileContent (storage.rawData elsewhere) storage.manifest.blocks = file
  apart : BlocksApart storage.manifest.blocks
  drawn : ∀ id ∈ fileIds storage.manifest.blocks, id < nextId
  waiting : ∀ id ∈ storage.pending, id < nextId ∧ id ∉ fileIds storage.manifest.blocks

namespace Shows

variable {elsewhere : ChunkID → Option Bytes} {storage after : LocalStorage} {nextId later : ℕ} {file : Bytes}
  {block : ℕ} {chunks : List Chunk} {chunk : Chunk}

theorem available (shows : Shows elsewhere storage nextId file)
    (member : chunk ∈ storage.manifest.blocks.flatten) :
    storage.Available (storage.rawData elsewhere) chunk := by
  refine ⟨shows.stored chunk member, fun data found => ?_, shows.reachable chunk member⟩
  rw [LocalStorage.rawData, found]
  rfl

theorem mono (shows : Shows elsewhere storage nextId file) (more : nextId ≤ later) :
    Shows elsewhere storage later file :=
  { shows with
    drawn := fun id member => (shows.drawn id member).trans_le more
    waiting := fun id member => ⟨(shows.waiting id member).1.trans_le more, (shows.waiting id member).2⟩ }

/-- Storages that have the same under the ids of the file show the same. -/
theorem congr (shows : Shows elsewhere storage nextId file) (manifest : after.manifest = storage.manifest)
    (held : ∀ id ∈ fileIds storage.manifest.blocks, after.held id = storage.held id)
    (waiting : ∀ id ∈ after.pending, id ∈ storage.pending) : Shows elsewhere after nextId file := by
  have same : ∀ id ∈ fileIds storage.manifest.blocks,
      after.rawData elsewhere id = storage.rawData elsewhere id := by
    intro id member
    rw [LocalStorage.rawData, LocalStorage.rawData, held id member]
  have known : ∀ chunk ∈ storage.manifest.blocks.flatten, chunk.id ∈ fileIds storage.manifest.blocks :=
    fun chunk member => mem_chunkIdSet.mpr ⟨chunk, member, rfl⟩
  constructor
  all_goals rw [manifest]
  · exact shows.integrity
  · intro chunk member
    rw [Chunk.Stored, same chunk.id (known chunk member)]
    exact shows.stored chunk member
  · intro chunk member
    rw [held chunk.id (known chunk member)]
    exact shows.reachable chunk member
  · rw [fileContent, chunksContent_congr same]
    exact shows.content
  · exact shows.apart
  · exact shows.drawn
  · exact fun id member => shows.waiting id (waiting id member)

/-- Writing the manifest to disk deletes nothing that it refers to. -/
theorem persist (shows : Shows elsewhere storage nextId file) : Shows elsewhere storage.persist nextId file ∧
    ∀ id ∈ fileIds storage.manifest.blocks, storage.persist.held id = storage.held id := by
  have held : ∀ id ∈ fileIds storage.manifest.blocks, storage.persist.held id = storage.held id := by
    intro id member
    rw [LocalStorage.persist]
    split
    · rfl
    · next removedIds ahead =>
      have kept : id ∉ removedIds := fun gone =>
        (shows.waiting id (by rwa [LocalStorage.pending, ahead])).2 member
      rw [LocalStorage.held, LocalStorage.held]
      simp only [if_neg kept]
  have manifest : storage.persist.manifest = storage.manifest := by
    rw [LocalStorage.persist]
    split <;> rfl
  refine ⟨shows.congr manifest held fun id member => ?_, held⟩
  rw [LocalStorage.persist] at member
  split at member
  · exact member
  · cases member

/-- A single chunk takes the place of a block that shows the same. -/
theorem set (shows : Shows elsewhere storage nextId file)
    (found : storage.manifest.blocks[block]? = some chunks)
    (manifest : after.manifest = updateManifest block storage.manifest chunk)
    (held : ∀ id < nextId, after.held id = storage.held id) {removedIds : Finset ChunkID}
    (pending : after.pending = storage.pending ∪ removedIds)
    (removed : ∀ id ∈ removedIds, id ∈ chunkIdSet chunks ∧ id ≠ chunk.id)
    (own : nextId ≤ chunk.id ∨ chunk.id ∈ chunkIdSet chunks) (drawn : chunk.id < later)
    (more : nextId ≤ later)
    (start : chunk.start = block * storage.manifest.blocksize)
    (stop : chunk.stop =
      blockStop storage.manifest.blocksize storage.manifest.size storage.manifest.blocks block)
    (within : chunk.Within) (proper : chunk.start < chunk.stop) (there : after.held chunk.id ≠ none)
    (stored : chunk.Stored (after.rawData elsewhere))
    (view : chunk.view (after.rawData elsewhere) = chunksContent (storage.rawData elsewhere) chunks) :
    Shows elsewhere after later file := by
  have bound := (List.getElem?_eq_some_iff.mp found).1
  have known : ∀ id ∈ chunkIdSet chunks, id ∈ fileIds storage.manifest.blocks :=
    fun id member => mem_fileIds_iff.mpr ⟨block, chunks, found, member⟩
  have same : ∀ id ∈ fileIds storage.manifest.blocks,
      after.rawData elsewhere id = storage.rawData elsewhere id := by
    intro id member
    rw [LocalStorage.rawData, LocalStorage.rawData, held id (shows.drawn id member)]
  have mine : chunk.id ∈ fileIds storage.manifest.blocks → chunk.id ∈ chunkIdSet chunks :=
    fun member => own.resolve_left (shows.drawn _ member).not_ge
  have idOf : ∀ other ∈ storage.manifest.blocks.flatten, other.id ∈ fileIds storage.manifest.blocks :=
    fun other member => mem_chunkIdSet.mpr ⟨other, member, rfl⟩
  constructor
  all_goals rw [manifest, updateManifest]
  · exact shows.integrity.set found start stop within proper
  · intro other member
    rcases eq_or_mem_of_mem_flatten_set member with rfl | old
    · exact stored
    · rw [Chunk.Stored, same _ (idOf other old)]
      exact shows.stored other old
  · intro other member gone
    rcases eq_or_mem_of_mem_flatten_set member with rfl | old
    · exact absurd gone there
    · rw [held _ (shows.drawn _ (idOf other old))] at gone
      exact shows.reachable other old gone
  · have before : chunksContent (after.rawData elsewhere) chunks =
      chunksContent (storage.rawData elsewhere) chunks :=
      chunksContent_congr fun id member => same id (known id member)
    have alike : chunksContent (after.rawData elsewhere) [chunk] =
      chunksContent (after.rawData elsewhere) chunks := by
      rw [chunksContent_cons, chunksContent_nil, List.append_nil, view, before]
    rw [fileContent_set found alike, fileContent, chunksContent_congr same]
    exact shows.content
  · exact shows.apart.set found mine
  · intro id member
    rcases (mem_fileIds_set bound).mp member with new | ⟨other, part, -, stands, inside⟩
    · obtain rfl : id = chunk.id := by simpa [chunkIdSet] using new
      exact drawn
    · exact (shows.drawn id (mem_fileIds_iff.mpr ⟨other, part, stands, inside⟩)).trans_le more
  · intro id member
    rw [pending, Finset.mem_union] at member
    have old : id < nextId ∧ id ≠ chunk.id ∧ ∀ (other : ℕ) part, other ≠ block →
        storage.manifest.blocks[other]? = some part → id ∉ chunkIdSet part := by
      rcases member with waits | gone
      · obtain ⟨low, out⟩ := shows.waiting id waits
        refine ⟨low, ?_, fun other part _ stands inside => out
          (mem_fileIds_iff.mpr ⟨other, part, stands, inside⟩)⟩
        rintro rfl
        exact own.elim low.not_ge fun inside => out (known _ inside)
      · obtain ⟨inside, different⟩ := removed id gone
        exact ⟨shows.drawn id (known id inside), different, fun other part elsewhere stands within =>
          Finset.disjoint_left.mp (shows.apart _ _ _ _ found stands elsewhere.symm) inside within⟩
    refine ⟨old.1.trans_le more, fun inside => ?_⟩
    rcases (mem_fileIds_set bound).mp inside with new | ⟨other, part, there, stands, within⟩
    · exact old.2.1 (by simpa [chunkIdSet] using new)
    · exact old.2.2 other part there stands within

end Shows

/-- The data of a block has been stored under a new chunk. -/
def LocalStorage.joined (storage : LocalStorage) (block : ℕ) (chunk : Chunk) (data : Bytes)
    (removedIds : Finset ChunkID) : LocalStorage :=
  LocalStorage.cache
    { storage with chunkStorage := Function.update storage.chunkStorage chunk.id (some data) }
    (updateManifest block storage.manifest chunk) removedIds

/-- What a reshape leaves of the world. -/
structure Reshapes (world after : World) : Prop where
  held : ∀ id < world.nextId, after.storage.held id = world.storage.held id
  drawn : world.nextId ≤ after.nextId
  backend : after.backend = world.backend
  locked : after.storage.locked = world.storage.locked
  size : after.storage.manifest.size = world.storage.manifest.size
  blocksize : after.storage.manifest.blocksize = world.storage.manifest.blocksize
  length : after.storage.manifest.blocks.length = world.storage.manifest.blocks.length
  openFds : after.storage.openFds = world.storage.openFds
  /-- A chunk without data on the device is an old one. -/
  absent : ∀ chunk ∈ after.storage.manifest.blocks.flatten, after.storage.held chunk.id = none →
    chunk ∈ world.storage.manifest.blocks.flatten

theorem Reshapes.trans {world middle after : World} (first : Reshapes world middle)
    (second : Reshapes middle after) (drawn : ∀ id ∈ fileIds middle.storage.manifest.blocks, id < middle.nextId) :
    Reshapes world after where
  held id low := (second.held id (low.trans_le first.drawn)).trans (first.held id low)
  drawn := first.drawn.trans second.drawn
  backend := second.backend.trans first.backend
  locked := second.locked.trans first.locked
  size := second.size.trans first.size
  blocksize := second.blocksize.trans first.blocksize
  length := second.length.trans first.length
  openFds := second.openFds.trans first.openFds
  absent chunk member gone := by
    have old := second.absent chunk member gone
    have low := drawn chunk.id (mem_chunkIdSet.mpr ⟨chunk, old, rfl⟩)
    exact first.absent chunk old ((second.held _ low).symm.trans gone)

/-- A block is a single chunk, as it was or with an access to its raw data that was all there; or it is as
it was
because some of its chunks are missing. -/
def BlockOutcome (elsewhere : ChunkID → Option Bytes) (world after : World) (block : ℕ) (chunks : List Chunk)
    (missing : List BlockAccess) : Prop :=
  (∃ chunk, after.storage.manifest.blocks[block]? = some [chunk] ∧ chunk.isBlock ∧ (chunks = [chunk] ∨
    world.storage.missing chunks = [] ∧
      ∀ access, chunk.access = some access → access.Names (after.storage.rawData elsewhere) chunk)) ∨
  after.storage.manifest.blocks[block]? = some chunks ∧ ¬ IsReshapedBlock chunks ∧
    world.storage.missing chunks ≠ [] ∧ ∀ access ∈ world.storage.missing chunks, access ∈ missing

/-- What the round of a reshape for one block leads to. -/
structure BlockReshapes (elsewhere : ChunkID → Option Bytes) (file : Bytes) (world after : World) (block : ℕ)
    (chunks : List Chunk) (extra : List BlockAccess) : Prop where
  shows : Shows elsewhere after.storage after.nextId file
  reshapes : Reshapes world after
  others : ∀ other ≠ block,
    after.storage.manifest.blocks[other]? = world.storage.manifest.blocks[other]?
  outcome : BlockOutcome elsewhere world after block chunks extra
  reported : ∀ access ∈ extra, ¬ IsReshapedBlock chunks ∧ access ∈ world.storage.missing chunks

section Run

variable {elsewhere : ChunkID → Option Bytes} {world : World} {file : Bytes} {block : ℕ} {chunks : List Chunk}

/-- Nothing is missing of chunks that are all there. -/
theorem LocalStorage.held_ne_none_of_missing {storage : LocalStorage} {chunk : Chunk}
    (nothing : storage.missing chunks = []) (member : chunk ∈ chunks)
    (reachable : storage.held chunk.id = none → chunk.access ≠ none) : storage.held chunk.id ≠ none := by
  intro gone
  obtain ⟨access, has⟩ := Option.ne_none_iff_exists'.mp (reachable gone)
  have reported : access ∈ storage.missing chunks :=
    List.mem_filterMap.mpr ⟨chunk, List.mem_filter.mpr ⟨member, decide_eq_true gone⟩, has⟩
  rw [nothing] at reported
  cases reported

theorem exists_of_mem_missing {storage : LocalStorage} {access : BlockAccess}
    (member : access ∈ storage.missing chunks) :
    ∃ chunk ∈ chunks, storage.held chunk.id = none ∧ chunk.access = some access := by
  obtain ⟨chunk, found, has⟩ := List.mem_filterMap.mp member
  obtain ⟨found, gone⟩ := List.mem_filter.mp found
  exact ⟨chunk, found, of_decide_eq_true gone, has⟩

/-- A block with missing chunks is reported and left alone. -/
theorem run_reshapeOne_of_missing {operation : ReshapeOperation} {data : Bytes} {extra : List BlockAccess}
    (missing : List BlockAccess) (reshaped : reshapeBlock chunks world.nextId = .ok (some operation))
    (built : (buildData operation.source).run { world with nextId := world.nextId + 1 } =
      some (.ok (data, extra), { world with nextId := world.nextId + 1 })) (some : extra ≠ []) :
    (reshapeOne (world.storage.manifest, missing) (chunks, block)).run world =
      .some (.ok (world.storage.manifest, missing ++ extra), { world with nextId := world.nextId + 1 }) := by
  have drawn : (drawing fun id _ => return (← reshapeBlock chunks id, id + 1)).run world =
      .some (.ok (.some operation), { world with nextId := world.nextId + 1 }) :=
    run_drawing (by rw [reshaped]; rfl)
  rw [reshapeOne, run_bind_of_ok _ drawn]
  simp only
  rw [run_bind_of_ok _ built]
  simp only [if_pos some]
  rfl

/-- A pseudo-block is its raw data. -/
theorem view_of_isPseudoBlock {store : ChunkID → Option Bytes} {chunk : Chunk} {data : Bytes}
    (pseudo : chunk.isPseudoBlock) (found : store chunk.id = some data)
    (length : data.length = chunk.rawSize) :
    chunk.view store = data := by
  obtain ⟨start, stop⟩ := of_decide_eq_true pseudo
  rw [Chunk.view, found, Option.getD_some, start, Nat.sub_self, List.drop_zero,
    List.take_of_length_le (by omega)]

section Step

variable (shows : Shows elsewhere world.storage world.nextId file)
  (found : world.storage.manifest.blocks[block]? = some chunks)
include shows found

/-- A block with missing chunks. -/
theorem blockReshapes_of_missing (raw : ¬ IsReshapedBlock chunks) (some : world.storage.missing chunks ≠ []) :
    BlockReshapes elsewhere file world { world with nextId := world.nextId + 1 } block chunks
      (world.storage.missing chunks) where
  shows := shows.mono (Nat.le_succ _)
  reshapes := ⟨fun _ _ => rfl, Nat.le_succ _, rfl, rfl, rfl, rfl, rfl, rfl, fun _ member _ => member⟩
  others _ _ := rfl
  outcome := .inr ⟨found, raw, some, fun _ => id⟩
  reported _ member := ⟨raw, member⟩

/-- A pseudo-block gets an access. -/
theorem blockReshapes_pseudoBlock {chunk : Chunk} (single : chunks = [chunk]) (pseudo : chunk.isPseudoBlock)
    (nothing : world.storage.missing chunks = []) (key : SecretKey) :
    let evolved := { chunk with access := some ⟨chunk.id, key, chunk.start, chunk.stop - chunk.start,
      .fromData (chunksContent (world.storage.rawData elsewhere) chunks)⟩ }
    BlockReshapes elsewhere file world { world with
      nextId := world.nextId + 2
      storage := LocalStorage.cache world.storage (updateManifest block world.storage.manifest evolved) ∅ }
      block chunks [] := by
  intro evolved
  subst single
  have listed := List.mem_of_getElem? found
  have contiguous := shows.integrity.contiguous block [chunk] found
  have proper := shows.integrity.proper [chunk] listed chunk List.mem_cons_self
  have inside : chunk ∈ world.storage.manifest.blocks.flatten :=
    List.mem_flatten.mpr ⟨[chunk], listed, List.mem_cons_self⟩
  have there := LocalStorage.held_ne_none_of_missing nothing List.mem_cons_self (shows.reachable chunk inside)
  obtain ⟨data, stored, length⟩ := shows.stored chunk inside
  have view := view_of_isPseudoBlock pseudo stored length
  have whole : chunksContent (world.storage.rawData elsewhere) [chunk] = data := by
    rw [chunksContent_cons, chunksContent_nil, List.append_nil, view]
  have bound := (List.getElem?_eq_some_iff.mp found).1
  obtain ⟨start, stop⟩ := of_decide_eq_true pseudo
  have isBlock : evolved.isBlock := by
    refine decide_eq_true ⟨pseudo, start.symm, ?_⟩
    change chunk.rawSize = chunk.stop - chunk.start
    omega
  have absent : ∀ other ∈ (world.storage.manifest.blocks.set block [evolved]).flatten,
      world.storage.held other.id = none → other ∈ world.storage.manifest.blocks.flatten := by
    intro other member gone
    refine (eq_or_mem_of_mem_flatten_set member).resolve_left fun new => ?_
    rw [new] at gone
    exact there gone
  refine ⟨?_, ⟨fun _ _ => rfl, Nat.le_add_right _ 2, rfl, rfl, rfl, rfl, List.length_set, rfl, absent⟩,
    fun other different => List.getElem?_set_ne different.symm,
    .inl ⟨evolved, List.getElem?_set_self bound, isBlock, .inr ⟨nothing, ?_⟩⟩,
    fun access member => absurd member List.not_mem_nil⟩
  · have low : chunk.id < world.nextId := shows.drawn _ (mem_chunkIdSet.mpr ⟨chunk, inside, rfl⟩)
    exact shows.set found rfl (fun _ _ => rfl) rfl (fun _ gone => absurd gone (Finset.notMem_empty _))
      (.inr (mem_chunkIdSet.mpr ⟨chunk, List.mem_cons_self, rfl⟩)) (low.trans_le (Nat.le_add_right _ 2))
      (Nat.le_add_right _ 2) contiguous.1 contiguous.2.2 contiguous.2.1 proper there ⟨data, stored, length⟩
      (view.trans whole.symm)
  · rintro access ⟨⟩
    exact ⟨rfl, data, stored, congrArg HashDigest.fromData whole⟩

/-- Other chunks are joined in a new one. -/
theorem blockReshapes_newChunk (nothing : world.storage.missing chunks = []) (key : SecretKey) :
    let data := chunksContent (world.storage.rawData elsewhere) chunks
    let start := block * world.storage.manifest.blocksize
    let stop := blockStop world.storage.manifest.blocksize world.storage.manifest.size
      world.storage.manifest.blocks block
    let evolved := { newChunk world.nextId start stop with
      access := some ⟨world.nextId, key, start, stop - start, .fromData data⟩ }
    BlockReshapes elsewhere file world { world with
      nextId := world.nextId + 2
      storage := world.storage.joined block evolved data (chunkIdSet chunks) } block chunks [] := by
  intro data start stop evolved
  have listed := List.mem_of_getElem? found
  have contiguous := shows.integrity.contiguous block chunks found
  have occupied := contiguous.lt (shows.integrity.occupied chunks listed)
    (shows.integrity.proper chunks listed)
  have length : data.length = stop - start := contiguous.length_content fun chunk member =>
    shows.stored chunk (List.mem_flatten.mpr ⟨chunks, listed, member⟩)
  have known : ∀ id ∈ chunkIdSet chunks, id < world.nextId :=
    fun id member => shows.drawn id (mem_fileIds_iff.mpr ⟨block, chunks, found, member⟩)
  have bound := (List.getElem?_eq_some_iff.mp found).1
  have isBlock : evolved.isBlock := by
    refine decide_eq_true ⟨decide_eq_true ⟨rfl, ?_⟩, rfl, rfl⟩
    change stop = start + (stop - start)
    omega
  have held : ∀ id < world.nextId,
      (world.storage.joined block evolved data (chunkIdSet chunks)).held id = world.storage.held id := by
    intro id low
    simp only [LocalStorage.held, LocalStorage.joined, LocalStorage.cache, evolved, newChunk,
      Function.update_of_ne low.ne]
  have there : (world.storage.joined block evolved data (chunkIdSet chunks)).held evolved.id = some data := by
    simp only [LocalStorage.held, LocalStorage.joined, LocalStorage.cache, Function.update_self,
      Option.some_or]
  have stored : (world.storage.joined block evolved data (chunkIdSet chunks)).rawData elsewhere evolved.id =
      some data := by
    rw [LocalStorage.rawData, there, Option.some_or]
  have absent : ∀ other ∈ (world.storage.manifest.blocks.set block [evolved]).flatten,
      (world.storage.joined block evolved data (chunkIdSet chunks)).held other.id = none →
        other ∈ world.storage.manifest.blocks.flatten := by
    intro other member gone
    refine (eq_or_mem_of_mem_flatten_set member).resolve_left fun new => ?_
    rw [new, there] at gone
    cases gone
  refine ⟨?_, ⟨held, Nat.le_add_right _ 2, rfl, rfl, rfl, rfl, List.length_set, rfl, absent⟩,
    fun other different => List.getElem?_set_ne different.symm,
    .inl ⟨evolved, List.getElem?_set_self bound, isBlock, .inr ⟨nothing, ?_⟩⟩,
    fun access member => absurd member List.not_mem_nil⟩
  · refine shows.set found rfl held rfl (fun id member => ⟨member, (known id member).ne⟩) (.inl le_rfl)
      (Nat.lt_add_of_pos_right (Nat.zero_lt_succ 1)) (Nat.le_add_right _ 2) rfl rfl ?_ occupied
      (Option.ne_none_iff_exists'.mpr ⟨data, there⟩) ⟨data, stored, length⟩ ?_
    · exact ⟨le_rfl, occupied.le, (by change stop ≤ start + (stop - start); omega)⟩
    · exact view_newChunk stored length
  · rintro access ⟨⟩
    exact ⟨rfl, data, stored, rfl⟩

end Step

/-- The step lemma of a reshape. -/
theorem exists_reshapeOne (shows : Shows elsewhere world.storage world.nextId file)
    (found : world.storage.manifest.blocks[block]? = some chunks) (missing : List BlockAccess) :
    ∃ after extra, (reshapeOne (world.storage.manifest, missing) (chunks, block)).run world =
        some (.ok (after.storage.manifest, missing ++ extra), after) ∧
      BlockReshapes elsewhere file world after block chunks extra := by
  have listed := List.mem_of_getElem? found
  have contiguous := shows.integrity.contiguous block chunks found
  have occupied := contiguous.lt (shows.integrity.occupied chunks listed)
    (shows.integrity.proper chunks listed)
  have inside : ∀ chunk ∈ chunks, chunk ∈ world.storage.manifest.blocks.flatten :=
    fun chunk member => List.mem_flatten.mpr ⟨chunks, listed, member⟩
  obtain ⟨data, complete, built⟩ :=
    @run_buildData_of_available { world with nextId := world.nextId + 1 } _ _ _ _
    contiguous fun chunk member => shows.available (inside chunk member)
  rcases reshapeBlock_spec contiguous occupied world.nextId with
    ⟨chunk, rfl, isBlock, nothing⟩ | ⟨chunk, rfl, pseudo, raw, operation⟩ | operation
  · have drawn : (drawing fun id _ => return (← reshapeBlock [chunk] id, id + 1)).run world =
        some (.ok none, { world with nextId := world.nextId + 1 }) :=
      run_drawing (by rw [nothing]; rfl)
    refine ⟨{ world with nextId := world.nextId + 1 }, [], ?_, shows.mono (Nat.le_succ _),
      ⟨fun _ _ => rfl, Nat.le_succ _, rfl, rfl, rfl, rfl, rfl, rfl, fun _ member _ => member⟩, fun _ _ => rfl,
      .inl ⟨chunk, found, isBlock, .inl rfl⟩, fun access member => absurd member List.not_mem_nil⟩
    rw [reshapeOne, run_bind_of_ok _ drawn, List.append_nil]
    rfl
  · by_cases nothing : world.storage.missing [chunk] = []
    · have whole := complete nothing
      change (buildData [chunk]).run { world with nextId := world.nextId + 1 } =
        some (.ok (data, world.storage.missing [chunk]), _) at built
      rw [nothing, whole] at built
      have start : chunk.rawOffset = chunk.start := (of_decide_eq_true pseudo).1.symm
      have played := run_reshapeOne_of_some block missing operation built
        (evolveAsBlock_eq raw start _ _) (by simp [reshapeWrites])
      rw [reshapeWrites, if_neg (not_not.mpr rfl)] at played
      exact ⟨_, [], by rw [List.append_nil]; exact played,
        blockReshapes_pseudoBlock shows found rfl pseudo nothing ⟨world.nextId + 1⟩⟩
    · refine ⟨_, _, run_reshapeOne_of_missing missing operation built nothing,
        blockReshapes_of_missing shows found ?_ nothing⟩
      rintro ⟨other, same, isBlock⟩
      cases same
      exact raw isBlock
  · have raw : ¬ IsReshapedBlock chunks := by
      rintro ⟨chunk, rfl, isBlock⟩
      rw [reshapeBlock, if_pos isBlock] at operation
      cases operation
    by_cases nothing : world.storage.missing chunks = []
    · have whole := complete nothing
      change (buildData chunks).run { world with nextId := world.nextId + 1 } =
        some (.ok (data, world.storage.missing chunks), _) at built
      rw [nothing, whole] at built
      have fresh : chunks ≠ [newChunk world.nextId (block * world.storage.manifest.blocksize)
          (blockStop world.storage.manifest.blocksize world.storage.manifest.size
            world.storage.manifest.blocks block)] := by
        rintro rfl
        exact absurd (shows.drawn _ (mem_chunkIdSet.mpr ⟨_, inside _ List.mem_cons_self, rfl⟩)) (lt_irrefl _)
      have played := run_reshapeOne_of_some block missing operation built
        (evolveAsBlock_eq (by simp [Chunk.isBlock, newChunk]) rfl _ _)
      rw [reshapeWrites, if_pos fresh] at played
      have length := contiguous.length_content fun chunk member => shows.stored chunk (inside chunk member)
      have padded := paddedData_of_length length occupied.le
      refine ⟨_, [], ?_, blockReshapes_newChunk shows found nothing ⟨world.nextId + 1⟩⟩
      rw [List.append_nil]
      refine played fun written member => ?_
      rw [List.mem_singleton.mp member]
      exact padded
    · exact ⟨_, _, run_reshapeOne_of_missing missing operation built nothing,
        blockReshapes_of_missing shows found raw nothing⟩

theorem LocalStorage.missing_congr {storage after : LocalStorage}
    (same : ∀ chunk ∈ chunks, after.held chunk.id = storage.held chunk.id) :
    after.missing chunks = storage.missing chunks := by
  rw [missing, missing, List.filter_congr fun chunk member => by rw [same chunk member]]

/-- What the rounds of a reshape from a block on lead to. -/
structure FileReshapes (elsewhere : ChunkID → Option Bytes) (file : Bytes) (world after : World)
    (position : ℕ)
    (rest : List (List Chunk)) (extra : List BlockAccess) : Prop where
  shows : Shows elsewhere after.storage after.nextId file
  reshapes : Reshapes world after
  before : ∀ other < position,
    after.storage.manifest.blocks[other]? = world.storage.manifest.blocks[other]?
  outcome : ∀ (index : ℕ) chunks, rest[index]? = some chunks →
    BlockOutcome elsewhere world after (position + index) chunks extra
  reported : ∀ access ∈ extra, ∃ chunks ∈ rest, ¬ IsReshapedBlock chunks ∧
    access ∈ world.storage.missing chunks

/-- The first block, and then the others. -/
theorem FileReshapes.cons {middle after : World} {position : ℕ} {rest : List (List Chunk)}
    {here later : List BlockAccess} (shows : Shows elsewhere world.storage world.nextId file)
    (same : ∀ other, position ≤ other → world.storage.manifest.blocks[other]? =
    (chunks :: rest)[other - position]?)
    (first : BlockReshapes elsewhere file world middle position chunks here)
    (others : FileReshapes elsewhere file middle after (position + 1) rest later) :
    FileReshapes elsewhere file world after position (chunks :: rest) (here ++ later) := by
  have missing : ∀ (index : ℕ) part, rest[index]? = some part →
      middle.storage.missing part = world.storage.missing part := by
    intro index part stands
    have found : world.storage.manifest.blocks[position + 1 + index]? = some part := by
      rw [same _ (by omega), show position + 1 + index - position = index + 1 by omega,
        List.getElem?_cons_succ, stands]
    exact LocalStorage.missing_congr fun chunk member => first.reshapes.held _
      (shows.drawn _ (mem_fileIds_iff.mpr ⟨_, part, found, mem_chunkIdSet.mpr ⟨chunk, member, rfl⟩⟩))
  refine ⟨others.shows, first.reshapes.trans others.reshapes first.shows.drawn, fun other low => ?_,
    fun index part stands => ?_,
    fun access member => ?_⟩
  · rw [others.before other (by omega), first.others other (by omega)]
  · cases index with
    | zero =>
      obtain rfl : chunks = part := Option.some.inj stands
      rw [Nat.add_zero, BlockOutcome, others.before position (Nat.lt_succ_self position)]
      rcases first.outcome with ⟨chunk, there, isBlock, kept | ⟨nothing, names⟩⟩ | ⟨there, raw, some, listed⟩
      · exact .inl ⟨chunk, there, isBlock, .inl kept⟩
      · refine .inl ⟨chunk, there, isBlock, .inr ⟨nothing, fun access has => ?_⟩⟩
        have low := first.shows.drawn chunk.id
          (mem_fileIds_iff.mpr ⟨position, [chunk], there, mem_chunkIdSet.mpr
            ⟨chunk, List.mem_cons_self, rfl⟩⟩)
        obtain ⟨named, data, found, digest⟩ := names access has
        refine ⟨named, data, ?_, digest⟩
        rw [← found, LocalStorage.rawData, LocalStorage.rawData, others.reshapes.held _ low]
      · exact .inr ⟨there, raw, some, fun access member => List.mem_append_left _ (listed access member)⟩
    | succ index =>
      have stands : rest[index]? = some part := stands
      rcases others.outcome index part stands with result | ⟨there, raw, some, listed⟩
      · rw [show position + 1 + index = position + (index + 1) by omega, missing index part stands] at result
        exact .inl result
      · rw [missing index part stands] at some listed
        rw [show position + 1 + index = position + (index + 1) by omega] at there
        exact .inr ⟨there, raw, some, fun access member => List.mem_append_right _ (listed access member)⟩
  · rcases List.mem_append.mp member with member | member
    · exact ⟨chunks, List.mem_cons_self, first.reported access member⟩
    · obtain ⟨part, listed, raw, found⟩ := others.reported access member
      obtain ⟨index, stands⟩ := List.mem_iff_getElem?.mp listed
      exact ⟨part, List.mem_cons_of_mem _ listed, raw, missing index part stands ▸ found⟩

/-- The run lemma of a reshape: the blocks that are still to come are as they were. -/
theorem exists_foldlM_reshapeOne (shows : Shows elsewhere world.storage world.nextId file) (position : ℕ)
    (rest : List (List Chunk)) (missing : List BlockAccess)
    (same : ∀ other, position ≤ other → world.storage.manifest.blocks[other]? = rest[other - position]?) :
    ∃ after extra, ((rest.zipIdx position).foldlM reshapeOne (world.storage.manifest, missing)).run world =
      some (.ok (after.storage.manifest, missing ++ extra), after) ∧
        FileReshapes elsewhere file world after position rest extra := by
  induction rest generalizing world position missing with
  | nil =>
    refine ⟨world, [], by rw [List.append_nil]; rfl, shows,
      ⟨fun _ _ => rfl, le_rfl, rfl, rfl, rfl, rfl, rfl, rfl, fun _ member _ => member⟩,
      fun _ _ => rfl, fun index chunks stands => ?_, fun access member => absurd member List.not_mem_nil⟩
    cases stands
  | cons chunks rest ih =>
    have found : world.storage.manifest.blocks[position]? = some chunks := by
      rw [same position le_rfl, Nat.sub_self]
      rfl
    obtain ⟨middle, here, played, first⟩ := exists_reshapeOne shows found missing
    obtain ⟨after, later, playedRest, others⟩ := ih first.shows (position + 1) (missing ++ here) (by
      intro other beyond
      rw [first.others other (by omega), same other (by omega),
        show other - position = (other - (position + 1)) + 1 by omega, List.getElem?_cons_succ])
    refine ⟨after, here ++ later, ?_, FileReshapes.cons shows same first others⟩
    rw [List.zipIdx_cons, List.foldlM_cons, run_bind_of_ok _ played, playedRest, List.append_assoc]

/-- What `_manifest_reshape` leads to. -/
structure ManifestReshapes (elsewhere : ChunkID → Option Bytes) (file : Bytes) (world after : World)
    (missing : List BlockAccess) : Prop where
  shows : Shows elsewhere after.storage after.nextId file
  held : ∀ id ∈ fileIds after.storage.manifest.blocks, id < world.nextId →
    after.storage.held id = world.storage.held id
  backend : after.backend = world.backend
  locked : after.storage.locked = world.storage.locked
  size : after.storage.manifest.size = world.storage.manifest.size
  blocksize : after.storage.manifest.blocksize = world.storage.manifest.blocksize
  length : after.storage.manifest.blocks.length = world.storage.manifest.blocks.length
  outcome : ∀ (block : ℕ) chunks, world.storage.manifest.blocks[block]? = some chunks →
    BlockOutcome elsewhere world after block chunks missing
  reported : ∀ access ∈ missing, ∃ chunks ∈ world.storage.manifest.blocks, ¬ IsReshapedBlock chunks ∧
    access ∈ world.storage.missing chunks
  openFds : after.storage.openFds = world.storage.openFds
  absent : ∀ chunk ∈ after.storage.manifest.blocks.flatten, after.storage.held chunk.id = none →
    chunk ∈ world.storage.manifest.blocks.flatten

theorem ManifestReshapes.persist {after : World} {missing : List BlockAccess}
    (reshaped : ManifestReshapes elsewhere file world after missing) :
    ManifestReshapes elsewhere file world (after.updateStorage LocalStorage.persist) missing := by
  obtain ⟨shows, held⟩ := reshaped.shows.persist
  have manifest : after.storage.persist.manifest = after.storage.manifest := by
    rw [LocalStorage.persist]
    split <;> rfl
  have locked : after.storage.persist.locked = after.storage.locked := by
    rw [LocalStorage.persist]
    split <;> rfl
  have openFds : after.storage.persist.openFds = after.storage.openFds := by
    rw [LocalStorage.persist]
    split <;> rfl
  refine ⟨shows, fun id member low => ?_, reshaped.backend, locked.trans reshaped.locked, ?_, ?_, ?_,
    fun block chunks stands => ?_, reshaped.reported, openFds.trans reshaped.openFds,
    fun chunk member gone => ?_⟩
  · simp only [World.updateStorage, manifest] at member ⊢
    exact (held id member).trans (reshaped.held id member low)
  · simp only [World.updateStorage, manifest]
    exact reshaped.size
  · simp only [World.updateStorage, manifest]
    exact reshaped.blocksize
  · simp only [World.updateStorage, manifest]
    exact reshaped.length
  · rw [BlockOutcome]
    simp only [World.updateStorage, manifest]
    rcases reshaped.outcome block chunks stands with ⟨chunk, there, isBlock, kept | ⟨nothing, names⟩⟩ | left
    · exact .inl ⟨chunk, there, isBlock, .inl kept⟩
    · refine .inl ⟨chunk, there, isBlock, .inr ⟨nothing, fun access has => ?_⟩⟩
      obtain ⟨named, data, found, digest⟩ := names access has
      have inside : chunk.id ∈ fileIds after.storage.manifest.blocks :=
        mem_fileIds_iff.mpr ⟨block, [chunk], there, mem_chunkIdSet.mpr ⟨chunk, List.mem_cons_self, rfl⟩⟩
      refine ⟨named, data, ?_, digest⟩
      rw [← found, LocalStorage.rawData, LocalStorage.rawData, held _ inside]
    · exact .inr left
  · simp only [World.updateStorage, manifest] at member gone
    rw [held _ (mem_chunkIdSet.mpr ⟨chunk, member, rfl⟩)] at gone
    exact reshaped.absent chunk member gone

/-- `_manifest_reshape` returns what is missing, and the file shows the same bytes. -/
theorem exists_manifestReshape (shows : Shows elsewhere world.storage world.nextId file) (cacheOnly : Bool) :
    ∃ after missing,
      (manifestReshape world.storage.manifest cacheOnly).run world = some (.ok missing, after) ∧
      ManifestReshapes elsewhere file world after missing := by
  obtain ⟨after, missing, played, rounds⟩ := exists_foldlM_reshapeOne shows 0 world.storage.manifest.blocks []
    (fun other _ => rfl)
  rw [List.nil_append] at played
  have reshaped : ManifestReshapes elsewhere file world after missing := by
    refine ⟨rounds.shows, fun id _ low => rounds.reshapes.held id low, rounds.reshapes.backend,
      rounds.reshapes.locked, rounds.reshapes.size, rounds.reshapes.blocksize, rounds.reshapes.length,
      fun block chunks stands => ?_, rounds.reported, rounds.reshapes.openFds, rounds.reshapes.absent⟩
    have outcome := rounds.outcome block chunks stands
    rwa [Nat.zero_add] at outcome
  cases cacheOnly with
  | true =>
    refine ⟨after, missing, ?_, reshaped⟩
    rw [manifestReshape, run_bind_of_ok _ played]
    rfl
  | false =>
    refine ⟨after.updateStorage LocalStorage.persist, missing, ?_, reshaped.persist⟩
    rw [manifestReshape, run_bind_of_ok _ played]
    rfl

end Run

section Download

variable {elsewhere store : ChunkID → Option Bytes} {world : World} {file : Bytes}

/-- The backend serves the data under an access. -/
def Backend.Serves (backend : Backend) (store : ChunkID → Option Bytes) (access : BlockAccess) : Prop :=
  ∃ ciphered data, backend.blocks access.id = some ciphered ∧ ciphered.decrypt access.key = .ok data ∧
    HashDigest.fromData data = access.digest ∧ store access.id = some data

/-- What is missing can be downloaded. -/
def Downloadable (elsewhere : ChunkID → Option Bytes) (world : World) : Prop :=
  ∀ chunk ∈ world.storage.manifest.blocks.flatten, world.storage.held chunk.id = none →
    ∀ access, chunk.access = some access → access.id = chunk.id ∧
      world.backend.Serves (world.storage.rawData elsewhere) access

/-- Some blocks have been downloaded. -/
def World.downloaded (world : World) (store : ChunkID → Option Bytes) (ids : List BlockID) : World :=
  world.updateStorage fun storage =>
    { storage with blockStorage := fun id => if id ∈ ids then store id else storage.blockStorage id }

theorem run_loadBlock {access : BlockAccess} (served : world.backend.Serves store access) :
    (loadBlock access).run world = some (.ok (), world.downloaded store [access.id]) := by
  obtain ⟨ciphered, data, there, opens, digest, found⟩ := served
  have updated : (fun id => if id ∈ [access.id] then store id else world.storage.blockStorage id) =
      Function.update world.storage.blockStorage access.id (some data) := by
    funext id
    by_cases here : id = access.id
    · simp [here, found]
    · simp [here]
  have decrypted : (Coroutine.ofExcept ((ciphered.decrypt access.key).mapError fun _ => FileError.crypto) :
      Transaction Bytes).run world = some (.ok data, world) := by
    rw [opens]
    rfl
  have result : world.downloaded store [access.id] = world.updateStorage fun storage =>
      { storage with blockStorage := Function.update storage.blockStorage access.id (some data) } := by
    simp only [World.downloaded, World.updateStorage, updated]
  rw [loadBlock, run_bind, run_observeOr]
  simp only [there, Option.bind_some]
  rw [run_bind_of_ok _ decrypted, Except.require, if_pos digest, run_bind_of_ok _ (run_ofExcept _ _), result]
  rfl

theorem run_loadBlocks {accesses : List BlockAccess}
    (served : ∀ access ∈ accesses, world.backend.Serves store access) :
    (loadBlocks accesses).run world =
      some (.ok (), world.downloaded store (accesses.map BlockAccess.id)) := by
  induction accesses generalizing world with
  | nil => simp [loadBlocks, World.downloaded, World.updateStorage]
  | cons access rest ih =>
    obtain ⟨here, later⟩ := List.forall_mem_cons.mp served
    have others := @ih (world.downloaded store [access.id]) later
    have both : (world.downloaded store [access.id]).downloaded store (rest.map BlockAccess.id) =
        world.downloaded store ((access :: rest).map BlockAccess.id) := by
      simp only [World.downloaded, World.updateStorage, List.map_cons, List.mem_cons,
        List.not_mem_nil, or_false]
      congr 2
      funext id
      split <;> split <;> grind
    change (loadBlock access >>= fun _ => loadBlocks rest).run world = _
    rw [run_bind_of_ok _ (run_loadBlock here), others, both]

/-- A download changes no raw data. -/
theorem rawData_downloaded (world : World) (elsewhere : ChunkID → Option Bytes) (ids : List BlockID) :
    (world.downloaded (world.storage.rawData elsewhere) ids).storage.rawData elsewhere =
      world.storage.rawData elsewhere := by
  funext id
  simp only [World.downloaded, World.updateStorage, LocalStorage.rawData, LocalStorage.held]
  split
  · cases world.storage.chunkStorage id <;> cases world.storage.blockStorage id <;> cases elsewhere id <;> rfl
  · rfl

/-- What was downloaded is there, and what was there still is. -/
theorem held_downloaded_eq_none_iff {ids : List BlockID} {id : ChunkID} :
    (world.downloaded (world.storage.rawData elsewhere) ids).storage.held id = none ↔
      world.storage.held id = none ∧ (id ∈ ids → elsewhere id = none) := by
  simp only [World.downloaded, World.updateStorage, LocalStorage.rawData, LocalStorage.held]
  split
  · next listed => simp [listed, Option.or_eq_none_iff, and_assoc]
  · next other => simp [other]

theorem Shows.downloaded (shows : Shows elsewhere world.storage world.nextId file) (ids : List BlockID) :
    let after := world.downloaded (world.storage.rawData elsewhere) ids
    Shows elsewhere after.storage after.nextId file := by
  dsimp only
  have same := rawData_downloaded world elsewhere ids
  refine ⟨shows.integrity, ?_, fun chunk member gone => ?_, ?_, shows.apart, shows.drawn, shows.waiting⟩
  · rw [same]
    exact shows.stored
  · exact shows.reachable chunk member (held_downloaded_eq_none_iff.mp gone).1
  · rw [same]
    exact shows.content

end Download

end Guardata
