import Mathlib.Data.Finset.Lattice.Lemmas
import Mathlib.Tactic.Zify
import Guardata.Model.ByteFile
import Guardata.Model.FileTransactions
import Guardata.Proofs.FileIntegrity

/-! # What the file operations prepare

Reads, writes and resizes walk over the blocks that a range touches. The ranges of the blocks tile
the whole range, so the walk comes to one read or write of the whole range on the bytes of the
file. A write is followed through the store as it will be once all of its new chunks are written.
-/

namespace Guardata

/-- The parts of a range, one in each block from a first one on. -/
inductive Tiles (blocksize : ℕ) : ℕ → ℕ → ℕ → List (ℕ × ℕ × ℕ) → Prop
  | nil (block offset : ℕ) : Tiles blocksize block offset offset []
  | cons {block start middle stop : ℕ} {rest : List (ℕ × ℕ × ℕ)} (lower : block * blocksize ≤ start)
      (ordered : start ≤ middle) (inside : block * blocksize < middle)
      (upper : middle ≤ (block + 1) * blocksize) (later : Tiles blocksize (block + 1) middle stop rest) :
      Tiles blocksize block start stop ((block, start, middle) :: rest)

theorem Tiles.le {blocksize block start stop : ℕ} {parts : List (ℕ × ℕ × ℕ)}
    (tiles : Tiles blocksize block start stop parts) : start ≤ stop := by
  induction tiles with
  | nil => exact le_rfl
  | cons _ ordered _ _ _ ih => exact ordered.trans ih

section Range

variable {blocksize start stop : ℕ}

private theorem tiles_range' (positive : 0 < blocksize) (ordered : start ≤ stop) (count block : ℕ)
    (begun : start < (block + 1) * blocksize) (covered : stop ≤ (block + count) * blocksize)
    (needed : ∀ earlier, count = earlier + 1 → (block + earlier) * blocksize < stop) :
    Tiles blocksize block (min stop (max start (block * blocksize))) stop
      ((List.range' block count).map fun block =>
        (block, max start (block * blocksize), min stop (block * blocksize + blocksize))) := by
  induction count generalizing block with
  | zero =>
    rw [Nat.add_zero] at covered
    rw [min_eq_left (by omega)]
    exact .nil block stop
  | succ count ih =>
    have reached : block * blocksize < stop := by
      have := Nat.mul_le_mul_right blocksize (show block ≤ block + count by omega)
      have := needed count rfl
      omega
    have step : (block + 1) * blocksize = block * blocksize + blocksize := by ring
    rw [List.range'_succ, List.map_cons, min_eq_right (by omega)]
    refine .cons (le_max_right _ _) (by omega) (by omega) (by omega) ?_
    have later := ih (block + 1) (by rw [Nat.succ_mul]; omega)
      (by rw [show block + 1 + count = block + (count + 1) by omega]; exact covered)
      (fun earlier same => by
        rw [show block + 1 + earlier = block + (earlier + 1) by omega]
        exact needed (earlier + 1) (by omega))
    rwa [max_eq_right begun.le, step] at later

/-- The number of blocks of a range, and where the last of them stands. -/
private theorem locateRange_bounds (start stop : ℕ) (positive : 0 < blocksize) {count : ℕ}
    (counted : count = (((stop : ℤ) - 1) / blocksize + 1 - (start / blocksize : ℕ)).toNat) :
    stop ≤ (start / blocksize + count) * blocksize ∧
      ∀ earlier, count = earlier + 1 → (start / blocksize + earlier) * blocksize < stop := by
  have positive' : (0 : ℤ) < blocksize := by omega
  have last := Int.ediv_mul_le ((stop : ℤ) - 1) (by omega : (blocksize : ℤ) ≠ 0)
  have next := Int.lt_ediv_add_one_mul_self ((stop : ℤ) - 1) positive'
  generalize ((stop : ℤ) - 1) / blocksize = stopBlock at last next counted
  generalize start / blocksize = block at counted ⊢
  constructor
  · have enough : stopBlock + 1 ≤ ((block + count : ℕ) : ℤ) := by omega
    have covered := mul_le_mul_of_nonneg_right enough positive'.le
    zify
    push_cast at covered
    omega
  · intro earlier same
    have found : ((block + earlier : ℕ) : ℤ) = stopBlock := by omega
    zify
    rw [← found] at last
    push_cast at last
    omega

/-- The located parts tile the range. -/
theorem tiles_locateRange (positive : 0 < blocksize) (ordered : start ≤ stop) :
    Tiles blocksize (start / blocksize) start stop (locateRange start stop blocksize) := by
  obtain ⟨covered, needed⟩ := locateRange_bounds start stop positive rfl
  have begun := Nat.lt_div_mul_add (a := start) positive
  have tiles := tiles_range' positive ordered _ (start / blocksize) (by rw [Nat.succ_mul]; exact begun)
    covered needed
  rwa [max_eq_left (Nat.div_mul_le_self start blocksize), min_eq_right ordered] at tiles

/-- No part of a range that is not empty is empty. -/
theorem locateRange_lt (positive : 0 < blocksize) (ordered : start < stop) {part : ℕ × ℕ × ℕ}
    (member : part ∈ locateRange start stop blocksize) : part.2.1 < part.2.2 := by
  obtain ⟨block, found, rfl⟩ := List.mem_map.mp member
  obtain ⟨lower, upper⟩ := List.mem_range'_1.mp found
  obtain ⟨-, needed⟩ := locateRange_bounds start stop positive rfl
  generalize (((stop : ℤ) - 1) / blocksize + 1 - (start / blocksize : ℕ)).toNat = count at upper needed
  have begun := Nat.lt_div_mul_add (a := start) positive
  have after := Nat.mul_le_mul_right blocksize lower
  have before : block * blocksize < stop := by
    have := needed (count - 1) (by omega)
    have := Nat.mul_le_mul_right blocksize (show block ≤ start / blocksize + (count - 1) by omega)
    omega
  dsimp only
  omega

end Range

section Write

variable {store : ChunkID → Option Bytes} {blocksize size : ℕ} {manifest : LocalFileManifest}

/-- The chunk that a write makes for a part of its range. -/
def newChunk (id : ChunkID) (start stop : ℕ) : Chunk := ⟨id, start, stop, start, stop - start, none⟩

theorem view_newChunk {id : ChunkID} {start stop : ℕ} {piece : Bytes}
    (written : store id = some piece) (length : piece.length = stop - start) :
    (newChunk id start stop).view store = piece := by
  simp [newChunk, Chunk.view, written, ← length]

/-- The chunks of a block once a new one is written. -/
def writtenChunks (chunks : List Chunk) (id : ChunkID) (start stop : ℕ) : List Chunk :=
  keepBefore start chunks ++ newChunk id start stop :: keepAfter stop chunks

theorem contiguous_writtenChunks {chunks : List Chunk} {first last start stop : ℕ} (id : ChunkID)
    (contiguous : Contiguous first chunks last) (lower : first ≤ start) (reach : start ≤ last)
    (ordered : start ≤ stop) : Contiguous first (writtenChunks chunks id start stop) (max last stop) := by
  refine (contiguous_keepBefore contiguous lower reach).append ⟨rfl, ?_, ?_⟩
  · simp only [newChunk, Chunk.Within]
    omega
  · exact contiguous_keepAfter contiguous (lower.trans ordered)

theorem proper_writtenChunks {chunks : List Chunk} {start stop : ℕ} (id : ChunkID) (proper : Proper chunks)
    (ordered : start < stop) : Proper (writtenChunks chunks id start stop) := by
  intro chunk member
  rcases List.mem_append.mp member with front | back
  · exact proper_keepBefore proper chunk front
  · rcases List.mem_cons.mp back with rfl | back
    · exact ordered
    · exact proper_keepAfter proper chunk back

/-- What a part of a write computes, as long as the blocks lie where they should. -/
theorem writeBlock_eq {state : WriteState} (shape : FileShape blocksize size state.blocks)
    {block : ℕ} (same : manifest.getChunks block = state.blocks[block]?.getD [])
    {start stop : ℕ} (reach : start ≤ size) (lower : block * blocksize ≤ start)
    (ordered : start < stop) (upper : stop ≤ (block + 1) * blocksize) (padding contentOffset : ℕ) :
    let result := writtenChunks (manifest.getChunks block) state.nextId start stop
    writeBlock manifest padding state (block, stop - start, start, contentOffset) =
        .ok ⟨replaceBlock state.blocks block result, state.writeOperations ++
          [(newChunk state.nextId start stop, (contentOffset : ℤ) - padding)],
          state.removedIds ∪ (chunkIdSet (manifest.getChunks block) \ chunkIdSet result), state.nextId + 1⟩ ∧
      FileShape blocksize (max size stop) (replaceBlock state.blocks block result) := by
  have positive : 0 < blocksize := by
    rw [Nat.succ_mul] at upper
    omega
  have bound := shape.block_le_length positive (lower.trans reach)
  have old := shape.contiguous_getD (lower.trans reach)
  have proper := shape.proper_getD block
  rw [← same] at old proper
  constructor
  · have created : Chunk.new state.nextId start (start + (stop - start)) =
        .ok (newChunk state.nextId start stop) := by
      rw [Nat.add_sub_cancel' ordered.le, Chunk.new, Except.require, if_pos ordered]
      rfl
    have blockWritten := blockWrite_eq (old.consecutive proper) lower (by omega)
      (by omega : 0 < stop - start) (newChunk state.nextId start stop)
    rw [Nat.add_sub_cancel' ordered.le] at blockWritten
    simp only [writeBlock, created, blockWritten, setBlock_eq bound, Except.ok_bind]
    rfl
  · have contiguous := contiguous_writtenChunks state.nextId old lower (by omega) ordered.le
    refine shape.replace (lower.trans reach) (by omega) upper ?_ (proper_writtenChunks _ proper ordered) bound
    rwa [show min ((block + 1) * blocksize) (max size stop) =
      max (min ((block + 1) * blocksize) size) stop by omega]

/-- The step lemma of a write: a part of the range inside of one block replaces the bytes there,
draws one id and removes the ids that the block does not refer to any more. -/
theorem writeBlock_spec {state : WriteState} (layout : FileLayout store blocksize size state.blocks)
    {block : ℕ} (same : manifest.getChunks block = state.blocks[block]?.getD [])
    {start stop : ℕ} (reach : start ≤ size) (lower : block * blocksize ≤ start)
    (ordered : start < stop) (upper : stop ≤ (block + 1) * blocksize)
    (fresh : ∀ id ∈ fileIds state.blocks, id < state.nextId) {piece : Bytes}
    (length : piece.length = stop - start) (padding contentOffset : ℕ) :
    ∃ blocks removed, writeBlock manifest padding state (block, stop - start, start, contentOffset) =
        .ok ⟨blocks, state.writeOperations ++
          [(newChunk state.nextId start stop, (contentOffset : ℤ) - padding)],
          state.removedIds ∪ removed, state.nextId + 1⟩ ∧
      FileLayout (Function.update store state.nextId (some piece)) blocksize (max size stop) blocks ∧
      fileContent (Function.update store state.nextId (some piece)) blocks =
        (fileContent store state.blocks).take start ++ piece ++ (fileContent store state.blocks).drop stop ∧
      (∀ other, other ≠ block → blocks[other]? = state.blocks[other]?) ∧
      (∀ id, id ∈ fileIds blocks ↔
        id = state.nextId ∨ (id ∈ fileIds state.blocks ∧ id ∉ removed)) ∧
      removed ⊆ chunkIdSet (manifest.getChunks block) := by
  obtain ⟨written, -⟩ := writeBlock_eq layout.shape same reach lower ordered upper padding contentOffset
  have positive : 0 < blocksize := by
    rw [Nat.succ_mul] at upper
    omega
  have reach' : block * blocksize ≤ size := lower.trans reach
  have bound := layout.shape.block_le_length positive reach'
  have step : (block + 1) * blocksize = block * blocksize + blocksize := Nat.succ_mul _ _
  have agree : ∀ id ∈ fileIds state.blocks,
      Function.update store state.nextId (some piece) id = store id := by
    intro id member
    exact Function.update_of_ne (fresh id member).ne _ _
  obtain ⟨layout', content'⟩ := layout.congr agree
  have stands : Function.update store state.nextId (some piece) state.nextId = some piece :=
    Function.update_self ..
  generalize Function.update store state.nextId (some piece) = store' at layout' content' stands ⊢
  have old := layout'.shape.contiguous_getD reach'
  have proper := layout'.shape.proper_getD block
  have stored := layout'.stored_getD block
  have subset := chunkIdSet_getD_subset state.blocks block
  have content := layout'.content_getD block
  have apart : ∀ (other : ℕ) right, other ≠ block → state.blocks[other]? = some right →
      Disjoint (chunkIdSet (state.blocks[block]?.getD [])) (chunkIdSet right) :=
    fun _ _ => layout'.apart_getD
  have replaced : ∀ (chunks : List Chunk) (id : ChunkID),
      id ∈ fileIds (replaceBlock state.blocks block chunks) ↔ id ∈ chunkIdSet chunks ∨
        (id ∈ fileIds state.blocks ∧ id ∉ chunkIdSet (state.blocks[block]?.getD [])) :=
    fun _ _ => layout'.mem_fileIds_replace bound
  rw [← same] at old proper stored subset content apart replaced
  generalize manifest.getChunks block = chunks at written old proper stored subset content apart replaced ⊢
  generalize resulting : writtenChunks chunks state.nextId start stop = result at written
  have ids : ∀ id, id ∈ chunkIdSet result → id = state.nextId ∨ id ∈ chunkIdSet chunks := by
    intro id member
    rw [← resulting] at member
    obtain ⟨chunk, found, rfl⟩ := mem_chunkIdSet.mp member
    rcases List.mem_append.mp found with front | back
    · exact .inr (cutOf_keepBefore.chunkIdSet_subset (mem_chunkIdSet.mpr ⟨chunk, front, rfl⟩))
    · rcases List.mem_cons.mp back with rfl | back
      · exact .inl rfl
      · exact .inr (cutOf_keepAfter.chunkIdSet_subset (mem_chunkIdSet.mpr ⟨chunk, back, rfl⟩))
  have drawn : state.nextId ∈ chunkIdSet result :=
    mem_chunkIdSet.mpr ⟨newChunk state.nextId start stop, by simp [← resulting, writtenChunks], rfl⟩
  refine ⟨replaceBlock state.blocks block result, chunkIdSet chunks \ chunkIdSet result,
    written, ?_, ?_, ?_, ?_, Finset.sdiff_subset⟩
  · have contiguous := contiguous_writtenChunks state.nextId old lower (by omega) ordered.le
    rw [resulting] at contiguous
    refine layout'.replace reach' (by omega) upper ?_ ?_ ?_ ?_ bound
    · rwa [show min ((block + 1) * blocksize) (max size stop) =
        max (min ((block + 1) * blocksize) size) stop by omega]
    · exact resulting ▸ proper_writtenChunks _ proper ordered
    · intro chunk member
      rw [← resulting] at member
      rcases List.mem_append.mp member with front | back
      · exact cutOf_keepBefore.stored stored chunk front
      · rcases List.mem_cons.mp back with rfl | back
        · exact ⟨piece, stands, length⟩
        · exact cutOf_keepAfter.stored stored chunk back
    · intro other right different found
      rw [Finset.disjoint_left]
      intro id member inside
      rcases ids id member with rfl | old
      · exact lt_irrefl _ (fresh _ (mem_fileIds.mpr ⟨right, List.mem_of_getElem? found, inside⟩))
      · exact Finset.disjoint_left.mp (apart other right different found) old inside
  · rw [layout'.content_replace, content', ← resulting, writtenChunks, chunksContent_append, chunksContent_cons,
      view_newChunk stands length, content_keepBefore old stored lower,
      content_keepAfter old stored (by omega), content, content', step]
    simp only [← List.append_assoc]
    rw [List.take_append_take_window lower (by omega), List.append_assoc, List.append_assoc,
      List.drop_window_append_drop (by omega) (by omega), ← List.append_assoc]
  · intro other different
    rw [getElem?_replaceBlock bound, if_neg different]
  · intro id
    rw [replaced]
    simp only [Finset.mem_sdiff]
    constructor
    · rintro (inside | ⟨known, outside⟩)
      · rcases ids id inside with rfl | old
        · exact .inl rfl
        · exact .inr ⟨subset old, fun gone => gone.2 inside⟩
      · exact .inr ⟨known, fun gone => outside gone.1⟩
    · rintro (rfl | ⟨known, kept⟩)
      · exact .inl drawn
      · by_cases old : id ∈ chunkIdSet chunks
        · exact .inl (by_contra fun gone => kept ⟨old, gone⟩)
        · exact .inr ⟨known, old⟩

/-- The part of the written data that goes into a chunk. -/
def pieceOf (data : Bytes) (origin : ℕ) (chunk : Chunk) : Bytes :=
  (data.drop (chunk.start - origin)).take (chunk.stop - chunk.start)

/-- The store after the write operations. -/
def applyWrites (piece : Chunk → Bytes) (store : ChunkID → Option Bytes)
    (operations : List (Chunk × ℤ)) : ChunkID → Option Bytes :=
  operations.foldl (fun store operation =>
    Function.update store operation.1.id (some (piece operation.1))) store

theorem isSome_applyWrites {piece : Chunk → Bytes} {operations : List (Chunk × ℤ)} {id : ChunkID} :
    (applyWrites piece store operations id).isSome ↔
      (∃ operation ∈ operations, operation.1.id = id) ∨ (store id).isSome := by
  induction operations generalizing store with
  | nil => simp [applyWrites]
  | cons operation rest ih =>
    refine ih.trans ?_
    by_cases here : id = operation.1.id
    · subst here
      simp
    · have other : operation.1.id ≠ id := fun same => here same.symm
      simp [Function.update_of_ne here, other]

/-- A write operation of a range: a fresh chunk inside of it, and where its content starts. -/
structure Writes (origin stop padding low high : ℕ) (operation : Chunk × ℤ) : Prop where
  lower : low ≤ operation.1.id
  upper : operation.1.id < high
  offset : operation.2 = ((operation.1.start - origin : ℕ) : ℤ) - padding
  begun : origin ≤ operation.1.start
  occupied : operation.1.start < operation.1.stop
  inside : operation.1.stop ≤ stop

/-- What a walk of `prepare_write` leads to. -/
structure WriteOutcome (store : ChunkID → Option Bytes) (blocksize size origin start stop padding : ℕ)
    (data : Bytes) (known : Finset ChunkID) (state final : WriteState)
    (operations : List (Chunk × ℤ)) (removed : Finset ChunkID) : Prop where
  toWrite : final.writeOperations = state.writeOperations ++ operations
  toRemove : final.removedIds = state.removedIds ∪ removed
  writes : ∀ operation ∈ operations, Writes origin stop padding state.nextId final.nextId operation
  drawn : state.nextId ≤ final.nextId
  layout : FileLayout (applyWrites (pieceOf data origin) store operations) blocksize (max size stop)
    final.blocks
  content : fileContent (applyWrites (pieceOf data origin) store operations) final.blocks =
    (fileContent store state.blocks).take start ++ data.drop (start - origin) ++
      (fileContent store state.blocks).drop stop
  ids : ∀ id, id ∈ fileIds final.blocks ↔ (∃ operation ∈ operations, operation.1.id = id) ∨
    (id ∈ fileIds state.blocks ∧ id ∉ removed)
  gone : removed ⊆ known

/-- The run lemma of a write: the walk over the parts of a range replaces the bytes of the range. -/
theorem foldlM_writeBlock_spec (padding : ℕ) {origin block start stop : ℕ} {data : Bytes}
    {parts : List (ℕ × ℕ × ℕ)} (tiles : Tiles blocksize block start stop parts)
    (occupied : ∀ part ∈ parts, part.2.1 < part.2.2) (state : WriteState)
    (layout : FileLayout store blocksize size state.blocks)
    (same : ∀ other, block ≤ other → state.blocks[other]? = manifest.blocks[other]?)
    (reach : start ≤ size) (begun : origin ≤ start) (length : data.length = stop - origin)
    (fresh : ∀ id ∈ fileIds state.blocks, id < state.nextId)
    (known : ∀ id ∈ fileIds manifest.blocks, id < state.nextId) :
    ∃ final operations removed,
      (parts.map fun (block, start, stop) => (block, stop - start, start, start - origin)).foldlM
        (writeBlock manifest padding) state = .ok final ∧
      WriteOutcome store blocksize size origin start stop padding data (fileIds manifest.blocks) state
        final operations removed := by
  induction tiles generalizing store size state with
  | nil block offset =>
    refine ⟨state, [], ∅, rfl, ?_⟩
    constructor
    · simp
    · simp
    · simp
    · exact le_rfl
    · rw [max_eq_left reach]
      exact layout
    · rw [List.drop_eq_nil_of_le (by omega), List.append_nil, List.take_append_drop]
      rfl
    · simp
    · simp
  | @cons block start middle stop rest lower ordered inside upper later ih =>
    obtain ⟨here, others⟩ := List.forall_mem_cons.mp occupied
    replace here : start < middle := here
    have further := later.le
    have pieceLength : (pieceOf data origin (newChunk state.nextId start middle)).length =
        middle - start := by
      simp only [pieceOf, newChunk, List.length_take, List.length_drop]
      omega
    have chunks : manifest.getChunks block = state.blocks[block]?.getD [] := by
      rw [LocalFileManifest.getChunks, same block le_rfl]
    obtain ⟨blocks, removed, written, layout', content', kept, ids, gone⟩ :=
      writeBlock_spec layout chunks reach lower here upper fresh pieceLength padding (start - origin)
    obtain ⟨final, operations, more, walked, outcome⟩ := ih others ⟨blocks, _, _, _⟩ layout'
      (fun other beyond => by rw [kept other (by omega), same other (by omega)])
      (by omega) (by omega) length
      (fun id member => by
        rcases (ids id).mp member with rfl | ⟨old, -⟩
        · exact Nat.lt_succ_self _
        · exact Nat.lt_succ_of_lt (fresh id old))
      (fun id member => Nat.lt_succ_of_lt (known id member))
    refine ⟨final, (newChunk state.nextId start middle, ((start - origin : ℕ) : ℤ) - padding) :: operations,
      removed ∪ more, ?_, ?_⟩
    · rw [List.map_cons, List.foldlM_cons, written]
      exact walked
    · constructor
      · rw [outcome.toWrite]
        simp
      · rw [outcome.toRemove, Finset.union_assoc]
      · intro operation member
        rcases List.mem_cons.mp member with rfl | member
        · exact ⟨le_rfl, outcome.drawn, rfl, begun, here, further⟩
        · have next := outcome.writes operation member
          exact ⟨(Nat.le_succ _).trans next.lower, next.upper, next.offset, next.begun, next.occupied,
            next.inside⟩
      · exact (Nat.le_succ _).trans outcome.drawn
      · have layout := outcome.layout
        rwa [max_assoc, max_eq_right further] at layout
      · have content := outcome.content
        have size' := layout.length_content
        rw [content'] at content
        have front : ((fileContent store state.blocks).take start ++
            pieceOf data origin (newChunk state.nextId start middle)).length = middle := by
          rw [List.length_append, List.length_take, pieceLength]
          omega
        have split : data.drop (start - origin) =
            pieceOf data origin (newChunk state.nextId start middle) ++ data.drop (middle - origin) := by
          rw [pieceOf, show middle - origin = (start - origin) + (middle - start) by omega,
            ← List.drop_drop]
          exact (List.take_append_drop _ _).symm
        have past : ((fileContent store state.blocks).take start ++
            pieceOf data origin (newChunk state.nextId start middle)).drop stop = [] :=
          List.drop_eq_nil_of_le (by omega)
        rw [List.take_left' front, List.drop_append, front, past, List.nil_append, List.drop_drop,
          Nat.add_sub_cancel' further] at content
        refine content.trans ?_
        rw [split]
        simp
      · intro id
        have fresh' : state.nextId ∉ more := fun member =>
          lt_irrefl _ (known _ (outcome.gone member))
        rw [outcome.ids, ids]
        simp only [List.mem_cons, exists_eq_or_imp, Finset.mem_union, not_or]
        constructor
        · rintro (new | ⟨rfl | ⟨old, first⟩, second⟩)
          · exact .inl (.inr new)
          · exact .inl (.inl rfl)
          · exact .inr ⟨old, first, second⟩
        · rintro ((rfl | new) | ⟨old, first, second⟩)
          · exact .inr ⟨.inl rfl, fresh'⟩
          · exact .inl new
          · exact .inr ⟨.inr ⟨old, first⟩, second⟩
      · refine Finset.union_subset (gone.trans ?_) outcome.gone
        rw [LocalFileManifest.getChunks]
        exact chunkIdSet_getD_subset manifest.blocks block

/-- What the transactions rely on when they carry out a prepared write or resize. -/
structure Prepares (store : ChunkID → Option Bytes) (manifest : LocalFileManifest) (nextId : ℕ)
    (content : Bytes) (piece : Chunk → Bytes) (expected : Bytes) (prepared : PreparedWrite) : Prop where
  blocksize : prepared.manifest.blocksize = manifest.blocksize
  drawn : nextId ≤ prepared.nextId
  writes : ∀ operation ∈ prepared.writeOperations, nextId ≤ operation.1.id ∧
    operation.1.id < prepared.nextId
  data : ∀ operation ∈ prepared.writeOperations, Transaction.paddedData content operation.2
    (operation.2 + operation.1.stop - operation.1.start) = .ok (piece operation.1)
  layout : FileLayout (applyWrites piece store prepared.writeOperations) manifest.blocksize
    prepared.manifest.size prepared.manifest.blocks
  content : fileContent (applyWrites piece store prepared.writeOperations) prepared.manifest.blocks =
    expected
  ids : ∀ id, id ∈ fileIds prepared.manifest.blocks ↔
    (∃ operation ∈ prepared.writeOperations, operation.1.id = id) ∨
      (id ∈ fileIds manifest.blocks ∧ id ∉ prepared.removedIds)
  gone : prepared.removedIds ⊆ fileIds manifest.blocks

/-- The null bytes before the content count as a part of it. -/
theorem paddedData_eq (content : Bytes) (padding start width : ℕ) :
    Transaction.paddedData content ((start : ℤ) - padding) ((start : ℤ) - padding + width) =
      .ok (((List.replicate padding 0 ++ content).drop start).take width) := by
  rw [Transaction.paddedData, Except.require, if_pos (by omega), Except.ok_bind]
  split
  · next before =>
    rw [show ((start : ℤ) - padding + width - (start - padding)).toNat = width by omega,
      List.drop_append_of_le_length (by rw [List.length_replicate]; omega), List.drop_replicate,
      List.take_append_of_le_length (by rw [List.length_replicate]; omega), List.take_replicate,
      min_eq_left (by omega)]
    rfl
  · next reaching =>
    split
    · next behind =>
      have nothing : (List.replicate padding (0 : UInt8)).drop start = [] :=
        List.drop_eq_nil_of_le (by rw [List.length_replicate]; omega)
      rw [show (start : ℤ) - padding = ((start - padding : ℕ) : ℤ) by omega,
        show ((start - padding : ℕ) : ℤ) + width = ((start - padding + width : ℕ) : ℤ) by omega,
        List.slice_natCast, List.drop_append, nothing, List.nil_append, List.length_replicate,
        List.drop_take, Nat.add_sub_cancel_left]
      rfl
    · next across =>
      have before : start < padding := by omega
      have zeros : (List.replicate (padding - start) (0 : UInt8)).take width =
          List.replicate (padding - start) 0 :=
        List.take_of_length_le (by rw [List.length_replicate]; omega)
      rw [show (0 - ((start : ℤ) - padding)).toNat = padding - start by omega,
        show (start : ℤ) - padding + width = ((width - (padding - start) : ℕ) : ℤ) by omega,
        List.slice_zero_natCast, List.drop_append_of_le_length (by rw [List.length_replicate]; omega),
        List.drop_replicate, List.take_append, List.length_replicate, zeros]
      rfl

/-- Content of the right length is not padded. -/
theorem paddedData_of_length {content : Bytes} {start stop : ℕ} (length : content.length = stop - start)
    (ordered : start ≤ stop) : Transaction.paddedData content 0 (0 + stop - start) = .ok content := by
  have whole := paddedData_eq content 0 0 (stop - start)
  rw [List.replicate_zero, List.nil_append, List.drop_zero, List.take_of_length_le length.le] at whole
  rw [← whole]
  congr 1
  omega

/-- `prepare_write` prepares a write of the byte array. -/
theorem prepareWrite_spec
    (layout : FileLayout store manifest.blocksize manifest.size manifest.blocks)
    (positive : 0 < manifest.blocksize) {nextId : ℕ}
    (fresh : ∀ id ∈ fileIds manifest.blocks, id < nextId) (content : Bytes) (offset : ℕ)
    (something : 0 < content.length + (offset - manifest.size)) (now : DateTime) :
    ∃ prepared piece, prepareWrite manifest content.length offset nextId now = .ok prepared ∧
      Prepares store manifest nextId content piece
        (ByteFile.write (fileContent store manifest.blocks) content offset) prepared := by
  let padding := offset - manifest.size
  let origin := min offset manifest.size
  let data := List.replicate padding 0 ++ content
  let width := content.length + padding
  have length : data.length = origin + width - origin := by
    simp only [data, width, List.length_append, List.length_replicate]
    omega
  obtain ⟨final, operations, removed, walked, outcome⟩ := foldlM_writeBlock_spec padding
    (tiles_locateRange positive (by omega : origin ≤ origin + width))
    (fun part => locateRange_lt positive (by omega)) ⟨manifest.blocks, [], ∅, nextId⟩ layout
    (fun _ _ => rfl) (by omega) le_rfl length fresh fresh
  have size' := layout.length_content
  refine ⟨⟨manifest.evolveAndMarkUpdated (max manifest.size (origin + width)) final.blocks now,
    final.writeOperations, final.removedIds, final.nextId⟩, pieceOf data origin, ?_, ?_⟩
  · rw [prepareWrite, splitWrite, walked]
    rfl
  · have toWrite : final.writeOperations = operations := outcome.toWrite
    have toRemove : final.removedIds = removed := by
      rw [outcome.toRemove, Finset.empty_union]
    constructor
    · rfl
    · exact outcome.drawn
    · intro operation member
      have writes := outcome.writes operation (toWrite ▸ member)
      exact ⟨writes.lower, writes.upper⟩
    · intro operation member
      have writes := outcome.writes operation (toWrite ▸ member)
      have := writes.begun
      have := writes.occupied
      have := writes.inside
      rw [writes.offset, show ((operation.1.start - origin : ℕ) : ℤ) - padding + operation.1.stop -
        operation.1.start = ((operation.1.start - origin : ℕ) : ℤ) - padding +
          ((operation.1.stop - operation.1.start : ℕ) : ℤ) by omega]
      exact paddedData_eq _ _ _ _
    · rw [toWrite]
      exact outcome.layout
    · rw [toWrite]
      refine outcome.content.trans ?_
      rw [Nat.sub_self, List.drop_zero, ByteFile.write, size', ← List.append_assoc]
      rcases le_total offset manifest.size with inside | beyond
      · simp only [origin, width, padding, min_eq_left inside, Nat.sub_eq_zero_of_le inside, Nat.add_zero]
      · have all : ∀ count, manifest.size ≤ count →
            (fileContent store manifest.blocks).take count = fileContent store manifest.blocks :=
          fun count enough => List.take_of_length_le (by omega)
        have none : ∀ count, manifest.size ≤ count →
            (fileContent store manifest.blocks).drop count = [] :=
          fun count enough => List.drop_eq_nil_of_le (by omega)
        rw [all offset beyond, all origin (by omega), none (origin + width) (by omega),
          none (offset + content.length) (by omega)]
    · intro id
      rw [toWrite, toRemove]
      exact outcome.ids id
    · rw [toRemove]
      exact outcome.gone

end Write

section Resize

variable {store : ChunkID → Option Bytes} {manifest : LocalFileManifest}

/-- The ids that a truncation keeps are those before the block of the cut, and those of its cut. -/
private theorem truncate_ids {blocksize size : ℕ} {blocks : List (List Chunk)}
    (layout : FileLayout store blocksize size blocks) {block : ℕ} {chunks kept : List Chunk}
    (found : blocks[block]? = some chunks) (cut : chunkIdSet kept ⊆ chunkIdSet chunks) (id : ChunkID) :
    id ∈ fileIds (blocks.take block) ∨ id ∈ chunkIdSet kept ↔
      id ∈ fileIds blocks ∧
        id ∉ (chunkIdSet chunks \ chunkIdSet kept) ∪ fileIds (blocks.drop (block + 1)) := by
  simp only [Finset.mem_union, Finset.mem_sdiff, not_or, not_and, not_not]
  rw [mem_fileIds_take, mem_fileIds_iff, mem_fileIds_drop]
  constructor
  · rintro (⟨index, part, before, stands, member⟩ | member)
    · refine ⟨⟨index, part, stands, member⟩, fun inside => ?_, ?_⟩
      · have := layout.block_unique stands member found inside
        omega
      · rintro ⟨other, later, behind, stands', member'⟩
        have := layout.block_unique stands member stands' member'
        omega
    · refine ⟨⟨block, chunks, found, cut member⟩, fun _ => member, ?_⟩
      rintro ⟨other, later, behind, stands', member'⟩
      have := layout.block_unique found (cut member) stands' member'
      omega
  · rintro ⟨⟨index, part, stands, member⟩, inside, behind⟩
    rcases lt_trichotomy index block with before | rfl | after
    · exact .inl ⟨index, part, before, stands, member⟩
    · rw [found] at stands
      cases stands
      exact .inr (inside member)
    · exact absurd ⟨index, part, after, stands, member⟩ behind

/-- What `prepare_truncate` computes: the blocks before the new size, and the part before it of the block
that it lies in, if it lies inside of one. -/
theorem prepareTruncate_eq (shape : FileShape manifest.blocksize manifest.size manifest.blocks)
    (positive : 0 < manifest.blocksize) {size : ℕ} (shorter : size < manifest.size) (now : DateTime) :
    let block := size / manifest.blocksize
    ∃ chunks kept, manifest.blocks[block]? = some chunks ∧
      (block * manifest.blocksize = size ∧ kept = [] ∨
        block * manifest.blocksize < size ∧ kept = [keepBefore size chunks]) ∧
      prepareTruncate manifest size now =
        .ok (manifest.evolveAndMarkUpdated size (manifest.blocks.take block ++ kept) now,
          (chunkIdSet chunks \ chunkIdSet kept.flatten) ∪ fileIds (manifest.blocks.drop (block + 1))) ∧
      FileShape manifest.blocksize size (manifest.blocks.take block ++ kept) := by
  intro block
  have lower : block * manifest.blocksize ≤ size := Nat.div_mul_le_self _ _
  have upper : size < (block + 1) * manifest.blocksize := by
    rw [Nat.succ_mul]
    exact Nat.lt_div_mul_add positive
  have bound : block < manifest.blocks.length := (shape.exists_iff block).mpr (by omega)
  obtain ⟨chunks, found⟩ : ∃ chunks, manifest.blocks[block]? = some chunks :=
    ⟨_, List.getElem?_eq_getElem bound⟩
  have item : itemAt manifest.blocks (size / manifest.blocksize : ℕ) = .ok chunks := by
    rw [itemAt, List.item?_natCast, found]
  have prefix' := shape.take block (by omega) positive bound.le
  by_cases whole : size % manifest.blocksize = 0
  · have border : block * manifest.blocksize = size := Nat.div_mul_cancel (Nat.dvd_of_mod_eq_zero whole)
    refine ⟨chunks, [], found, .inl ⟨border, rfl⟩, ?_, ?_⟩
    · simp only [prepareTruncate, item, Except.ok_bind, if_pos whole]
      simp [chunkIdSet, fileIds, block]
    · rw [List.append_nil]
      rwa [border] at prefix'
  · have inside : block * manifest.blocksize < size := by
      refine lower.lt_of_ne fun border => whole ?_
      rw [← border, Nat.mul_mod_left]
    have old := shape.contiguous block chunks found
    have proper := shape.proper chunks (List.mem_of_getElem? found)
    have occupied : chunks ≠ [] := by
      rintro rfl
      have : block * manifest.blocksize = min ((block + 1) * manifest.blocksize) manifest.size := old
      omega
    obtain ⟨index, last, stopIndex, lastFound, -, before⟩ :=
      exists_indexOfChunkAfterStop (old.consecutive proper) occupied inside
    have kept := before (by omega)
    have length : (manifest.blocks.take block).length = block := by
      rw [List.length_take, min_eq_left bound.le]
    refine ⟨chunks, [keepBefore size chunks], found, .inr ⟨inside, rfl⟩, ?_, ?_⟩
    · have lastItem : itemAt chunks (((index + 1 : ℕ) : ℤ) - 1) = .ok last := by
        rw [show ((index + 1 : ℕ) : ℤ) - 1 = (index : ℕ) by omega, itemAt, List.item?_natCast, lastFound]
      have slice : chunks.slice 0 (((index + 1 : ℕ) : ℤ) - 1) = chunks.take index := by
        rw [show ((index + 1 : ℕ) : ℤ) - 1 = (index : ℕ) by omega, List.slice_zero_natCast]
      simp only [prepareTruncate, item, Except.ok_bind, if_neg whole, stopIndex, lastItem, slice, ← kept]
      simp only [List.flatten_singleton]
      rfl
    · rw [← replaceBlock_take bound.le, show size = max (block * manifest.blocksize) size by omega]
      refine prefix'.replace le_rfl (by omega) (by omega) ?_ (proper_keepBefore proper) length.ge
      rw [max_eq_right lower, min_eq_right upper.le]
      exact contiguous_keepBefore old lower (by omega)

/-- `prepare_truncate` cuts the byte array. -/
theorem prepareTruncate_spec
    (layout : FileLayout store manifest.blocksize manifest.size manifest.blocks)
    (positive : 0 < manifest.blocksize) {size : ℕ} (shorter : size < manifest.size) (now : DateTime) :
    ∃ blocks removed, prepareTruncate manifest size now =
        .ok (manifest.evolveAndMarkUpdated size blocks now, removed) ∧
      FileLayout store manifest.blocksize size blocks ∧
      fileContent store blocks = (fileContent store manifest.blocks).take size ∧
      (∀ id, id ∈ fileIds blocks ↔ id ∈ fileIds manifest.blocks ∧ id ∉ removed) ∧
      removed ⊆ fileIds manifest.blocks := by
  obtain ⟨chunks, kept, found, cases, done, shape⟩ := prepareTruncate_eq layout.shape positive shorter now
  have upper : size < (size / manifest.blocksize + 1) * manifest.blocksize := by
    rw [Nat.succ_mul]
    exact Nat.lt_div_mul_add positive
  generalize size / manifest.blocksize = block at found cases done shape upper
  have bound : block < manifest.blocks.length := (List.getElem?_eq_some_iff.mp found).1
  have prefix' := layout.take block (by omega) positive bound.le
  refine ⟨_, _, done, ?_, ?_, ?_, ?_⟩
  · rcases cases with ⟨border, rfl⟩ | ⟨inside, rfl⟩
    · rw [List.append_nil]
      rwa [border] at prefix'
    · have old := layout.contiguous block chunks found
      have proper := layout.proper chunks (List.mem_of_getElem? found)
      have stored := layout.stored chunks (List.mem_of_getElem? found)
      rw [← replaceBlock_take bound.le, show size = max (block * manifest.blocksize) size by omega]
      refine prefix'.replace le_rfl (by omega) (by omega) ?_ (proper_keepBefore proper)
        (cutOf_keepBefore.stored stored) ?_ (by rw [List.length_take]; omega)
      · rw [max_eq_right inside.le, min_eq_right upper.le]
        exact contiguous_keepBefore old inside.le (by omega)
      · intro other right different stands
        have behind : other < block := by
          have := (List.getElem?_eq_some_iff.mp stands).1
          rw [List.length_take] at this
          omega
        rw [List.getElem?_take_of_lt behind] at stands
        rw [Finset.disjoint_left]
        intro id member member'
        have := layout.block_unique found (cutOf_keepBefore.chunkIdSet_subset member) stands member'
        omega
  · rcases cases with ⟨border, rfl⟩ | ⟨inside, rfl⟩
    · rw [List.append_nil, layout.content_take, border]
    · have old := layout.contiguous block chunks found
      have stored := layout.stored chunks (List.mem_of_getElem? found)
      rw [← replaceBlock_take bound.le, prefix'.content_replace, content_keepBefore old stored inside.le,
        layout.content_block found, layout.content_take, List.take_take, min_self,
        List.take_append_take_window inside.le (by rw [Nat.succ_mul] at upper; omega),
        List.drop_eq_nil_of_le, List.append_nil]
      rw [List.length_take, layout.length_content]
      exact (min_le_left _ _).trans (Nat.mul_le_mul_right _ (Nat.le_succ _))
  · have cut : chunkIdSet kept.flatten ⊆ chunkIdSet chunks := by
      rcases cases with ⟨-, rfl⟩ | ⟨-, rfl⟩
      · exact Finset.empty_subset _
      · rw [List.flatten_singleton]
        exact cutOf_keepBefore.chunkIdSet_subset
    intro id
    rw [← truncate_ids layout found cut]
    simp only [fileIds, List.flatten_append, mem_chunkIdSet, List.mem_append]
    constructor
    · rintro ⟨chunk, before | behind, same⟩
      · exact .inl ⟨chunk, before, same⟩
      · exact .inr ⟨chunk, behind, same⟩
    · rintro (⟨chunk, before, same⟩ | ⟨chunk, behind, same⟩)
      · exact ⟨chunk, .inl before, same⟩
      · exact ⟨chunk, .inr behind, same⟩
  · intro id member
    rcases Finset.mem_union.mp member with here | later
    · exact mem_fileIds.mpr ⟨chunks, List.mem_of_getElem? found, (Finset.mem_sdiff.mp here).1⟩
    · obtain ⟨index, part, -, stands, member⟩ := mem_fileIds_drop.mp later
      exact mem_fileIds_iff.mpr ⟨index, part, stands, member⟩

/-- `prepare_resize` prepares a resize of the byte array. -/
theorem prepareResize_spec
    (layout : FileLayout store manifest.blocksize manifest.size manifest.blocks)
    (positive : 0 < manifest.blocksize) {nextId : ℕ}
    (fresh : ∀ id ∈ fileIds manifest.blocks, id < nextId) {size : ℕ} (different : manifest.size ≠ size)
    (now : DateTime) :
    ∃ prepared piece, prepareResize manifest size nextId now = .ok prepared ∧
      Prepares store manifest nextId [] piece
        (ByteFile.resize (fileContent store manifest.blocks) size) prepared := by
  have length := layout.length_content
  unfold prepareResize
  split
  · next longer =>
    obtain ⟨prepared, piece, done, prepares⟩ := prepareWrite_spec layout positive fresh [] size
      (by simp only [List.length_nil]; omega) now
    refine ⟨prepared, piece, done, ?_⟩
    have same : ByteFile.write (fileContent store manifest.blocks) [] size =
        ByteFile.resize (fileContent store manifest.blocks) size := by
      simp only [ByteFile.write, ByteFile.resize, List.append_nil, List.length_nil, Nat.add_zero]
      rw [List.drop_eq_nil_of_le (by omega), List.append_nil]
    rwa [same] at prepares
  · next shorter =>
    obtain ⟨blocks, removed, done, layout', content, ids, gone⟩ :=
      prepareTruncate_spec layout positive (by omega : size < manifest.size) now
    refine ⟨⟨manifest.evolveAndMarkUpdated size blocks now, [], removed, nextId⟩, fun _ => [], ?_, ?_⟩
    · rw [done]
      rfl
    · constructor
      · rfl
      · exact le_rfl
      · simp
      · simp
      · exact layout'
      · refine content.trans ?_
        rw [ByteFile.resize, length, Nat.sub_eq_zero_of_le (by omega)]
        simp
      · intro id
        refine (ids id).trans ?_
        simp
      · exact gone

end Resize

section Read

variable {store : ChunkID → Option Bytes} {manifest : LocalFileManifest}

/-- The chunks of a read are cut from those of the file. -/
theorem mem_prepareRead {size offset : ℕ} {chunk : Chunk}
    (member : chunk ∈ prepareRead manifest size offset) :
    ∃ origin ∈ manifest.blocks.flatten, chunk.id = origin.id ∧ chunk.rawSize = origin.rawSize ∧
      chunk.access = origin.access := by
  obtain ⟨⟨block, length, start⟩, -, member⟩ := List.mem_flatMap.mp member
  obtain ⟨origin, found, rfl⟩ := List.mem_map.mp member
  have within : origin ∈ manifest.getChunks block := List.mem_of_mem_take (List.mem_of_mem_drop found)
  rw [LocalFileManifest.getChunks] at within
  cases there : manifest.blocks[block]? with
  | none =>
    rw [there] at within
    cases within
  | some chunks =>
    rw [there] at within
    exact ⟨origin, List.mem_flatten.mpr ⟨chunks, List.mem_of_getElem? there, within⟩, rfl, rfl, rfl⟩

/-- The run lemma of a read: the chunks of the parts of a range show the range, as far as blocks go. -/
theorem flatMap_blockRead_spec
    (integrity : FileIntegrity manifest.blocksize manifest.size manifest.blocks)
    {block start stop : ℕ} {parts : List (ℕ × ℕ × ℕ)}
    (tiles : Tiles manifest.blocksize block start stop parts) (inside : stop ≤ manifest.size) :
    let chunks := (parts.map fun (block, start, stop) => (block, stop - start, start)).flatMap
      fun (block, length, start) => blockRead (manifest.getChunks block) length start
    let finish := max start (min stop (manifest.blocks.length * manifest.blocksize))
    Contiguous start chunks finish ∧
      ((∀ chunk ∈ manifest.blocks.flatten, chunk.Stored store) →
        chunksContent store chunks = ((fileContent store manifest.blocks).drop start).take (finish - start)) ∧
      (manifest.blocks.length ≤ block → chunks = []) := by
  induction tiles with
  | nil block offset => exact ⟨(max_eq_left (min_le_left _ _)).symm, by simp, fun _ => rfl⟩
  | @cons block start middle stop rest lower ordered reached upper later ih =>
    obtain ⟨contiguous, content, empty⟩ := ih inside
    have further := later.le
    simp only [List.map_cons, List.flatMap_cons]
    rcases lt_or_ge block manifest.blocks.length with bound | beyond
    · obtain ⟨chunks, found⟩ : ∃ chunks, manifest.blocks[block]? = some chunks :=
        ⟨_, List.getElem?_eq_getElem bound⟩
      have get : manifest.getChunks block = chunks := by
        rw [LocalFileManifest.getChunks, found]
        rfl
      have member := List.mem_of_getElem? found
      have covered := Nat.mul_le_mul_right manifest.blocksize
        (show block + 1 ≤ manifest.blocks.length from bound)
      have ends : middle ≤ blockStop manifest.blocksize manifest.size manifest.blocks block := by
        unfold blockStop
        split <;> omega
      obtain ⟨contiguous', -, content'⟩ := blockRead_spec (integrity.contiguous block chunks found)
        (integrity.occupied chunks member) (integrity.proper chunks member) (middle - start) lower (by omega)
      rw [Nat.add_sub_cancel' ordered] at contiguous'
      rw [get, show max start (min stop (manifest.blocks.length * manifest.blocksize)) =
        max middle (min stop (manifest.blocks.length * manifest.blocksize)) by omega]
      refine ⟨contiguous'.append contiguous, fun whole => ?_, fun behind => absurd bound behind.not_gt⟩
      replace content := content whole
      have stored : ∀ chunk ∈ chunks, chunk.Stored store :=
        fun chunk here => whole chunk (List.mem_flatten.mpr ⟨chunks, member, here⟩)
      clear empty
      generalize max middle (min stop (manifest.blocks.length * manifest.blocksize)) = finish at *
      have reach := contiguous.le
      rw [chunksContent_append, content' store stored, content, integrity.content_block whole found,
        List.drop_take, List.drop_drop, Nat.add_sub_cancel' lower, List.take_take, min_eq_left (by omega),
        show finish - start = (middle - start) + (finish - middle) by omega, List.take_add, List.drop_drop,
        Nat.add_sub_cancel' ordered]
    · -- Beyond the last block there are no chunks.
      have nothing : manifest.getChunks block = [] := by
        rw [LocalFileManifest.getChunks, List.getElem?_eq_none_iff.mpr beyond]
        rfl
      have past := Nat.mul_le_mul_right manifest.blocksize beyond
      rw [nothing, empty (by omega), show max start (min stop (manifest.blocks.length * manifest.blocksize)) =
        start by omega]
      exact ⟨rfl, by simp [blockRead, List.slice], fun _ => rfl⟩

/-- The chunks of a read follow each other through the range, as far as blocks go. -/
theorem FileIntegrity.contiguous_prepareRead
    (integrity : FileIntegrity manifest.blocksize manifest.size manifest.blocks)
    (positive : 0 < manifest.blocksize) (size offset : ℕ) :
    let start := min offset manifest.size
    Contiguous start (prepareRead manifest size offset)
      (max start (min (start + min size (manifest.size - start))
        (manifest.blocks.length * manifest.blocksize))) := by
  intro start
  have tiles := tiles_locateRange positive (Nat.le_add_right start (min size (manifest.size - start)))
  exact (@flatMap_blockRead_spec (fun _ => none) manifest integrity _ _ _ _ tiles (by omega)).1

/-- `prepare_read` finds the chunks that show the range of the file, as far as blocks go. -/
theorem FileIntegrity.prepareRead_spec
    (integrity : FileIntegrity manifest.blocksize manifest.size manifest.blocks)
    (positive : 0 < manifest.blocksize) (whole : ∀ chunk ∈ manifest.blocks.flatten, chunk.Stored store)
    (size offset : ℕ) :
    let start := min offset manifest.size
    let finish := max start (min (start + min size (manifest.size - start))
      (manifest.blocks.length * manifest.blocksize))
    Contiguous start (prepareRead manifest size offset) finish ∧
      chunksContent store (prepareRead manifest size offset) =
        ((fileContent store manifest.blocks).drop start).take (finish - start) := by
  intro start finish
  have tiles := tiles_locateRange positive (Nat.le_add_right start (min size (manifest.size - start)))
  obtain ⟨contiguous, content, -⟩ := flatMap_blockRead_spec integrity tiles (by omega)
  exact ⟨contiguous, content whole⟩

/-- The bytes of a range are those from where it starts in the file to where it stops there. -/
theorem ByteFile.read_eq (file : Bytes) (size offset : ℕ) : ByteFile.read file size offset =
    (file.drop (min offset file.length)).take (min size (file.length - min offset file.length)) := by
  rw [ByteFile.read]
  rcases le_total offset file.length with within | beyond
  · rw [min_eq_left within, ← List.length_drop, ← List.take_eq_take_min]
  · rw [List.drop_eq_nil_of_le beyond, min_eq_right beyond, List.drop_length, List.take_nil, List.take_nil]

/-- `prepare_read` finds the chunks that show what the byte array has in the range. -/
theorem prepareRead_spec
    (layout : FileLayout store manifest.blocksize manifest.size manifest.blocks)
    (positive : 0 < manifest.blocksize) (size offset : ℕ) :
    ∃ start stop, Contiguous start (prepareRead manifest size offset) stop ∧
      (∀ chunk ∈ prepareRead manifest size offset, chunk.Stored store) ∧
      chunksContent store (prepareRead manifest size offset) =
        ByteFile.read (fileContent store manifest.blocks) size offset := by
  have whole := layout.stored_flatten
  obtain ⟨contiguous, content⟩ := layout.integrity.prepareRead_spec positive whole size offset
  refine ⟨_, _, contiguous, fun chunk member => ?_, content.trans ?_⟩
  · obtain ⟨origin, found, id, rawSize, -⟩ := mem_prepareRead member
    rw [Chunk.Stored, id, rawSize]
    exact whole origin found
  · have last := layout.size_le
    rw [ByteFile.read_eq, layout.length_content]
    congr 1
    omega

end Read

section Reshape

variable {store : ChunkID → Option Bytes} {blocksize size block : ℕ} {blocks : List (List Chunk)}
  {chunks : List Chunk}

/-- A single chunk that shows what a block shows can take its place. -/
theorem FileLayout.reshape (layout : FileLayout store blocksize size blocks) (chunk : Chunk)
    (found : blocks[block]? = some chunks)
    (contiguous : Contiguous (block * blocksize) [chunk] (min ((block + 1) * blocksize) size))
    (proper : chunk.start < chunk.stop) (stored : chunk.Stored store)
    (shows : chunk.view store = chunksContent store chunks)
    (own : chunk.id ∈ fileIds blocks → chunk.id ∈ chunkIdSet chunks) :
    FileLayout store blocksize size (blocks.set block [chunk]) ∧
      fileContent store (blocks.set block [chunk]) = fileContent store blocks ∧
      ∀ id, id ∈ fileIds (blocks.set block [chunk]) ↔
        id = chunk.id ∨ (id ∈ fileIds blocks ∧ id ∉ chunkIdSet chunks) := by
  have bound : block < blocks.length := (List.getElem?_eq_some_iff.mp found).1
  have inside := (layout.exists_iff block).mp bound
  have start := contiguous.1
  have stop : chunk.stop = min ((block + 1) * blocksize) size := contiguous.2.2
  have replaced : blocks.set block [chunk] = replaceBlock blocks block [chunk] := by
    rw [replaceBlock, List.set_eq_take_append_cons_drop, if_pos bound]
  have ids : ∀ id, id ∈ chunkIdSet [chunk] ↔ id = chunk.id := by simp [chunkIdSet]
  have reach : max size chunk.stop = size := by omega
  have apart : ∀ (other : ℕ) right, other ≠ block → blocks[other]? = some right →
      Disjoint (chunkIdSet [chunk]) (chunkIdSet right) := by
    intro other right elsewhere there
    rw [Finset.disjoint_left]
    intro id member within
    rw [ids] at member
    subst member
    have known := own (mem_fileIds_iff.mpr ⟨other, right, there, within⟩)
    exact elsewhere (layout.block_unique there within found known)
  rw [replaced]
  refine ⟨?_, ?_, ?_⟩
  · have whole := layout.replace (by omega) (by omega) (by omega) (reach.symm ▸ contiguous)
      (by simpa [Proper] using proper) (by simpa using stored) apart bound.le
    rwa [reach] at whole
  · have width : (block + 1) * blocksize = block * blocksize + blocksize := by ring
    rw [layout.content_replace, chunksContent_cons, chunksContent_nil, List.append_nil, shows,
      layout.content_block found, width, List.append_assoc, ← List.drop_drop, List.take_append_drop,
      List.take_append_drop]
  · intro id
    rw [layout.mem_fileIds_replace bound.le, ids, found]
    rfl

/-- A block is a block already, or a pseudo-block, or it gets a new chunk. -/
theorem reshapeBlock_spec {start stop : ℕ} (contiguous : Contiguous start chunks stop)
    (occupied : start < stop) (id : ChunkID) :
    (∃ chunk, chunks = [chunk] ∧ chunk.isBlock ∧ reshapeBlock chunks id = .ok none) ∨
      (∃ chunk, chunks = [chunk] ∧ chunk.isPseudoBlock ∧ ¬ chunk.isBlock ∧
        reshapeBlock chunks id = .ok (some ⟨chunks, chunk, ∅⟩)) ∨
      reshapeBlock chunks id = .ok (some ⟨chunks, newChunk id start stop, chunkIdSet chunks⟩) := by
  have drawn : Chunk.new id start stop = .ok (newChunk id start stop) := by
    rw [Chunk.new, Except.require, if_pos occupied, Except.ok_bind]
    rfl
  rcases chunks with _ | ⟨chunk, _ | ⟨second, rest⟩⟩
  · cases contiguous
    omega
  · obtain ⟨rfl, -, rfl⟩ := contiguous
    by_cases already : chunk.isBlock
    · exact .inl ⟨chunk, rfl, already, by rw [reshapeBlock, if_pos already]⟩
    · by_cases aligned : chunk.isPseudoBlock
      · exact .inr (.inl ⟨chunk, rfl, aligned, already, by
          rw [reshapeBlock, if_neg already, if_pos aligned]⟩)
      · refine .inr (.inr ?_)
        rw [reshapeBlock, if_neg already, if_neg aligned, drawn]
        rfl
  · have last := contiguous.stop_getLastD
    rw [List.getLastD_cons] at last
    obtain ⟨rfl, -⟩ := contiguous
    refine .inr (.inr ?_)
    rw [reshapeBlock, List.getLastD_cons, last, drawn]
    rfl

/-- A pseudo-block only gets its access. -/
theorem prepares_access {manifest : LocalFileManifest} {chunk : Chunk} (nextId : ℕ)
    (layout : FileLayout store manifest.blocksize manifest.size manifest.blocks)
    (found : manifest.blocks[block]? = some [chunk]) (access : Option BlockAccess) (data : Bytes)
    (piece : Chunk → Bytes) :
    Prepares store manifest nextId data piece (fileContent store manifest.blocks)
      ⟨updateManifest block manifest { chunk with access := access }, [], ∅, nextId⟩ := by
  have member := List.mem_of_getElem? found
  obtain ⟨kept, content, ids⟩ := layout.reshape { chunk with access := access } found
    (layout.contiguous block [chunk] found) (layout.proper _ member chunk (by simp))
    (layout.stored _ member chunk (by simp)) (by simp [chunksContent, Chunk.view])
    (fun _ => by simp [chunkIdSet])
  constructor
  · rfl
  · exact le_rfl
  · intro operation written
    cases written
  · intro operation written
    cases written
  · exact kept
  · exact content
  · intro id
    have own : chunk.id ∈ fileIds manifest.blocks :=
      mem_fileIds.mpr ⟨[chunk], member, by simp [chunkIdSet]⟩
    rw [updateManifest, ids id]
    constructor
    · rintro (rfl | old)
      · exact .inr ⟨own, Finset.notMem_empty _⟩
      · exact .inr ⟨old.1, Finset.notMem_empty _⟩
    · rintro (⟨operation, written, -⟩ | old)
      · cases written
      · by_cases same : id = chunk.id
        · exact .inl same
        · exact .inr ⟨old.1, by simpa [chunkIdSet] using same⟩
  · exact Finset.empty_subset _

/-- Any other block is written as a whole, under a new id. -/
theorem prepares_newChunk {manifest : LocalFileManifest} {nextId start stop : ℕ}
    (layout : FileLayout store manifest.blocksize manifest.size manifest.blocks)
    (found : manifest.blocks[block]? = some chunks) (contiguous : Contiguous start chunks stop)
    (fresh : ∀ id ∈ fileIds manifest.blocks, id < nextId) (access : Option BlockAccess)
    (begins : start = block * manifest.blocksize)
    (ends : stop = min ((block + 1) * manifest.blocksize) manifest.size) (occupied : start < stop) :
    Prepares store manifest nextId (chunksContent store chunks) (fun _ => chunksContent store chunks)
      (fileContent store manifest.blocks)
      ⟨updateManifest block manifest { newChunk nextId start stop with access := access },
        [({ newChunk nextId start stop with access := access }, 0)], chunkIdSet chunks,
        nextId + 1⟩ := by
  have member := List.mem_of_getElem? found
  have length := contiguous.length_content (layout.stored chunks member)
  have agree : ∀ id ∈ fileIds manifest.blocks, Function.update store nextId
      (some (chunksContent store chunks)) id = store id := by
    intro id known
    exact Function.update_of_ne (fresh id known).ne _ _
  have own : chunkIdSet chunks ⊆ fileIds manifest.blocks := by
    intro id within
    exact mem_fileIds.mpr ⟨chunks, member, within⟩
  obtain ⟨moved, same⟩ := layout.congr agree
  have shows : chunksContent (Function.update store nextId (some (chunksContent store chunks))) chunks =
      chunksContent store chunks := by
    rw [moved.content_block found, same, ← layout.content_block found]
  have written : Function.update store nextId (some (chunksContent store chunks)) nextId =
      some (chunksContent store chunks) := Function.update_self _ _ _
  obtain ⟨kept, content, ids⟩ := moved.reshape
    { newChunk nextId start stop with access := access } found
    ⟨begins, ⟨le_rfl, occupied.le, by simp only [newChunk]; omega⟩, ends⟩ occupied
    ⟨_, written, length⟩ ((view_newChunk written length).trans shows.symm)
    (fun known => absurd (fresh _ known) (lt_irrefl nextId))
  constructor
  · rfl
  · exact Nat.le_succ nextId
  · intro operation member
    rw [List.mem_singleton.mp member]
    exact ⟨le_rfl, Nat.lt_succ_self nextId⟩
  · intro operation member
    rw [List.mem_singleton.mp member]
    exact paddedData_of_length length occupied.le
  · exact kept
  · exact content.trans same
  · intro id
    rw [updateManifest, ids id]
    simp [newChunk, eq_comm]
  · exact own

end Reshape

end Guardata
