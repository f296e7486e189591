import Mathlib.Tactic.Ring
import Guardata.Proofs.ChunkList

/-! # The layout of a file

A file is laid out in blocks of a fixed size, of which only the last may be shorter, and no two
blocks share a chunk id. What the blocks show is one run of bytes as long as the file. Replacing a
block, or appending one, replaces the bytes of that block; every change of a manifest is made of
such replacements.
-/

namespace Guardata

/-- The bytes that a list of blocks shows. -/
def fileContent (store : ChunkID → Option Bytes) (blocks : List (List Chunk)) : Bytes :=
  chunksContent store blocks.flatten

/-- The ids of the chunks of a file. -/
def fileIds (blocks : List (List Chunk)) : Finset ChunkID := chunkIdSet blocks.flatten

/-- How the blocks of a manifest lie in the file, whatever they show. -/
structure FileShape (blocksize size : ℕ) (blocks : List (List Chunk)) : Prop where
  exists_iff : ∀ block : ℕ, block < blocks.length ↔ block * blocksize < size
  contiguous : ∀ (block : ℕ) chunks, blocks[block]? = some chunks →
    Contiguous (block * blocksize) chunks (min ((block + 1) * blocksize) size)
  proper : ∀ chunks ∈ blocks, Proper chunks

/-- The invariant of a manifest over the data in a store. -/
structure FileLayout (store : ChunkID → Option Bytes) (blocksize size : ℕ)
    (blocks : List (List Chunk)) : Prop where
  exists_iff : ∀ block : ℕ, block < blocks.length ↔ block * blocksize < size
  contiguous : ∀ (block : ℕ) chunks, blocks[block]? = some chunks →
    Contiguous (block * blocksize) chunks (min ((block + 1) * blocksize) size)
  proper : ∀ chunks ∈ blocks, Proper chunks
  stored : ∀ chunks ∈ blocks, ∀ chunk ∈ chunks, chunk.Stored store
  apart : ∀ (first second : ℕ) left right, blocks[first]? = some left → blocks[second]? = some right →
    first ≠ second → Disjoint (chunkIdSet left) (chunkIdSet right)

theorem mem_fileIds {blocks : List (List Chunk)} {id : ChunkID} :
    id ∈ fileIds blocks ↔ ∃ chunks ∈ blocks, id ∈ chunkIdSet chunks := by
  simp only [fileIds, mem_chunkIdSet, List.mem_flatten]
  constructor
  · rintro ⟨chunk, ⟨chunks, member, found⟩, same⟩
    exact ⟨chunks, member, chunk, found, same⟩
  · rintro ⟨chunks, member, chunk, found, same⟩
    exact ⟨chunk, ⟨chunks, member, found⟩, same⟩

theorem mem_fileIds_iff {blocks : List (List Chunk)} {id : ChunkID} : id ∈ fileIds blocks ↔
    ∃ (block : ℕ) (chunks : List Chunk), blocks[block]? = some chunks ∧ id ∈ chunkIdSet chunks := by
  rw [mem_fileIds]
  constructor
  · rintro ⟨chunks, member, found⟩
    obtain ⟨block, stands⟩ := List.mem_iff_getElem?.mp member
    exact ⟨block, chunks, stands, found⟩
  · rintro ⟨block, chunks, stands, found⟩
    exact ⟨chunks, List.mem_of_getElem? stands, found⟩

theorem mem_fileIds_take {blocks : List (List Chunk)} {count : ℕ} {id : ChunkID} :
    id ∈ fileIds (blocks.take count) ↔ ∃ (block : ℕ) (chunks : List Chunk), block < count ∧
      blocks[block]? = some chunks ∧ id ∈ chunkIdSet chunks := by
  rw [mem_fileIds_iff]
  constructor
  · rintro ⟨block, chunks, stands, found⟩
    rw [List.getElem?_take] at stands
    split at stands
    · next before => exact ⟨block, chunks, before, stands, found⟩
    · cases stands
  · rintro ⟨block, chunks, before, stands, found⟩
    exact ⟨block, chunks, by rw [List.getElem?_take_of_lt before, stands], found⟩

theorem mem_fileIds_drop {blocks : List (List Chunk)} {count : ℕ} {id : ChunkID} :
    id ∈ fileIds (blocks.drop count) ↔ ∃ (block : ℕ) (chunks : List Chunk), count ≤ block ∧
      blocks[block]? = some chunks ∧ id ∈ chunkIdSet chunks := by
  rw [mem_fileIds_iff]
  constructor
  · rintro ⟨block, chunks, stands, found⟩
    rw [List.getElem?_drop] at stands
    exact ⟨count + block, chunks, by omega, stands, found⟩
  · rintro ⟨block, chunks, behind, stands, found⟩
    refine ⟨block - count, chunks, ?_, found⟩
    rw [List.getElem?_drop, Nat.add_sub_cancel' behind, stands]

namespace FileShape

variable {blocksize size : ℕ} {blocks : List (List Chunk)}

theorem size_le (shape : FileShape blocksize size blocks) : size ≤ blocks.length * blocksize := by
  by_contra beyond
  exact lt_irrefl _ ((shape.exists_iff blocks.length).mpr (by omega))

theorem size_le_of_length_le (shape : FileShape blocksize size blocks) {block : ℕ}
    (beyond : blocks.length ≤ block) : size ≤ block * blocksize :=
  shape.size_le.trans (Nat.mul_le_mul_right _ beyond)

/-- The next block may not be there yet; then it is empty. -/
theorem contiguous_getD (shape : FileShape blocksize size blocks) {block : ℕ}
    (reach : block * blocksize ≤ size) : Contiguous (block * blocksize) (blocks[block]?.getD [])
      (min ((block + 1) * blocksize) size) := by
  cases found : blocks[block]? with
  | some chunks => exact shape.contiguous block chunks found
  | none =>
    have last := shape.size_le_of_length_le (List.getElem?_eq_none_iff.mp found)
    have := Nat.mul_le_mul_right blocksize (show block ≤ block + 1 by omega)
    exact (by omega : block * blocksize = min ((block + 1) * blocksize) size)

theorem block_le_length (shape : FileShape blocksize size blocks) (positive : 0 < blocksize)
    {block : ℕ} (reach : block * blocksize ≤ size) : block ≤ blocks.length := by
  by_contra beyond
  have := Nat.mul_lt_mul_of_pos_right (Nat.lt_of_not_le beyond) positive
  have := shape.size_le
  omega

theorem proper_getD (shape : FileShape blocksize size blocks) (block : ℕ) :
    Proper (blocks[block]?.getD []) := by
  cases found : blocks[block]? with
  | some chunks => exact shape.proper chunks (List.mem_of_getElem? found)
  | none => exact fun chunk member => by cases member

end FileShape

namespace FileLayout

variable {store : ChunkID → Option Bytes} {blocksize size : ℕ} {blocks : List (List Chunk)}

theorem shape (layout : FileLayout store blocksize size blocks) : FileShape blocksize size blocks :=
  ⟨layout.exists_iff, layout.contiguous, layout.proper⟩

/-- An id belongs to one block. -/
theorem block_unique (layout : FileLayout store blocksize size blocks) {first second : ℕ}
    {left right : List Chunk} {id : ChunkID} (foundLeft : blocks[first]? = some left)
    (memberLeft : id ∈ chunkIdSet left) (foundRight : blocks[second]? = some right)
    (memberRight : id ∈ chunkIdSet right) : first = second := by
  by_contra different
  exact Finset.disjoint_left.mp (layout.apart _ _ _ _ foundLeft foundRight different) memberLeft
    memberRight

theorem empty (store : ChunkID → Option Bytes) (blocksize : ℕ) : FileLayout store blocksize 0 [] where
  exists_iff := by simp
  contiguous := by simp
  proper := by simp
  stored := by simp
  apart := by simp

theorem stored_flatten (layout : FileLayout store blocksize size blocks) :
    ∀ chunk ∈ blocks.flatten, chunk.Stored store := by
  intro chunk member
  obtain ⟨chunks, found, member⟩ := List.mem_flatten.mp member
  exact layout.stored chunks found chunk member

/-- Two stores with the same data under the ids of the file have the same layout in common. -/
theorem congr (layout : FileLayout store blocksize size blocks) {other : ChunkID → Option Bytes}
    (agree : ∀ id ∈ fileIds blocks, other id = store id) :
    FileLayout other blocksize size blocks ∧ fileContent other blocks = fileContent store blocks := by
  have same : ∀ chunk ∈ blocks.flatten, other chunk.id = store chunk.id :=
    fun chunk member => agree _ (mem_chunkIdSet.mpr ⟨chunk, member, rfl⟩)
  refine ⟨⟨layout.exists_iff, layout.contiguous, layout.proper, ?_, layout.apart⟩, ?_⟩
  · intro chunks found chunk member
    rw [Chunk.Stored, same chunk (List.mem_flatten.mpr ⟨chunks, found, member⟩)]
    exact layout.stored chunks found chunk member
  · rw [fileContent, chunksContent, fileContent, chunksContent, List.flatMap_def, List.flatMap_def,
      List.map_congr_left]
    intro chunk member
    rw [Chunk.view, Chunk.view, same chunk member]

theorem contiguous_take (layout : FileLayout store blocksize size blocks) {block : ℕ}
    (bound : block ≤ blocks.length) :
    Contiguous 0 (blocks.take block).flatten (min (block * blocksize) size) := by
  induction block with
  | zero => simp [Contiguous]
  | succ block ih =>
    have inside := (layout.exists_iff block).mp bound
    have here := layout.contiguous block _ (List.getElem?_eq_getElem bound)
    have before := ih (by omega)
    rw [min_eq_left inside.le] at before
    rw [List.take_succ_eq_append_getElem bound, List.flatten_append, List.flatten_singleton]
    exact before.append here

theorem size_le (layout : FileLayout store blocksize size blocks) : size ≤ blocks.length * blocksize :=
  layout.shape.size_le

theorem contiguous_flatten (layout : FileLayout store blocksize size blocks) :
    Contiguous 0 blocks.flatten size := by
  have whole := layout.contiguous_take le_rfl
  rwa [List.take_length, min_eq_right layout.size_le] at whole

@[simp] theorem length_content (layout : FileLayout store blocksize size blocks) :
    (fileContent store blocks).length = size :=
  layout.contiguous_flatten.length_content layout.stored_flatten

private theorem content_split (block : ℕ) : fileContent store blocks =
    fileContent store (blocks.take block) ++ fileContent store (blocks.drop block) := by
  rw [fileContent, fileContent, fileContent, ← chunksContent_append, ← List.flatten_append,
    List.take_append_drop]

private theorem length_content_take (layout : FileLayout store blocksize size blocks) {block : ℕ}
    (bound : block < blocks.length) :
    (fileContent store (blocks.take block)).length = block * blocksize := by
  have inside := (layout.exists_iff block).mp bound
  have contiguous := layout.contiguous_take bound.le
  rw [min_eq_left inside.le] at contiguous
  rw [fileContent, contiguous.length_content, Nat.sub_zero]
  intro chunk member
  obtain ⟨chunks, found, member⟩ := List.mem_flatten.mp member
  exact layout.stored chunks (List.take_subset _ _ found) chunk member

/-- The first blocks show the first bytes. -/
theorem content_take (layout : FileLayout store blocksize size blocks) (block : ℕ) :
    fileContent store (blocks.take block) = (fileContent store blocks).take (block * blocksize) := by
  rcases lt_or_ge block blocks.length with bound | beyond
  · conv_rhs => rw [content_split block, ← layout.length_content_take bound, List.take_left]
  · rw [List.take_of_length_le beyond, List.take_of_length_le]
    rw [layout.length_content]
    exact layout.shape.size_le_of_length_le beyond

/-- The later blocks show the later bytes. -/
theorem content_drop (layout : FileLayout store blocksize size blocks) (block : ℕ) :
    fileContent store (blocks.drop block) = (fileContent store blocks).drop (block * blocksize) := by
  rcases lt_or_ge block blocks.length with bound | beyond
  · conv_rhs => rw [content_split block, ← layout.length_content_take bound, List.drop_left]
  · rw [List.drop_eq_nil_of_le beyond, List.drop_eq_nil_of_le]
    · rfl
    · rw [layout.length_content]
      exact layout.shape.size_le_of_length_le beyond

/-- A block shows its own part of the bytes. -/
theorem content_block (layout : FileLayout store blocksize size blocks) {block : ℕ}
    {chunks : List Chunk} (found : blocks[block]? = some chunks) :
    chunksContent store chunks =
      ((fileContent store blocks).drop (block * blocksize)).take blocksize := by
  obtain ⟨bound, rfl⟩ := List.getElem?_eq_some_iff.mp found
  have length : (chunksContent store blocks[block]).length =
      min ((block + 1) * blocksize) size - block * blocksize :=
    (layout.contiguous block _ found).length_content (layout.stored _ (List.getElem_mem bound))
  have later := layout.content_drop (block + 1)
  rw [← layout.content_drop, List.drop_eq_getElem_cons bound]
  simp only [fileContent, List.flatten_cons, chunksContent_append]
  have step : (block + 1) * blocksize = block * blocksize + blocksize := by ring
  rcases le_total ((block + 1) * blocksize) size with whole | short
  · rw [min_eq_left whole] at length
    rw [List.take_append_of_le_length (by omega), List.take_of_length_le (by omega)]
  · -- A block that is cut off by the end of the file is the last one.
    have nothing : chunksContent store (blocks.drop (block + 1)).flatten = [] := by
      rw [fileContent] at later
      rw [later, List.drop_eq_nil_of_le]
      rw [layout.length_content]
      exact short
    rw [min_eq_right short] at length
    rw [nothing, List.append_nil, List.take_of_length_le (by omega)]

theorem content_getD (layout : FileLayout store blocksize size blocks) (block : ℕ) :
    chunksContent store (blocks[block]?.getD []) =
      ((fileContent store blocks).drop (block * blocksize)).take blocksize := by
  cases found : blocks[block]? with
  | some chunks => exact layout.content_block found
  | none =>
    have last := layout.shape.size_le_of_length_le (List.getElem?_eq_none_iff.mp found)
    rw [List.drop_eq_nil_of_le (by rw [layout.length_content]; exact last), List.take_nil]
    rfl

theorem stored_getD (layout : FileLayout store blocksize size blocks) (block : ℕ) :
    ∀ chunk ∈ blocks[block]?.getD [], chunk.Stored store := by
  cases found : blocks[block]? with
  | some chunks => exact layout.stored chunks (List.mem_of_getElem? found)
  | none => exact fun chunk member => by cases member

theorem apart_getD (layout : FileLayout store blocksize size blocks) {block other : ℕ}
    {right : List Chunk} (different : other ≠ block) (found : blocks[other]? = some right) :
    Disjoint (chunkIdSet (blocks[block]?.getD [])) (chunkIdSet right) := by
  cases here : blocks[block]? with
  | some chunks => exact layout.apart block other chunks right here found different.symm
  | none => exact Finset.disjoint_empty_left _

end FileLayout

theorem chunkIdSet_getD_subset (blocks : List (List Chunk)) (block : ℕ) :
    chunkIdSet (blocks[block]?.getD []) ⊆ fileIds blocks := by
  intro id member
  cases found : blocks[block]? with
  | some chunks =>
    rw [found] at member
    exact mem_fileIds.mpr ⟨chunks, List.mem_of_getElem? found, member⟩
  | none =>
    rw [found] at member
    simp [chunkIdSet] at member

/-- A block in the place of another, or behind the last one. -/
def replaceBlock (blocks : List (List Chunk)) (block : ℕ) (chunks : List Chunk) : List (List Chunk) :=
  blocks.take block ++ chunks :: blocks.drop (block + 1)

section Replace

variable {blocks : List (List Chunk)} {block : ℕ} {chunks : List Chunk}

theorem setBlock_eq (bound : block ≤ blocks.length) :
    setBlock blocks block chunks = .ok (replaceBlock blocks block chunks) := by
  unfold setBlock replaceBlock
  split
  · next last => rw [List.take_of_length_le last.le, List.drop_eq_nil_of_le (by omega)]
  · next inner =>
    have inside : block < blocks.length := by omega
    rw [if_pos inside, List.set_eq_take_append_cons_drop, if_pos inside]

theorem length_replaceBlock (bound : block ≤ blocks.length) :
    (replaceBlock blocks block chunks).length = max blocks.length (block + 1) := by
  simp only [replaceBlock, List.length_append, List.length_take, List.length_cons, List.length_drop]
  omega

theorem getElem?_replaceBlock (bound : block ≤ blocks.length) (other : ℕ) :
    (replaceBlock blocks block chunks)[other]? =
      if other = block then some chunks else blocks[other]? := by
  have length : (blocks.take block).length = block := by simp [bound]
  rcases lt_trichotomy other block with before | rfl | after
  · rw [replaceBlock, List.getElem?_append_left (by omega), List.getElem?_take_of_lt before,
      if_neg (by omega)]
  · rw [replaceBlock, List.getElem?_append_right (by omega), length, Nat.sub_self, if_pos rfl]
    rfl
  · rw [replaceBlock, List.getElem?_append_right (by omega), length, if_neg (by omega)]
    obtain ⟨offset, rfl⟩ := Nat.exists_eq_add_of_lt after
    rw [show block + offset + 1 - block = offset + 1 by omega, List.getElem?_cons_succ,
      List.getElem?_drop]
    congr 1
    omega

/-- A block behind the blocks before it. -/
theorem replaceBlock_take (bound : block ≤ blocks.length) :
    replaceBlock (blocks.take block) block chunks = blocks.take block ++ [chunks] := by
  rw [replaceBlock, List.take_take, min_self, List.drop_eq_nil_of_le]
  rw [List.length_take]
  omega

theorem mem_replaceBlock {other : List Chunk} (member : other ∈ replaceBlock blocks block chunks) :
    other = chunks ∨ other ∈ blocks := by
  rcases List.mem_append.mp member with before | after
  · exact .inr (List.take_subset _ _ before)
  · rcases List.mem_cons.mp after with rfl | after
    · exact .inl rfl
    · exact .inr (List.drop_subset _ _ after)

namespace FileShape

variable {blocksize size stop : ℕ}

/-- The step lemma: a block that fits in its place, up to a new end of the file, keeps the
shape. -/
theorem replace (shape : FileShape blocksize size blocks) (reach : block * blocksize ≤ size)
    (lower : block * blocksize < stop) (upper : stop ≤ (block + 1) * blocksize)
    (contiguous : Contiguous (block * blocksize) chunks (min ((block + 1) * blocksize) (max size stop)))
    (proper : Proper chunks) (bound : block ≤ blocks.length) :
    FileShape blocksize (max size stop) (replaceBlock blocks block chunks) where
  exists_iff := by
    intro other
    rw [length_replaceBlock bound]
    have existing := shape.exists_iff other
    rcases le_or_gt other block with before | after
    · have := Nat.mul_le_mul_right blocksize before
      exact iff_of_true (by omega) (by omega)
    · have := Nat.mul_le_mul_right blocksize (show block + 1 ≤ other from after)
      omega
  contiguous := by
    intro other found member
    rw [getElem?_replaceBlock bound] at member
    split at member
    · next here => cases member; rw [here]; exact contiguous
    · next elsewhere =>
      have old := shape.contiguous other found member
      have inside := (shape.exists_iff other).mp (List.getElem?_eq_some_iff.mp member).1
      have same : min ((other + 1) * blocksize) (max size stop) =
          min ((other + 1) * blocksize) size := by
        rcases lt_or_gt_of_ne elsewhere with before | after
        · have := Nat.mul_le_mul_right blocksize (show other + 1 ≤ block from before)
          omega
        · have := Nat.mul_le_mul_right blocksize (show block + 1 ≤ other from after)
          omega
      rwa [same]
  proper := by
    intro other member
    rcases mem_replaceBlock member with rfl | old
    · exact proper
    · exact shape.proper other old

/-- Whole blocks from the start keep the shape. -/
theorem take (shape : FileShape blocksize size blocks) (block : ℕ)
    (inside : block * blocksize ≤ size) (positive : 0 < blocksize) (bound : block ≤ blocks.length) :
    FileShape blocksize (block * blocksize) (blocks.take block) where
  exists_iff := by
    intro other
    rw [List.length_take, min_eq_left bound]
    exact (Nat.mul_lt_mul_right positive).symm
  contiguous := by
    intro other found member
    have before : other < block := by
      have := (List.getElem?_eq_some_iff.mp member).1
      rw [List.length_take] at this
      omega
    rw [List.getElem?_take_of_lt before] at member
    have old := shape.contiguous other found member
    have whole := Nat.mul_le_mul_right blocksize (show other + 1 ≤ block from before)
    rw [min_eq_left whole]
    rwa [min_eq_left (whole.trans inside)] at old
  proper := fun other member => shape.proper other (List.take_subset _ _ member)

end FileShape

namespace FileLayout

variable {store : ChunkID → Option Bytes} {blocksize size stop : ℕ}

/-- A block that fits in its place, with ids of its own and with its data in the store, keeps the
layout. -/
theorem replace (layout : FileLayout store blocksize size blocks) (reach : block * blocksize ≤ size)
    (lower : block * blocksize < stop) (upper : stop ≤ (block + 1) * blocksize)
    (contiguous : Contiguous (block * blocksize) chunks (min ((block + 1) * blocksize) (max size stop)))
    (proper : Proper chunks) (stored : ∀ chunk ∈ chunks, chunk.Stored store)
    (fresh : ∀ other right, other ≠ block → blocks[other]? = some right →
      Disjoint (chunkIdSet chunks) (chunkIdSet right)) (bound : block ≤ blocks.length) :
    FileLayout store blocksize (max size stop) (replaceBlock blocks block chunks) where
  exists_iff := (layout.shape.replace reach lower upper contiguous proper bound).exists_iff
  contiguous := (layout.shape.replace reach lower upper contiguous proper bound).contiguous
  proper := (layout.shape.replace reach lower upper contiguous proper bound).proper
  stored := by
    intro other member
    rcases mem_replaceBlock member with rfl | old
    · exact stored
    · exact layout.stored other old
  apart := by
    intro first second left right foundLeft foundRight different
    rw [getElem?_replaceBlock bound] at foundLeft foundRight
    split at foundLeft <;> split at foundRight
    · omega
    · next other => cases foundLeft; exact fresh second right other foundRight
    · next other _ => cases foundRight; exact (fresh first left other foundLeft).symm
    · exact layout.apart first second left right foundLeft foundRight different

/-- The bytes of the block are replaced, and no others. -/
theorem content_replace (layout : FileLayout store blocksize size blocks) :
    fileContent store (replaceBlock blocks block chunks) =
      (fileContent store blocks).take (block * blocksize) ++ chunksContent store chunks ++
        (fileContent store blocks).drop ((block + 1) * blocksize) := by
  rw [← layout.content_take, ← layout.content_drop]
  simp [fileContent, replaceBlock]

/-- The ids of the block are replaced, and no others. -/
theorem mem_fileIds_replace (layout : FileLayout store blocksize size blocks)
    (bound : block ≤ blocks.length) {id : ChunkID} :
    id ∈ fileIds (replaceBlock blocks block chunks) ↔ id ∈ chunkIdSet chunks ∨
      (id ∈ fileIds blocks ∧ id ∉ chunkIdSet (blocks[block]?.getD [])) := by
  rw [mem_fileIds_iff, mem_fileIds_iff]
  constructor
  · rintro ⟨index, part, stands, found⟩
    rw [getElem?_replaceBlock bound] at stands
    split at stands
    · cases stands; exact .inl found
    · next elsewhere =>
      refine .inr ⟨⟨index, part, stands, found⟩, fun inside => ?_⟩
      cases here : blocks[block]? with
      | none => rw [here] at inside; simp [chunkIdSet] at inside
      | some old =>
        rw [here] at inside
        exact elsewhere (layout.block_unique stands found here inside)
  · rintro (new | ⟨⟨index, part, stands, found⟩, outside⟩)
    · exact ⟨block, chunks, by rw [getElem?_replaceBlock bound, if_pos rfl], new⟩
    · refine ⟨index, part, ?_, found⟩
      rw [getElem?_replaceBlock bound, if_neg, stands]
      rintro rfl
      rw [stands] at outside
      exact outside found

/-- Whole blocks from the start keep the layout. -/
theorem take (layout : FileLayout store blocksize size blocks) (block : ℕ)
    (inside : block * blocksize ≤ size) (positive : 0 < blocksize) (bound : block ≤ blocks.length) :
    FileLayout store blocksize (block * blocksize) (blocks.take block) where
  exists_iff := (layout.shape.take block inside positive bound).exists_iff
  contiguous := (layout.shape.take block inside positive bound).contiguous
  proper := (layout.shape.take block inside positive bound).proper
  stored := fun other member => layout.stored other (List.take_subset _ _ member)
  apart := by
    intro first second left right foundLeft foundRight different
    have old : ∀ (index : ℕ) part, (blocks.take block)[index]? = some part → blocks[index]? = some part := by
      intro index part found
      have before := (List.getElem?_eq_some_iff.mp found).1
      rw [List.length_take] at before
      rwa [List.getElem?_take_of_lt (by omega)] at found
    exact layout.apart first second left right (old _ _ foundLeft) (old _ _ foundRight) different

end FileLayout

end Replace

end Guardata
