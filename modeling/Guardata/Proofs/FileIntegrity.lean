import Guardata.Proofs.FileLayout
import Guardata.ToMathlib.Except

/-! # What `assert_integrity` checks

The blocks of a manifest that passes are not empty, start where blocks start and follow each other up
to the size. That is all: the last block may be longer than the others, blocks may share chunks, and
nothing is said about the data. A laid out file passes.
-/

namespace Guardata

/-- Where a block stops: at the start of the next one, or at the end of the file. -/
def blockStop (blocksize size : ℕ) (blocks : List (List Chunk)) (block : ℕ) : ℕ :=
  if block + 1 = blocks.length then size else (block + 1) * blocksize

/-- What is checked, block by block. -/
structure FileIntegrity (blocksize size : ℕ) (blocks : List (List Chunk)) : Prop where
  contiguous : ∀ (block : ℕ) chunks, blocks[block]? = some chunks →
    Contiguous (block * blocksize) chunks (blockStop blocksize size blocks block)
  occupied : ∀ chunks ∈ blocks, chunks ≠ []
  proper : ∀ chunks ∈ blocks, Proper chunks
  nothing : blocks = [] → size = 0

section Checks

variable {blocksize size : ℕ} {blocks : List (List Chunk)}

theorem assertChunks_eq_ok_iff {start stop : ℕ} {chunks : List Chunk} :
    LocalFileManifest.assertChunks start chunks = .ok stop ↔ Contiguous start chunks stop ∧
    Proper chunks := by
  induction chunks generalizing start with
  | nil => simp [LocalFileManifest.assertChunks, Contiguous, Proper]
  | cons chunk rest ih =>
    unfold LocalFileManifest.assertChunks at ih ⊢
    simp only [List.foldlM_cons, Except.bind_eq_ok_iff, Except.require_eq_ok_iff, Except.exists_done,
      Except.pure_eq_ok_iff, ih, Contiguous, Chunk.Within, Proper, List.forall_mem_cons]
    constructor
    · rintro ⟨next, ⟨same, positive, left, right, rfl⟩, contiguous, proper⟩
      exact ⟨⟨same, ⟨left, positive.le, right⟩, contiguous⟩, positive, proper⟩
    · rintro ⟨⟨same, ⟨left, -, right⟩, contiguous⟩, positive, proper⟩
      exact ⟨chunk.stop, ⟨same, positive, left, right, rfl⟩, contiguous, proper⟩

/-- The run lemma of the walk over the blocks from a position on. -/
private theorem walk_eq_ok_iff {position current stop : ℕ} :
    (blocks.zipIdx position).foldlM (fun current block => do
      Except.require (block.2 * blocksize = current) FileError.assertion
      Except.require (0 < block.1.length) FileError.assertion
      LocalFileManifest.assertChunks current block.1) current = .ok stop ↔
    current = (if blocks = [] then stop else position * blocksize) ∧
    ∀ (index : ℕ) chunks, blocks[index]? = some chunks → chunks ≠ [] ∧ Proper chunks ∧
      Contiguous ((position + index) * blocksize) chunks
        (if index + 1 = blocks.length then stop else (position + index + 1) * blocksize) := by
  induction blocks generalizing position current with
  | nil => simp
  | cons chunks rest ih =>
    simp only [List.zipIdx_cons, List.foldlM_cons, Except.bind_eq_ok_iff, Except.require_eq_ok_iff,
      Except.exists_done, assertChunks_eq_ok_iff, ih, reduceCtorEq, if_false, List.length_cons,
      Nat.add_right_cancel_iff]
    constructor
    · rintro ⟨next, ⟨rfl, occupied, contiguous, proper⟩, rfl, later⟩
      refine ⟨rfl, fun index block found => ?_⟩
      cases index with
      | zero =>
        obtain rfl : chunks = block := by simpa using found
        refine ⟨List.length_pos_iff.mp occupied, proper, ?_⟩
        cases rest <;> simpa using contiguous
      | succ index =>
        have there := later index block (by simpa using found)
        rwa [show position + (index + 1) = position + 1 + index by omega]
    · rintro ⟨rfl, blocks⟩
      obtain ⟨occupied, proper, contiguous⟩ := blocks 0 chunks rfl
      refine ⟨_, ⟨rfl, List.length_pos_iff.mpr occupied, by simpa using contiguous, proper⟩, ?_,
        fun index block found => ?_⟩
      · cases rest <;> simp
      · have there := blocks (index + 1) block (by simpa using found)
        rwa [show position + (index + 1) = position + 1 + index by omega] at there

/-- `assert_integrity` passes exactly on these manifests. -/
theorem assertIntegrity_eq_ok_iff {manifest : LocalFileManifest} : manifest.assertIntegrity = .ok () ↔
    FileIntegrity manifest.blocksize manifest.size manifest.blocks := by
  simp only [LocalFileManifest.assertIntegrity, Except.bind_eq_ok_iff, walk_eq_ok_iff,
    Except.require_eq_ok_iff]
  constructor
  · rintro ⟨_, ⟨begun, blocks⟩, rfl⟩
    refine ⟨fun block chunks found => ?_, fun chunks member => ?_, fun chunks member => ?_, fun nothing => ?_⟩
    · obtain ⟨-, -, contiguous⟩ := blocks block chunks found
      rwa [Nat.zero_add] at contiguous
    · obtain ⟨block, found⟩ := List.mem_iff_getElem?.mp member
      exact (blocks block chunks found).1
    · obtain ⟨block, found⟩ := List.mem_iff_getElem?.mp member
      exact (blocks block chunks found).2.1
    · rw [if_pos nothing] at begun
      exact begun.symm
  · intro integrity
    refine ⟨manifest.size, ⟨?_, fun block chunks found => ?_⟩, rfl⟩
    · split
      · next nothing => exact (integrity.nothing nothing).symm
      · rw [Nat.zero_mul]
    · have member := List.mem_of_getElem? found
      rw [Nat.zero_add]
      exact ⟨integrity.occupied chunks member, integrity.proper chunks member,
        integrity.contiguous block chunks found⟩

end Checks

namespace FileIntegrity

variable {store : ChunkID → Option Bytes} {blocksize size : ℕ} {blocks : List (List Chunk)}

/-- Up to a block, the chunks follow each other. -/
theorem contiguous_take (integrity : FileIntegrity blocksize size blocks) {block : ℕ}
    (bound : block < blocks.length) : Contiguous 0 (blocks.take block).flatten (block * blocksize) := by
  induction block with
  | zero => simp [Contiguous]
  | succ block ih =>
    have here := integrity.contiguous block _ (List.getElem?_eq_getElem (by omega))
    rw [blockStop, if_neg (by omega)] at here
    rw [List.take_succ_eq_append_getElem (by omega), List.flatten_append, List.flatten_singleton]
    exact (ih (by omega)).append here

theorem contiguous_flatten (integrity : FileIntegrity blocksize size blocks) :
    Contiguous 0 blocks.flatten size := by
  rcases List.eq_nil_or_concat blocks with rfl | ⟨front, last, rfl⟩
  · exact (integrity.nothing rfl).symm
  · rw [List.concat_eq_append] at integrity ⊢
    have before : Contiguous 0 ((front ++ [last]).take front.length).flatten (front.length * blocksize) :=
      integrity.contiguous_take (by simp)
    have here := integrity.contiguous front.length last (by simp)
    rw [blockStop, if_pos (by simp)] at here
    rw [List.take_left] at before
    rw [List.flatten_append, List.flatten_singleton]
    exact before.append here

/-- A block shows its own part of the bytes. -/
theorem content_block (integrity : FileIntegrity blocksize size blocks)
    (stored : ∀ chunk ∈ blocks.flatten, chunk.Stored store) {block : ℕ} {chunks : List Chunk}
    (found : blocks[block]? = some chunks) : chunksContent store chunks =
      ((fileContent store blocks).drop (block * blocksize)).take
        (blockStop blocksize size blocks block - block * blocksize) := by
  obtain ⟨bound, rfl⟩ := List.getElem?_eq_some_iff.mp found
  have all : blocks = blocks.take block ++ blocks[block] :: blocks.drop (block + 1) := by simp
  have storedIn : ∀ chunks ⊆ blocks, ∀ chunk ∈ chunks.flatten, chunk.Stored store := by
    intro chunks part chunk member
    obtain ⟨list, within, inside⟩ := List.mem_flatten.mp member
    exact stored chunk (List.mem_flatten.mpr ⟨list, part within, inside⟩)
  have before : (fileContent store (blocks.take block)).length = block * blocksize :=
    (integrity.contiguous_take bound).length_content (storedIn _ (List.take_subset _ _))
  have here : (chunksContent store blocks[block]).length =
      blockStop blocksize size blocks block - block * blocksize :=
    (integrity.contiguous block _ found).length_content fun chunk member =>
      stored chunk (List.mem_flatten.mpr ⟨_, List.getElem_mem bound, member⟩)
  have whole : fileContent store blocks = fileContent store (blocks.take block) ++
      (chunksContent store blocks[block] ++ fileContent store (blocks.drop (block + 1))) := by
    conv_lhs => rw [all]
    simp only [fileContent, List.flatten_append, List.flatten_cons, chunksContent_append]
  rw [← here, whole, ← before, List.drop_left, List.take_left]

theorem length_content (integrity : FileIntegrity blocksize size blocks)
    (stored : ∀ chunk ∈ blocks.flatten, chunk.Stored store) : (fileContent store blocks).length = size :=
  integrity.contiguous_flatten.length_content stored

end FileIntegrity

/-- A file of this shape passes. -/
theorem FileShape.integrity {blocksize size : ℕ} {blocks : List (List Chunk)}
    (shape : FileShape blocksize size blocks) : FileIntegrity blocksize size blocks where
  contiguous := by
    intro block chunks found
    have here := shape.contiguous block chunks found
    have bound := (List.getElem?_eq_some_iff.mp found).1
    have last := shape.size_le
    suffices stop : blockStop blocksize size blocks block = min ((block + 1) * blocksize) size by rwa [stop]
    unfold blockStop
    split
    · next ends =>
      rw [ends]
      exact (min_eq_right last).symm
    · next more => exact (min_eq_left ((shape.exists_iff (block + 1)).mp (by omega)).le).symm
  occupied := by
    rintro chunks member rfl
    obtain ⟨block, found⟩ := List.mem_iff_getElem?.mp member
    have inside := (shape.exists_iff block).mp (List.getElem?_eq_some_iff.mp found).1
    have here : block * blocksize = min ((block + 1) * blocksize) size := shape.contiguous block [] found
    have zero : blocksize = 0 := by
      rw [Nat.succ_mul] at here
      omega
    have last := shape.size_le
    rw [zero, Nat.mul_zero] at last inside
    omega
  proper := shape.proper
  nothing := by
    rintro rfl
    simpa using shape.size_le

theorem FileLayout.integrity {store : ChunkID → Option Bytes} {blocksize size : ℕ}
    {blocks : List (List Chunk)} (layout : FileLayout store blocksize size blocks) :
    FileIntegrity blocksize size blocks :=
  layout.shape.integrity

end Guardata
