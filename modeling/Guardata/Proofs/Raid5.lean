import Mathlib.Data.List.ReduceOption
import Mathlib.Algebra.Order.Ring.Nat
import Guardata.ToMathlib.Parity
import Guardata.Model.Raid5

/-! # Chunks and their checksum

A block is read back from its chunks, and from all but one of them and the checksum.
-/

namespace Guardata

/-- The xor of buffers of one length. -/
def xorAll (length : ℕ) (buffers : List Bytes) : Bytes := List.parity (· ^^^ ·) 0 length buffers

section Xor

variable {length : ℕ} {buffers : List Bytes}

theorem xorBuffers_eq_ok (some : buffers ≠ []) (same : ∀ buffer ∈ buffers, buffer.length = length) :
    xorBuffers buffers = .ok (xorAll length buffers) := by
  obtain ⟨first, rest, rfl⟩ := List.exists_cons_of_ne_nil some
  have sized : first.length = length := same first (List.mem_cons_self ..)
  have folds (start : Bytes) : rest.foldlM (fun xored buff => do
      Except.require (buff.length = first.length) BlockError.assertion
      return xorBytes xored buff) start = .ok (rest.foldl xorBytes start) := by
    have all : ∀ buffer ∈ rest, buffer.length = first.length :=
      fun buffer member => (same buffer (List.mem_cons_of_mem _ member)).trans sized.symm
    clear some same
    induction rest generalizing start with
    | nil => rfl
    | cons buffer rest ih =>
      have here : buffer.length = first.length := all buffer (List.mem_cons_self ..)
      rw [List.foldlM_cons, Except.require, if_pos here, Except.ok_bind, pure_bind]
      exact ih _ fun other member => all other (List.mem_cons_of_mem _ member)
  rw [xorBuffers, folds first]
  exact congrArg _ (List.foldl_zipWith_eq_parity (fun value => UInt8.zero_xor) sized rest)

end Xor

section Header

/-- The length of a block is read back. -/
theorem unpackUint32_packUint32 {number : ℕ} {header : Bytes} (packed : packUint32 number = .ok header) :
    header.length = 4 ∧ unpackUint32 header = .ok number := by
  simp only [packUint32, Except.bind_eq_ok_iff, Except.require_eq_ok_iff, Except.pure_eq_ok_iff,
    exists_const] at packed
  obtain ⟨small, rfl⟩ := packed
  refine ⟨rfl, ?_⟩
  simp only [List.map, unpackUint32, UInt8.toNat_ofNat', Except.ok.injEq]
  omega

end Header

section Chunks

/-- Consecutive slices add up. -/
theorem flatten_map_slice {α : Type*} (list : List α) (length count : ℕ) :
    ((List.range count).map fun index => (list.drop (length * index)).take length).flatten =
      list.take (length * count) := by
  induction count with
  | zero => simp
  | succ count ih =>
    rw [List.range_succ, List.map_append, List.flatten_append, ih, Nat.mul_succ, List.take_add]
    simp

/-- The chunks have one length and add up to the header, the block and some padding. -/
theorem of_splitBlockInChunks {block : Bytes} {nbChunks : ℕ} {chunks : List Bytes}
    (split : splitBlockInChunks block nbChunks = .ok chunks) :
    chunks.length = nbChunks ∧ (∃ length, ∀ chunk ∈ chunks, chunk.length = length) ∧
      ∃ header padding, packUint32 block.length = .ok header ∧
        chunks.flatten = header ++ block ++ padding := by
  simp only [splitBlockInChunks, Except.bind_eq_ok_iff, Except.require_eq_ok_iff, Except.pure_eq_ok_iff,
    exists_const] at split
  obtain ⟨positive, header, packed, rfl⟩ := split
  have headed : header.length = 4 := (unpackUint32_packUint32 packed).1
  generalize sized : (if nbChunks * ((block.length + 4) / nbChunks) < block.length + 4 then
    (block.length + 4) / nbChunks + 1 else (block.length + 4) / nbChunks) = chunkLen
  have enough : block.length + 4 ≤ chunkLen * nbChunks := by
    have covers := Nat.lt_mul_div_succ (block.length + 4) (Nat.pos_of_ne_zero positive)
    split at sized
    · subst sized
      rw [Nat.mul_comm]
      exact covers.le
    · subst sized
      rw [Nat.mul_comm]
      omega
  have full : (header ++ block ++ List.replicate (chunkLen * nbChunks - (block.length + 4)) 0).length =
      chunkLen * nbChunks := by
    simp only [List.length_append, headed, List.length_replicate]
    omega
  refine ⟨by simp, ⟨chunkLen, ?_⟩, header,
    List.replicate (chunkLen * nbChunks - (block.length + 4)) 0, packed, ?_⟩
  · intro chunk member
    obtain ⟨index, below, rfl⟩ := List.mem_map.mp member
    have within : chunkLen * (index + 1) ≤ chunkLen * nbChunks :=
      Nat.mul_le_mul_left _ (List.mem_range.mp below)
    rw [List.length_take, List.length_drop, full]
    rw [Nat.mul_succ] at within
    omega
  · rw [flatten_map_slice, List.take_of_length_le full.le]

theorem reduceOption_map_some {α : Type*} (list : List α) : (list.map some).reduceOption = list := by
  simp [List.reduceOption, List.filterMap_map]

/-- A block is read back from its chunks, once they are all there. -/
theorem rebuild_of_flatten {block : Bytes} {chunks : List Bytes} {header padding : Bytes}
    (packed : packUint32 block.length = .ok header) (joined : chunks.flatten = header ++ block ++ padding)
    {given : List (Option Bytes)} {checksum : Option Bytes}
    (few : given.length - given.reduceOption.length ≤ 1)
    (corrected : correctChunks given checksum = .ok (chunks.map some)) :
    rebuildBlockFromChunks given checksum = .ok block := by
  obtain ⟨headed, unpacked⟩ := unpackUint32_packUint32 packed
  rw [rebuildBlockFromChunks, Except.require, if_pos few, Except.ok_bind, corrected, Except.ok_bind,
    reduceOption_map_some, joined, List.append_assoc]
  dsimp only
  rw [← headed, List.take_left, List.drop_left, unpacked, Except.ok_bind, List.take_left]
  rfl

/-- Nothing is missing. -/
theorem rebuild_map_some {block : Bytes} {nbChunks : ℕ} {chunks : List Bytes}
    (split : splitBlockInChunks block nbChunks = .ok chunks) (checksum : Option Bytes) :
    rebuildBlockFromChunks (chunks.map some) checksum = .ok block := by
  obtain ⟨-, -, header, padding, packed, joined⟩ := of_splitBlockInChunks split
  refine rebuild_of_flatten packed joined (by simp [reduceOption_map_some]) ?_
  have complete : (chunks.map some).findIdx? Option.isNone = none := by simp
  rw [correctChunks, complete]

/-- Chunks with one of them missing. -/
theorem reduceOption_set_none {α : Type*} (list : List α) (index : ℕ) :
    ((list.map some).set index none).reduceOption = list.eraseIdx index := by
  induction list generalizing index with
  | nil => simp
  | cons head rest ih =>
    cases index with
    | zero => simp [reduceOption_map_some]
    | succ index => simpa using ih index

theorem findIdx?_set_none {α : Type*} (list : List α) {index : ℕ} (inside : index < list.length) :
    ((list.map some).set index none).findIdx? Option.isNone = some index := by
  induction list generalizing index with
  | nil => cases inside
  | cons head rest ih =>
    cases index with
    | zero => simp [List.findIdx?_cons]
    | succ index => simpa [List.findIdx?_cons] using ih (Nat.lt_of_succ_lt_succ inside)

/-- One chunk is missing, and the checksum makes up for it. -/
theorem rebuild_set_none {block : Bytes} {nbChunks : ℕ} {chunks : List Bytes} {checksum : Bytes}
    (split : splitBlockInChunks block nbChunks = .ok chunks)
    (checked : generateChecksumChunk chunks = .ok checksum) {index : ℕ} (inside : index < chunks.length) :
    rebuildBlockFromChunks ((chunks.map some).set index none) (some checksum) = .ok block := by
  obtain ⟨-, ⟨length, same⟩, header, padding, packed, joined⟩ := of_splitBlockInChunks split
  have others : ∀ chunk ∈ chunks.eraseIdx index, chunk.length = length :=
    fun chunk member => same chunk (List.mem_of_mem_eraseIdx member)
  have permuted : chunks.Perm (chunks[index] :: chunks.eraseIdx index) :=
    (List.getElem_cons_eraseIdx_perm inside).symm
  have isChecksum : checksum = xorAll length (chunks[index] :: chunks.eraseIdx index) := by
    have nonempty : chunks ≠ [] := List.ne_nil_of_length_pos (Nat.zero_lt_of_lt inside)
    rw [generateChecksumChunk, xorBuffers_eq_ok nonempty same] at checked
    rw [← Except.ok.inj checked]
    exact List.parity_perm permuted
  have sized : checksum.length = length := by
    rw [isChecksum]
    exact List.length_parity fun chunk member => same chunk (permuted.symm.subset member)
  have recovered : xorBuffers (chunks.eraseIdx index ++ [checksum]) = .ok chunks[index] := by
    have all : ∀ buffer ∈ chunks.eraseIdx index ++ [checksum], buffer.length = length := by
      intro buffer member
      rcases List.mem_append.mp member with other | last
      · exact others buffer other
      · rw [List.mem_singleton.mp last, sized]
    rw [xorBuffers_eq_ok (by simp) all, isChecksum]
    exact congrArg _ (List.parity_recovers (fun value => UInt8.zero_xor) (fun value => UInt8.xor_self)
      (same _ (List.getElem_mem inside)) others)
  refine rebuild_of_flatten packed joined ?_ ?_
  · rw [reduceOption_set_none, List.length_eraseIdx_of_lt inside]
    simp only [List.length_set, List.length_map]
    omega
  · rw [correctChunks, findIdx?_set_none chunks inside]
    simp only [Option.elim, Except.ok_bind, reduceOption_set_none, recovered]
    rw [List.set_set, ← List.map_set, List.set_getElem_self]
    rfl

end Chunks

end Guardata
