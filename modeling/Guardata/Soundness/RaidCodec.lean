import Guardata.Proofs.Raid5

/-! # The RAID5 codec

The xor over integers is the xor over bytes, in either byte order. So the chunks of a block and their
checksum give the block back, whichever chunk is lost.
-/

namespace Guardata

namespace ByteOrder

variable (byteorder : ByteOrder)

theorem fromBytes_xorBytes {first second : Bytes} (same : second.length = first.length) :
    byteorder.fromBytes (xorBytes first second) =
    byteorder.fromBytes first ^^^ byteorder.fromBytes second := by
  cases byteorder with
  | little => exact ByteInteger.ofBytes_zipWith_xor same.symm
  | big =>
    have reversed : (xorBytes first second).reverse = List.zipWith (· ^^^ ·) first.reverse second.reverse :=
      List.reverse_zipWith same.symm
    simp only [fromBytes, reversed]
    exact ByteInteger.ofBytes_zipWith_xor (by simp [same])

theorem toBytes_fromBytes (data : Bytes) :
    byteorder.toBytes (byteorder.fromBytes data) data.length = .ok data := by
  cases byteorder with
  | little =>
    rw [toBytes, fromBytes, Except.require, if_pos (ByteInteger.ofBytes_lt data), Except.ok_bind,
      ByteInteger.toBytes_ofBytes]
    rfl
  | big =>
    have fits := ByteInteger.ofBytes_lt data.reverse
    have back := ByteInteger.toBytes_ofBytes data.reverse
    rw [List.length_reverse] at fits back
    rw [toBytes, fromBytes, Except.require, if_pos fits, Except.ok_bind, back, List.reverse_reverse]
    rfl

private theorem toBytes_foldlM {length : ℕ} (rest : List Bytes) {start : Bytes}
    (sized : start.length = length) :
    (do
      let xored ← rest.foldlM (fun xored buff => do
        Except.require (buff.length = length) BlockError.assertion
        return xored ^^^ byteorder.fromBytes buff) (byteorder.fromBytes start)
      byteorder.toBytes xored length) =
      rest.foldlM (fun xored buff => do
        Except.require (buff.length = length) BlockError.assertion
        return xorBytes xored buff) start := by
  induction rest generalizing start with
  | nil => rw [List.foldlM_nil, List.foldlM_nil, pure_bind, ← sized, byteorder.toBytes_fromBytes]; rfl
  | cons buff rest ih =>
    rw [List.foldlM_cons, List.foldlM_cons, Except.require]
    split
    · next same =>
      have next : (xorBytes start buff).length = length := by
        rw [xorBytes, List.length_zipWith, sized, same, Nat.min_self]
      have xored := byteorder.fromBytes_xorBytes (same.trans sized.symm)
      simp only [Except.ok_bind, pure_bind, ← xored]
      exact ih next
    · rfl

end ByteOrder

/-- Buffers xor over integers as they do over bytes. -/
theorem xorIntegers_eq_xorBuffers (byteorder : ByteOrder) (buffers : List Bytes) :
    xorIntegers byteorder buffers = xorBuffers buffers := by
  cases buffers with
  | nil => rfl
  | cons first rest => exact byteorder.toBytes_foldlM rest rfl

/-- A block that is not too long is split, and its chunks have a checksum. -/
theorem exists_chunks {block : Bytes} {nbChunks : ℕ} (short : block.length < 2 ^ 32) (some : nbChunks ≠ 0) :
    ∃ chunks checksum, splitBlockInChunks block nbChunks = .ok chunks ∧
      generateChecksumChunk chunks = .ok checksum := by
  obtain ⟨chunks, split⟩ : ∃ chunks, splitBlockInChunks block nbChunks = .ok chunks := by
    simp only [splitBlockInChunks, packUint32, Except.bind_eq_ok_iff, Except.require_eq_ok_iff,
      Except.pure_eq_ok_iff, exists_const]
    exact ⟨_, some, _, ⟨short, rfl⟩, rfl⟩
  obtain ⟨count, ⟨length, same⟩, -⟩ := of_splitBlockInChunks split
  have nonempty : chunks ≠ [] := List.ne_nil_of_length_pos (count ▸ Nat.pos_of_ne_zero some)
  exact ⟨chunks, _, split, xorBuffers_eq_ok nonempty same⟩

/-- A block is split into chunks of one length, which give it back without a checksum, and with the
checksum also when any one of them is lost. The checksum is the one that the integers of the source have. -/
theorem raid5_codec_round_trip (block : Bytes) (nbChunks : ℕ) (short : block.length < 2 ^ 32)
    (several : 2 ≤ nbChunks) :
    ∃ chunks checksum, splitBlockInChunks block nbChunks = .ok chunks ∧ chunks.length = nbChunks ∧
      (∃ length, ∀ chunk ∈ chunks, chunk.length = length) ∧
      generateChecksumChunk chunks = .ok checksum ∧
      (∀ byteorder, xorIntegers byteorder chunks = .ok checksum) ∧
      (∀ given, rebuildBlockFromChunks (chunks.map some) given = .ok block) ∧
      ∀ index < nbChunks,
        rebuildBlockFromChunks ((chunks.map some).set index none) (some checksum) = .ok block := by
  obtain ⟨chunks, checksum, split, checked⟩ := exists_chunks short (by omega : nbChunks ≠ 0)
  obtain ⟨count, same, -⟩ := of_splitBlockInChunks split
  refine ⟨chunks, checksum, split, count, same, checked, fun byteorder => ?_, rebuild_map_some split,
    fun index below => rebuild_set_none split checked (count ▸ below)⟩
  rw [xorIntegers_eq_xorBuffers]
  exact checked

theorem raid5_codec_round_trip_three :
    ∃ chunks checksum, splitBlockInChunks [7, 8] 3 = .ok chunks ∧
      rebuildBlockFromChunks ((chunks.map some).set 1 none) (some checksum) = .ok [7, 8] := by
  obtain ⟨chunks, checksum, split, -, -, -, -, -, lost⟩ :=
    raid5_codec_round_trip [7, 8] 3 (by decide) (by decide)
  exact ⟨chunks, checksum, split, lost 1 (by decide)⟩

end Guardata
