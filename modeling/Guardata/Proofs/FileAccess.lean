import Guardata.Proofs.FileOperations

/-! # The accesses of a file

Writing and truncating cut chunks and make new ones, which have no access yet: an access is never moved to
another chunk. So the accesses of a file only become fewer until it is reshaped.
-/

namespace Guardata

/-- Every access of a chunk is that of an old chunk with the same id. -/
def Inherits (chunks old : List Chunk) : Prop :=
  ∀ chunk ∈ chunks, ∀ access, chunk.access = some access →
    ∃ origin ∈ old, origin.id = chunk.id ∧ origin.access = some access

/-- Every chunk is new, or an old one with its id and its access, whose ends may have moved. -/
def Stems (drawn : ℕ) (chunks old : List Chunk) : Prop :=
  ∀ chunk ∈ chunks, (chunk.access = none ∧ drawn ≤ chunk.id) ∨
    ∃ origin ∈ old, origin.id = chunk.id ∧ origin.access = chunk.access

section Stems

variable {drawn : ℕ} {chunks others old older : List Chunk}

theorem inherits_of_subset (subset : chunks ⊆ old) : Inherits chunks old :=
  fun chunk member _ has => ⟨chunk, subset member, rfl, has⟩

theorem Stems.inherits (stems : Stems drawn chunks old) : Inherits chunks old := by
  intro chunk member access has
  rcases stems chunk member with ⟨none, -⟩ | ⟨origin, found, id, same⟩
  · rw [none] at has
    cases has
  · exact ⟨origin, found, id, same.trans has⟩

theorem stems_of_subset (subset : chunks ⊆ old) : Stems drawn chunks old :=
  fun chunk member => .inr ⟨chunk, subset member, rfl, rfl⟩

theorem Stems.append (left : Stems drawn chunks old) (right : Stems drawn others old) :
    Stems drawn (chunks ++ others) old := by
  intro chunk member
  exact (List.mem_append.mp member).elim (left chunk) (right chunk)

theorem Stems.trans (stems : Stems drawn chunks old) (before : Stems drawn old older) :
    Stems drawn chunks older := by
  intro chunk member
  rcases stems chunk member with new | ⟨origin, found, id, access⟩
  · exact .inl new
  · rcases before origin found with ⟨none, high⟩ | ⟨first, foundFirst, idFirst, accessFirst⟩
    · exact .inl ⟨access ▸ none, id ▸ high⟩
    · exact .inr ⟨first, foundFirst, idFirst.trans id, accessFirst.trans access⟩

/-- A chunk that was cut. -/
theorem stems_single {chunk origin : Chunk} (found : origin ∈ old) (id : origin.id = chunk.id)
    (access : origin.access = chunk.access) : Stems drawn [chunk] old := by
  intro other member
  obtain rfl := List.mem_singleton.mp member
  exact .inr ⟨origin, found, id, access⟩

theorem stems_new {chunk : Chunk} (none : chunk.access = none) (high : drawn ≤ chunk.id) :
    Stems drawn [chunk] old := by
  intro other member
  obtain rfl := List.mem_singleton.mp member
  exact .inl ⟨none, high⟩

theorem stems_nil : Stems drawn [] old := by
  intro chunk member
  cases member

end Stems

theorem mem_of_mem_slice {α : Type} {entries : List α} {start stop : ℤ} {entry : α}
    (member : entry ∈ entries.slice start stop) : entry ∈ entries :=
  List.mem_of_mem_take (List.mem_of_mem_drop member)

theorem mem_of_itemAt {α : Type} {entries : List α} {index : ℤ} {entry : α}
    (found : itemAt entries index = .ok entry) : entry ∈ entries := by
  unfold itemAt at found
  split at found
  · next is =>
    cases found
    unfold List.item? at is
    split at is
    · exact List.mem_of_getElem? is
    · split at is
      · exact List.mem_of_getElem? is
      · cases is
  · cases found

theorem stems_slice {drawn : ℕ} {chunks : List Chunk} {start stop : ℤ} :
    Stems drawn (chunks.slice start stop) chunks :=
  stems_of_subset fun _ => mem_of_mem_slice

section Write

theorem stems_blockWrite {drawn : ℕ} {chunks result : List Chunk} {size start : ℕ} {newChunk : Chunk}
    {removed : Finset ChunkID} (none : newChunk.access = none) (high : drawn ≤ newChunk.id)
    (written : blockWrite chunks size start newChunk = .ok (result, removed)) :
    Stems drawn result chunks := by
  unfold blockWrite at written
  split at written
  · cases written
    exact stems_new none high
  · simp only [Except.bind_eq_ok_iff, Except.pure_eq_ok_iff, Prod.mk.injEq] at written
    obtain ⟨first, isFirst, last, isLast, rfl, -⟩ := written
    refine (((stems_slice.append ?_).append (stems_new none high)).append ?_).append stems_slice
    · split
      · exact stems_single (mem_of_itemAt isFirst) rfl rfl
      · exact stems_nil
    · split
      · exact stems_single (mem_of_itemAt isLast) rfl rfl
      · exact stems_nil

theorem mem_of_setBlock {blocks result : List (List Chunk)} {block : ℕ} {chunks other : List Chunk}
    (set : setBlock blocks block chunks = .ok result) (member : other ∈ result) :
    other = chunks ∨ other ∈ blocks := by
  unfold setBlock at set
  split at set
  · cases set
    exact (List.mem_append.mp member).elim .inr fun last => .inl (List.mem_singleton.mp last)
  · split at set
    · cases set
      exact (List.mem_or_eq_of_mem_set member).symm
    · cases set

variable {manifest : LocalFileManifest} {drawn : ℕ}

theorem getChunks_stems (block : ℕ) :
    Stems drawn (manifest.getChunks block) manifest.blocks.flatten := by
  refine stems_of_subset fun chunk member => ?_
  unfold LocalFileManifest.getChunks at member
  cases found : manifest.blocks[block]? with
  | none =>
    rw [found] at member
    cases member
  | some chunks =>
    rw [found] at member
    exact List.mem_flatten.mpr ⟨chunks, List.mem_of_getElem? found, member⟩

/-- The step lemma of a write. -/
theorem stems_writeBlock {padding : ℕ} {state next : WriteState} {part : ℕ × ℕ × ℕ × ℕ}
    (high : drawn ≤ state.nextId) (before : Stems drawn state.blocks.flatten manifest.blocks.flatten)
    (written : writeBlock manifest padding state part = .ok next) :
    drawn ≤ next.nextId ∧ Stems drawn next.blocks.flatten manifest.blocks.flatten := by
  obtain ⟨block, subsize, start, contentOffset⟩ := part
  simp only [writeBlock, Except.bind_eq_ok_iff, Except.pure_eq_ok_iff, Prod.exists] at written
  obtain ⟨newChunk, created, chunks, removed, replaced, blocks, set, rfl⟩ := written
  have fresh : newChunk.access = none ∧ drawn ≤ newChunk.id := by
    simp only [Chunk.new, Except.bind_eq_ok_iff, Except.pure_eq_ok_iff] at created
    obtain ⟨-, -, rfl⟩ := created
    exact ⟨rfl, high⟩
  refine ⟨Nat.le_succ_of_le high, fun chunk member => ?_⟩
  obtain ⟨part, found, member⟩ := List.mem_flatten.mp member
  rcases mem_of_setBlock set found with rfl | old
  · exact (stems_blockWrite fresh.1 fresh.2 replaced).trans (getChunks_stems block) chunk member
  · exact before chunk (List.mem_flatten.mpr ⟨part, old, member⟩)

theorem stems_prepareWrite {size offset nextId : ℕ} {now : DateTime} {prepared : PreparedWrite}
    (done : prepareWrite manifest size offset nextId now = .ok prepared) :
    Stems nextId prepared.manifest.blocks.flatten manifest.blocks.flatten := by
  have loop (padding : ℕ) (parts : List (ℕ × ℕ × ℕ × ℕ)) (state final : WriteState)
      (high : nextId ≤ state.nextId) (before : Stems nextId state.blocks.flatten manifest.blocks.flatten)
      (walked : parts.foldlM (writeBlock manifest padding) state = .ok final) :
      Stems nextId final.blocks.flatten manifest.blocks.flatten := by
    induction parts generalizing state with
    | nil =>
      cases walked
      exact before
    | cons part rest ih =>
      rw [List.foldlM_cons, Except.bind_eq_ok_iff] at walked
      obtain ⟨middle, written, walked⟩ := walked
      obtain ⟨higher, still⟩ := stems_writeBlock high before written
      exact ih middle higher still walked
  simp only [prepareWrite, Except.bind_eq_ok_iff, Except.pure_eq_ok_iff] at done
  obtain ⟨final, walked, rfl⟩ := done
  exact loop _ _ _ _ le_rfl (stems_of_subset fun _ => id) walked

theorem stems_prepareTruncate {size : ℕ} {now : DateTime} {after : LocalFileManifest}
    {removed : Finset ChunkID} (done : prepareTruncate manifest size now = .ok (after, removed)) :
    Stems drawn after.blocks.flatten manifest.blocks.flatten := by
  have front (count : ℕ) : Stems drawn (manifest.blocks.take count).flatten manifest.blocks.flatten := by
    refine stems_of_subset fun chunk member => ?_
    obtain ⟨part, found, member⟩ := List.mem_flatten.mp member
    exact List.mem_flatten.mpr ⟨part, List.mem_of_mem_take found, member⟩
  simp only [prepareTruncate, Except.bind_eq_ok_iff] at done
  obtain ⟨chunks, isChunks, done⟩ := done
  split at done
  · cases done
    exact front _
  · simp only [Except.bind_eq_ok_iff, Except.pure_eq_ok_iff, Prod.mk.injEq] at done
    obtain ⟨last, isLast, rfl, -⟩ := done
    have here : chunks ⊆ manifest.blocks.flatten := fun chunk member =>
      List.mem_flatten.mpr ⟨chunks, mem_of_itemAt isChunks, member⟩
    simp only [LocalFileManifest.evolveAndMarkUpdated, List.flatten_append, List.flatten_singleton]
    refine (front _).append (Stems.trans ?_ (stems_of_subset here))
    exact stems_slice.append (stems_single (mem_of_itemAt isLast) rfl rfl)

theorem stems_prepareResize {size nextId : ℕ} {now : DateTime} {prepared : PreparedWrite}
    (done : prepareResize manifest size nextId now = .ok prepared) :
    Stems nextId prepared.manifest.blocks.flatten manifest.blocks.flatten := by
  unfold prepareResize at done
  split at done
  · exact stems_prepareWrite done
  · simp only [Except.bind_eq_ok_iff, Except.pure_eq_ok_iff, Prod.exists] at done
    obtain ⟨after, removed, truncated, rfl⟩ := done
    exact stems_prepareTruncate truncated

end Write

end Guardata
