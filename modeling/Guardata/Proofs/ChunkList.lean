import Mathlib.Data.List.TakeWhile
import Guardata.Model.FileOperations

/-! # Contiguous chunks

The chunks of a block follow each other without a gap, so what they show is one run of bytes.
`keepBefore` and `keepAfter` cut such a list at an offset by recursion on the list; the bisections
and slices of the source come to the same. A block write is the new chunk between the two cuts, and
what it removes are exactly the ids that are not referenced any more.
-/

namespace Guardata

/-- The chunk lies inside its raw data. -/
def Chunk.Within (chunk : Chunk) : Prop :=
  chunk.rawOffset ≤ chunk.start ∧ chunk.start ≤ chunk.stop ∧
    chunk.stop ≤ chunk.rawOffset + chunk.rawSize

/-- The raw data of the chunk is in the store, in full. -/
def Chunk.Stored (store : ChunkID → Option Bytes) (chunk : Chunk) : Prop :=
  ∃ data, store chunk.id = some data ∧ data.length = chunk.rawSize

/-- What the chunk shows of its raw data. -/
def Chunk.view (store : ChunkID → Option Bytes) (chunk : Chunk) : Bytes :=
  (((store chunk.id).getD []).drop (chunk.start - chunk.rawOffset)).take (chunk.stop - chunk.start)

/-- The bytes that a list of chunks shows. -/
def chunksContent (store : ChunkID → Option Bytes) (chunks : List Chunk) : Bytes :=
  chunks.flatMap (Chunk.view store)

/-- The chunks follow each other from one offset to another. -/
def Contiguous : ℕ → List Chunk → ℕ → Prop
  | start, [], stop => start = stop
  | start, chunk :: rest, stop => chunk.start = start ∧ chunk.Within ∧ Contiguous chunk.stop rest stop

/-- No chunk is empty. -/
def Proper (chunks : List Chunk) : Prop := ∀ chunk ∈ chunks, chunk.start < chunk.stop

/-- Chunks that are not empty follow each other from one offset to another, whatever their raw data. -/
def Consecutive : ℕ → List Chunk → ℕ → Prop
  | start, [], stop => start = stop
  | start, chunk :: rest, stop =>
      chunk.start = start ∧ chunk.start < chunk.stop ∧ Consecutive chunk.stop rest stop

/-- The part before an offset. -/
def keepBefore (offset : ℕ) : List Chunk → List Chunk
  | [] => []
  | chunk :: rest =>
      if chunk.stop ≤ offset then chunk :: keepBefore offset rest
      else if chunk.start < offset then [{ chunk with stop := offset }]
      else []

/-- The part after an offset. -/
def keepAfter (offset : ℕ) : List Chunk → List Chunk
  | [] => []
  | chunk :: rest =>
      if chunk.stop ≤ offset then keepAfter offset rest
      else if chunk.start < offset then { chunk with start := offset } :: rest
      else chunk :: rest

section Content

variable {store : ChunkID → Option Bytes} {chunks : List Chunk} {start stop offset : ℕ}

@[simp] theorem chunksContent_nil : chunksContent store [] = [] := rfl

@[simp] theorem chunksContent_cons (chunk : Chunk) :
    chunksContent store (chunk :: chunks) = chunk.view store ++ chunksContent store chunks := rfl

@[simp] theorem chunksContent_append (more : List Chunk) :
    chunksContent store (chunks ++ more) = chunksContent store chunks ++ chunksContent store more :=
  List.flatMap_append

theorem Chunk.Stored.length_view {chunk : Chunk} (stored : chunk.Stored store)
    (within : chunk.Within) : (chunk.view store).length = chunk.stop - chunk.start := by
  obtain ⟨data, found, size⟩ := stored
  obtain ⟨left, -, right⟩ := within
  simp only [view, found, Option.getD_some, List.length_take, List.length_drop, size]
  omega

theorem Contiguous.le (contiguous : Contiguous start chunks stop) : start ≤ stop := by
  induction chunks generalizing start with
  | nil => exact contiguous.le
  | cons chunk rest ih =>
    obtain ⟨rfl, within, rest⟩ := contiguous
    exact within.2.1.trans (ih rest)

theorem Contiguous.consecutive (contiguous : Contiguous start chunks stop) (proper : Proper chunks) :
    Consecutive start chunks stop := by
  induction chunks generalizing start with
  | nil => exact contiguous
  | cons chunk rest ih =>
    obtain ⟨here, later⟩ := List.forall_mem_cons.mp proper
    exact ⟨contiguous.1, here, ih contiguous.2.2 later⟩

theorem Consecutive.le (consecutive : Consecutive start chunks stop) : start ≤ stop := by
  induction chunks generalizing start with
  | nil => exact le_of_eq consecutive
  | cons chunk rest ih =>
    obtain ⟨rfl, ordered, consecutive⟩ := consecutive
    exact ordered.le.trans (ih consecutive)

/-- Chunks that are not empty take space. -/
theorem Contiguous.lt (contiguous : Contiguous start chunks stop) (occupied : chunks ≠ [])
    (proper : Proper chunks) : start < stop := by
  cases chunks with
  | nil => exact absurd rfl occupied
  | cons chunk rest =>
    obtain ⟨rfl, -, later⟩ := contiguous
    exact (proper chunk List.mem_cons_self).trans_le later.le

theorem Contiguous.length_content (contiguous : Contiguous start chunks stop)
    (stored : ∀ chunk ∈ chunks, chunk.Stored store) :
    (chunksContent store chunks).length = stop - start := by
  induction chunks generalizing start with
  | nil => cases contiguous; simp
  | cons chunk rest ih =>
    obtain ⟨rfl, within, contiguous⟩ := contiguous
    obtain ⟨here, later⟩ := List.forall_mem_cons.mp stored
    have ordered := within.2.1
    have beyond := contiguous.le
    rw [chunksContent_cons, List.length_append, here.length_view within, ih contiguous later]
    omega

theorem Contiguous.append {middle : ℕ} {more : List Chunk} (front : Contiguous start chunks middle)
    (back : Contiguous middle more stop) : Contiguous start (chunks ++ more) stop := by
  induction chunks generalizing start with
  | nil => cases front; exact back
  | cons chunk rest ih =>
    obtain ⟨rfl, within, front⟩ := front
    exact ⟨rfl, within, ih front⟩

theorem Consecutive.start_le (consecutive : Consecutive start chunks stop) {chunk : Chunk}
    (member : chunk ∈ chunks) : start ≤ chunk.start := by
  induction chunks generalizing start with
  | nil => cases member
  | cons first rest ih =>
    obtain ⟨rfl, ordered, consecutive⟩ := consecutive
    rcases List.mem_cons.mp member with rfl | later
    · exact le_rfl
    · exact ordered.le.trans (ih consecutive later)

theorem Contiguous.stop_getLastD {first : Chunk} {rest : List Chunk}
    (contiguous : Contiguous start (first :: rest) stop) : (rest.getLastD first).stop = stop := by
  induction rest generalizing start first with
  | nil => exact contiguous.2.2
  | cons second rest ih =>
    rw [List.getLastD_cons]
    exact ih contiguous.2.2

end Content

section Cuts

variable {store : ChunkID → Option Bytes} {chunks : List Chunk} {start stop offset : ℕ}

/-- A cut keeps the raw data of its chunks. -/
def CutOf (chunks whole : List Chunk) : Prop :=
  ∀ chunk ∈ chunks, ∃ origin ∈ whole, chunk.id = origin.id ∧ chunk.rawSize = origin.rawSize

theorem CutOf.stored {whole : List Chunk} (cut : CutOf chunks whole)
    (stored : ∀ chunk ∈ whole, chunk.Stored store) : ∀ chunk ∈ chunks, chunk.Stored store := by
  intro chunk member
  obtain ⟨origin, found, id, rawSize⟩ := cut chunk member
  rw [Chunk.Stored, id, rawSize]
  exact stored origin found

theorem CutOf.chunkIdSet_subset {whole : List Chunk} (cut : CutOf chunks whole) :
    chunkIdSet chunks ⊆ chunkIdSet whole := by
  intro id member
  simp only [chunkIdSet, List.mem_toFinset, List.mem_map] at member ⊢
  obtain ⟨chunk, member, rfl⟩ := member
  obtain ⟨origin, found, same, -⟩ := cut chunk member
  exact ⟨origin, found, same.symm⟩

theorem cutOf_keepBefore : CutOf (keepBefore offset chunks) chunks := by
  induction chunks with
  | nil => intro chunk member; cases member
  | cons first rest ih =>
    intro chunk member
    rw [keepBefore] at member
    split at member
    · rcases List.mem_cons.mp member with rfl | later
      · exact ⟨chunk, List.mem_cons_self, rfl, rfl⟩
      · obtain ⟨origin, found, same⟩ := ih chunk later
        exact ⟨origin, List.mem_cons_of_mem _ found, same⟩
    · split at member
      · obtain rfl := List.mem_singleton.mp member
        exact ⟨first, List.mem_cons_self, rfl, rfl⟩
      · cases member

theorem cutOf_keepAfter : CutOf (keepAfter offset chunks) chunks := by
  induction chunks with
  | nil => intro chunk member; cases member
  | cons first rest ih =>
    intro chunk member
    rw [keepAfter] at member
    split at member
    · obtain ⟨origin, found, same⟩ := ih chunk member
      exact ⟨origin, List.mem_cons_of_mem _ found, same⟩
    · split at member
      · rcases List.mem_cons.mp member with rfl | later
        · exact ⟨first, List.mem_cons_self, rfl, rfl⟩
        · exact ⟨chunk, List.mem_cons_of_mem _ later, rfl, rfl⟩
      · exact ⟨chunk, member, rfl, rfl⟩

theorem proper_keepBefore (proper : Proper chunks) : Proper (keepBefore offset chunks) := by
  induction chunks with
  | nil => exact proper
  | cons first rest ih =>
    obtain ⟨here, later⟩ := List.forall_mem_cons.mp proper
    rw [keepBefore]
    split
    · exact List.forall_mem_cons.mpr ⟨here, ih later⟩
    · split
      · next below => exact List.forall_mem_singleton.mpr below
      · exact fun chunk member => by cases member

theorem proper_keepAfter (proper : Proper chunks) : Proper (keepAfter offset chunks) := by
  induction chunks with
  | nil => exact proper
  | cons first rest ih =>
    obtain ⟨here, later⟩ := List.forall_mem_cons.mp proper
    rw [keepAfter]
    split
    · exact ih later
    · split
      · next above _ => exact List.forall_mem_cons.mpr ⟨Nat.lt_of_not_le above, later⟩
      · exact proper

theorem contiguous_keepBefore (contiguous : Contiguous start chunks stop) (lower : start ≤ offset)
    (upper : offset ≤ stop) : Contiguous start (keepBefore offset chunks) offset := by
  induction chunks generalizing start with
  | nil =>
    have same : start = stop := contiguous
    exact (by omega : start = offset)
  | cons chunk rest ih =>
    obtain ⟨rfl, within, contiguous⟩ := contiguous
    rw [keepBefore]
    split
    · next whole => exact ⟨rfl, within, ih contiguous whole⟩
    · next cut =>
      split
      · next inside =>
        refine ⟨rfl, ⟨within.1, inside.le, ?_⟩, rfl⟩
        have := within.2.2
        dsimp only
        omega
      · exact (by omega : chunk.start = offset)

theorem contiguous_keepAfter (contiguous : Contiguous start chunks stop) (lower : start ≤ offset) :
    Contiguous offset (keepAfter offset chunks) (max stop offset) := by
  induction chunks generalizing start with
  | nil =>
    have same : start = stop := contiguous
    exact (by omega : offset = max stop offset)
  | cons chunk rest ih =>
    obtain ⟨rfl, within, contiguous⟩ := contiguous
    have beyond := contiguous.le
    rw [keepAfter]
    split
    · next past => exact ih contiguous past
    · next cut =>
      rw [max_eq_left (by omega)]
      split
      · next inside =>
        refine ⟨rfl, ⟨?_, ?_, within.2.2⟩, contiguous⟩
        · exact within.1.trans lower
        · dsimp only; omega
      · exact ⟨by omega, within, contiguous⟩

theorem content_keepBefore (contiguous : Contiguous start chunks stop)
    (stored : ∀ chunk ∈ chunks, chunk.Stored store) (lower : start ≤ offset) :
    chunksContent store (keepBefore offset chunks) =
      (chunksContent store chunks).take (offset - start) := by
  induction chunks generalizing start with
  | nil => simp [keepBefore]
  | cons chunk rest ih =>
    obtain ⟨rfl, within, contiguous⟩ := contiguous
    obtain ⟨here, later⟩ := List.forall_mem_cons.mp stored
    have length := here.length_view within
    have ordered := within.2.1
    rw [keepBefore, chunksContent_cons]
    split
    · next whole =>
      have all : (chunk.view store).take (offset - chunk.start) = chunk.view store :=
        List.take_of_length_le (by omega)
      rw [chunksContent_cons, ih contiguous later whole, List.take_append, length, all,
        show offset - chunk.start - (chunk.stop - chunk.start) = offset - chunk.stop by omega]
    · next cut =>
      rw [List.take_append_of_le_length (by omega)]
      split
      · simp only [chunksContent_cons, chunksContent_nil, List.append_nil, Chunk.view]
        rw [List.take_take, min_eq_left (by omega)]
      · rw [show offset - chunk.start = 0 by omega]
        rfl

theorem content_keepAfter (contiguous : Contiguous start chunks stop)
    (stored : ∀ chunk ∈ chunks, chunk.Stored store) (lower : start ≤ offset) :
    chunksContent store (keepAfter offset chunks) =
      (chunksContent store chunks).drop (offset - start) := by
  induction chunks generalizing start with
  | nil => simp [keepAfter]
  | cons chunk rest ih =>
    obtain ⟨rfl, within, contiguous⟩ := contiguous
    obtain ⟨here, later⟩ := List.forall_mem_cons.mp stored
    have length := here.length_view within
    have ordered := within.2.1
    have inside := within.1
    rw [keepAfter, chunksContent_cons]
    split
    · next past =>
      have nothing : (chunk.view store).drop (offset - chunk.start) = [] :=
        List.drop_eq_nil_of_le (by omega)
      rw [ih contiguous later past, List.drop_append, length, nothing, List.nil_append,
        show offset - chunk.start - (chunk.stop - chunk.start) = offset - chunk.stop by omega]
    · next cut =>
      rw [List.drop_append_of_le_length (by omega)]
      split
      · simp only [chunksContent_cons, Chunk.view]
        rw [List.drop_take, List.drop_drop,
          show chunk.start - chunk.rawOffset + (offset - chunk.start) = offset - chunk.rawOffset by omega,
          show chunk.stop - chunk.start - (offset - chunk.start) = chunk.stop - offset by omega]
      · rw [show offset - chunk.start = 0 by omega]
        rfl

end Cuts

section Bisection

variable {store : ChunkID → Option Bytes} {chunks : List Chunk} {start stop offset : ℕ}

private theorem not_of_mem_dropWhile {test : ℕ → Bool} (downward : ∀ x y, x ≤ y → test y → test x)
    (consecutive : Consecutive start chunks stop) :
    ∀ chunk ∈ chunks.dropWhile fun chunk => test chunk.start, ¬ test chunk.start := by
  induction chunks generalizing start with
  | nil => exact fun chunk member => by cases member
  | cons first rest ih =>
    obtain ⟨rfl, ordered, later⟩ := consecutive
    intro chunk member
    rw [List.dropWhile_cons] at member
    split at member
    · exact ih later chunk member
    · next failed =>
      rcases List.mem_cons.mp member with rfl | found
      · exact failed
      · exact fun passed => failed (downward _ _ (ordered.le.trans (later.start_le found)) passed)

/-- Consecutive chunks start one after the other, so bisection counts those that pass the test. -/
theorem bisect_consecutive (test : ℕ → Bool) (downward : ∀ x y, x ≤ y → test y → test x)
    (consecutive : Consecutive start chunks stop) :
    chunks.bisect (fun chunk => test chunk.start) =
      (chunks.takeWhile fun chunk => test chunk.start).length := by
  conv_lhs => rw [← List.takeWhile_append_dropWhile (p := fun chunk => test chunk.start) (l := chunks)]
  apply List.bisect_append
  · intro chunk member
    exact List.mem_takeWhile_imp (p := fun chunk : Chunk => test chunk.start) member
  · exact not_of_mem_dropWhile downward consecutive

private theorem keepBefore_eq (consecutive : Consecutive start chunks stop) (occupied : chunks ≠ [])
    (lower : start ≤ offset) (upper : offset ≤ stop) :
    ∃ index chunk, (chunks.takeWhile fun chunk => chunk.start ≤ offset).length = index + 1 ∧
      chunks[index]? = some chunk ∧ keepBefore offset chunks = chunks.take index ++
        if chunk.start < offset then [{ chunk with stop := offset }] else [] := by
  induction chunks generalizing start with
  | nil => exact absurd rfl occupied
  | cons first rest ih =>
    obtain ⟨rfl, here, consecutive⟩ := consecutive
    rw [List.takeWhile_cons, if_pos (decide_eq_true lower), List.length_cons, keepBefore]
    cases rest with
    | nil =>
      obtain rfl : first.stop = stop := consecutive
      refine ⟨0, first, rfl, rfl, ?_⟩
      rcases upper.lt_or_eq with inside | rfl
      · simp [inside.not_ge]
      · simp [keepBefore, here]
    | cons second rest =>
      have next : second.start = first.stop := consecutive.1
      by_cases past : first.stop ≤ offset
      · obtain ⟨index, chunk, count, found, equal⟩ := ih consecutive (by simp) past
        refine ⟨index + 1, chunk, by rw [count], found, ?_⟩
        rw [if_pos past, equal]
        rfl
      · refine ⟨0, first, ?_, rfl, by simp [past]⟩
        rw [List.takeWhile_cons, if_neg (by simpa [next] using past)]
        rfl

private theorem keepAfter_eq (consecutive : Consecutive start chunks stop) (occupied : chunks ≠ [])
    (lower : start < offset) :
    ∃ index chunk, (chunks.takeWhile fun chunk => chunk.start < offset).length = index + 1 ∧
      chunks[index]? = some chunk ∧
      keepAfter offset chunks = (if offset < chunk.stop then [{ chunk with start := offset }] else []) ++
        chunks.drop (index + 1) ∧
      (offset ≤ stop →
        keepBefore offset chunks = chunks.take index ++ [{ chunk with stop := offset }]) := by
  induction chunks generalizing start with
  | nil => exact absurd rfl occupied
  | cons first rest ih =>
    obtain ⟨rfl, -, consecutive⟩ := consecutive
    rw [List.takeWhile_cons, if_pos (decide_eq_true lower), List.length_cons, keepAfter, keepBefore]
    by_cases past : first.stop < offset
    · cases rest with
      | nil =>
        obtain rfl : first.stop = stop := consecutive
        exact ⟨0, first, rfl, rfl, by simp [keepAfter, past.le, past.not_gt], fun inside => by omega⟩
      | cons second rest =>
        obtain ⟨index, chunk, count, found, after, before⟩ := ih consecutive (by simp) past
        refine ⟨index + 1, chunk, by rw [count], found, ?_, fun inside => ?_⟩
        · rw [if_pos past.le, after]
          rfl
        · rw [if_pos past.le, before inside]
          rfl
    · refine ⟨0, first, ?_, rfl, ?_, fun inside => ?_⟩
      · cases rest with
        | nil => rfl
        | cons second rest =>
          have next : second.start = first.stop := consecutive.1
          rw [List.takeWhile_cons, if_neg (by simpa [next] using past)]
          rfl
      · rcases (not_lt.mp past).lt_or_eq with cut | border
        · simp [cut, cut.not_ge, lower]
        · -- The offset is the border to the next chunk, which is kept as it is.
          have kept : keepAfter offset rest = rest := by
            cases rest with
            | nil => rfl
            | cons second rest =>
              obtain ⟨next, occupied, -⟩ := consecutive
              rw [keepAfter, if_neg (by omega), if_neg (by omega)]
          simp [border.symm.le, border.symm.not_gt, kept]
      · rcases (not_lt.mp past).lt_or_eq with cut | border
        · simp [cut.not_ge, lower]
        · have nothing : keepBefore offset rest = [] := by
            cases rest with
            | nil => rfl
            | cons second rest =>
              obtain ⟨next, occupied, -⟩ := consecutive
              rw [keepBefore, if_neg (by omega), if_neg (by omega)]
          rw [if_pos border.symm.le, nothing, border]
          rfl

theorem exists_indexOfChunkBeforeStart (consecutive : Consecutive start chunks stop) (occupied : chunks ≠ [])
    (lower : start ≤ offset) (upper : offset ≤ stop) :
    ∃ (index : ℕ) (chunk : Chunk), indexOfChunkBeforeStart chunks offset = index ∧
      chunks[index]? = some chunk ∧ keepBefore offset chunks = chunks.take index ++
        if chunk.start < offset then [{ chunk with stop := offset }] else [] := by
  obtain ⟨index, chunk, count, found, equal⟩ := keepBefore_eq consecutive occupied lower upper
  refine ⟨index, chunk, ?_, found, equal⟩
  have counted := bisect_consecutive (fun start => start ≤ offset)
    (fun x y below passed => by simp only [decide_eq_true_eq] at passed ⊢; omega) consecutive
  rw [indexOfChunkBeforeStart, counted, count]
  omega

theorem exists_indexOfChunkAfterStop (consecutive : Consecutive start chunks stop) (occupied : chunks ≠ [])
    (lower : start < offset) :
    ∃ (index : ℕ) (chunk : Chunk), indexOfChunkAfterStop chunks offset = (index + 1 : ℕ) ∧
      chunks[index]? = some chunk ∧
      keepAfter offset chunks = (if offset < chunk.stop then [{ chunk with start := offset }] else []) ++
        chunks.drop (index + 1) ∧
      (offset ≤ stop →
        keepBefore offset chunks = chunks.take index ++ [{ chunk with stop := offset }]) := by
  obtain ⟨index, chunk, count, found, equal⟩ := keepAfter_eq consecutive occupied lower
  refine ⟨index, chunk, ?_, found, equal⟩
  have counted := bisect_consecutive (fun start => start < offset)
    (fun x y below passed => by simp only [decide_eq_true_eq] at passed ⊢; omega) consecutive
  rw [indexOfChunkAfterStop, counted, count]

end Bisection

section BlockWrite

variable {chunks : List Chunk} {start stop : ℕ}

theorem mem_chunkIdSet {id : ChunkID} : id ∈ chunkIdSet chunks ↔ ∃ chunk ∈ chunks, chunk.id = id := by
  simp [chunkIdSet]

private theorem itemAt_of_getElem? {α : Type} {entries : List α} {index : ℕ} {entry : α}
    (found : entries[index]? = some entry) : itemAt entries index = .ok entry := by
  rw [itemAt, List.item?_natCast, found]

/-- A chunk outside of a slice stands before or behind it. -/
private theorem mem_slice {chunk : Chunk} {first last : ℕ} (member : chunk ∈ chunks)
    (before : chunk ∉ chunks.take first) (behind : chunk ∉ chunks.drop last) :
    chunk ∈ (chunks.take last).drop first := by
  rw [← List.take_append_drop last chunks, List.mem_append] at member
  have inside := member.resolve_right behind
  rw [← List.take_append_drop first (chunks.take last), List.mem_append] at inside
  refine inside.resolve_left fun early => before ?_
  rw [List.take_take] at early
  exact (List.take_subset_take_left chunks (Nat.min_le_left _ _)) early

/-- A block write puts the new chunk between the two cuts, and reports the ids that are gone. -/
theorem blockWrite_eq (consecutive : Consecutive start chunks stop) {offset size : ℕ}
    (lower : start ≤ offset) (upper : offset ≤ stop) (positive : 0 < size) (newChunk : Chunk) :
    blockWrite chunks size offset newChunk =
      .ok (keepBefore offset chunks ++ newChunk :: keepAfter (offset + size) chunks,
        chunkIdSet chunks \
          chunkIdSet (keepBefore offset chunks ++ newChunk :: keepAfter (offset + size) chunks)) := by
  by_cases occupied : chunks = []
  · subst occupied
    rfl
  · obtain ⟨first, startChunk, startIndex, startFound, before⟩ :=
      exists_indexOfChunkBeforeStart consecutive occupied lower upper
    obtain ⟨last, stopChunk, stopIndex, stopFound, after, -⟩ := exists_indexOfChunkAfterStop
      consecutive occupied (show start < offset + size by omega)
    have stopIndex' : ((last + 1 : ℕ) : ℤ) - 1 = (last : ℕ) := by omega
    generalize resulting : keepBefore offset chunks ++ newChunk :: keepAfter (offset + size) chunks = result
    have slice_subset : chunkIdSet ((chunks.take (last + 1)).drop first) ⊆ chunkIdSet chunks := by
      intro id member
      obtain ⟨chunk, found, same⟩ := mem_chunkIdSet.mp member
      exact mem_chunkIdSet.mpr ⟨chunk, List.take_subset _ _ (List.drop_subset _ _ found), same⟩
    -- Outside of the slice every chunk is in the result.
    have rest : ∀ id ∈ chunkIdSet chunks, id ∉ chunkIdSet result →
        id ∈ chunkIdSet ((chunks.take (last + 1)).drop first) := by
      intro id member gone
      obtain ⟨chunk, found, same⟩ := mem_chunkIdSet.mp member
      refine mem_chunkIdSet.mpr ⟨chunk, mem_slice found ?_ ?_, same⟩
      · intro early
        refine gone (mem_chunkIdSet.mpr ⟨chunk, ?_, same⟩)
        rw [← resulting, before]
        simp [early]
      · intro late
        refine gone (mem_chunkIdSet.mpr ⟨chunk, ?_, same⟩)
        rw [← resulting, after]
        simp [late]
    have startKept : startChunk.start < offset → startChunk.id ∈ chunkIdSet result := by
      intro cut
      refine mem_chunkIdSet.mpr ⟨{ startChunk with stop := offset }, ?_, rfl⟩
      rw [← resulting, before]
      simp [cut]
    have stopKept : offset + size < stopChunk.stop → stopChunk.id ∈ chunkIdSet result := by
      intro cut
      refine mem_chunkIdSet.mpr ⟨{ stopChunk with start := offset + size }, ?_, rfl⟩
      rw [← resulting, after]
      simp [cut]
    simp only [blockWrite, if_neg occupied, startIndex, stopIndex, stopIndex',
      itemAt_of_getElem? startFound, itemAt_of_getElem? stopFound, Except.ok_bind,
      List.slice_zero_natCast, List.slice_natCast, List.take_length]
    have assembled : chunks.take first ++
        (if startChunk.start < offset then [{ startChunk with stop := offset }] else []) ++ [newChunk] ++
        (if offset + size < stopChunk.stop then [{ stopChunk with start := offset + size }] else []) ++
        chunks.drop (last + 1) = result := by
      rw [← resulting, before, after]
      simp
    by_cases front : startChunk.start < offset <;> by_cases back : offset + size < stopChunk.stop
    all_goals
      simp only [front, back, if_true, if_false] at assembled ⊢
      rw [assembled]
      refine congrArg (fun ids => Except.ok (result, ids)) ?_
      ext id
      simp only [Finset.mem_sdiff, Finset.mem_erase]
      grind

end BlockWrite

section BlockRead

variable {chunks : List Chunk} {start stop offset : ℕ}

/-- The part of a chunk between two offsets. -/
private def clip (from' to' : ℕ) (chunk : Chunk) : Chunk :=
  { chunk with start := max chunk.start from', stop := min chunk.stop to' }

private theorem takeWhile_lt_eq_nil {rest : List Chunk} {bound : ℕ}
    (contiguous : Contiguous start rest stop) (beyond : bound ≤ start) :
    (rest.takeWhile fun chunk => chunk.start < bound) = [] := by
  cases rest with
  | nil => rfl
  | cons first rest =>
    obtain ⟨rfl, -, -⟩ := contiguous
    rw [List.takeWhile_cons, if_neg (by simpa using beyond)]

private theorem takeWhile_le_eq_nil {rest : List Chunk} {bound : ℕ}
    (contiguous : Contiguous start rest stop) (beyond : bound < start) :
    (rest.takeWhile fun chunk => chunk.start ≤ bound) = [] := by
  cases rest with
  | nil => rfl
  | cons first rest =>
    obtain ⟨rfl, -, -⟩ := contiguous
    rw [List.takeWhile_cons, if_neg (by simpa using beyond)]

private theorem map_clip_takeWhile (low high : ℕ) (contiguous : Contiguous start chunks stop)
    (proper : Proper chunks) (lower : low ≤ start) :
    (chunks.takeWhile fun chunk => chunk.start < high).map (clip low high) = keepBefore high chunks := by
  induction chunks generalizing start with
  | nil => rfl
  | cons first rest ih =>
    obtain ⟨rfl, within, contiguous⟩ := contiguous
    obtain ⟨here, later⟩ := List.forall_mem_cons.mp proper
    rw [List.takeWhile_cons, keepBefore]
    by_cases inside : first.start < high
    · rw [if_pos (decide_eq_true inside), List.map_cons, clip, max_eq_left lower]
      by_cases whole : first.stop ≤ high
      · rw [if_pos whole, min_eq_left whole, ih contiguous later (lower.trans within.2.1)]
      · rw [if_neg whole, if_pos inside, min_eq_right (by omega),
          takeWhile_lt_eq_nil contiguous (by omega)]
        rfl
    · rw [if_neg (by simpa using inside), if_neg (by omega), if_neg inside]
      rfl

/-- The slice that a read takes, in terms of the number of chunks on either side. -/
private def readSlice (low high : ℕ) (chunks : List Chunk) : List Chunk :=
  (chunks.take (chunks.takeWhile fun chunk => chunk.start < high).length).drop
    ((chunks.takeWhile fun chunk => chunk.start ≤ low).length - 1)

private theorem take_length_takeWhile {test : Chunk → Bool} :
    chunks.take (chunks.takeWhile test).length = chunks.takeWhile test :=
  (List.prefix_iff_eq_take.mp (List.takeWhile_prefix test)).symm

/-- The chunks before the read are dropped together with the head of the list. -/
private theorem readSlice_cons_of_past {first second : Chunk} {rest : List Chunk} {low high : ℕ}
    (ordered : first.start ≤ low) (inside : first.start < high) (past : second.start ≤ low) :
    readSlice low high (first :: second :: rest) = readSlice low high (second :: rest) := by
  have head : (first :: second :: rest).takeWhile (fun chunk => chunk.start < high) =
      first :: (second :: rest).takeWhile fun chunk => chunk.start < high := by
    rw [List.takeWhile_cons, if_pos (decide_eq_true inside)]
  have count : ((first :: second :: rest).takeWhile fun chunk => chunk.start ≤ low).length - 1 =
      ((second :: rest).takeWhile fun chunk => chunk.start ≤ low).length - 1 + 1 := by
    simp [ordered, past]
  rw [readSlice, readSlice, head, count, List.length_cons, List.take_succ_cons, List.drop_succ_cons]

private theorem readSlice_cons_of_here {first : Chunk} {rest : List Chunk} {low high : ℕ}
    (contiguous : Contiguous first.stop rest stop)
    (ordered : first.start ≤ low) (inside : first.start < high) (here : low < first.stop ∨ rest = []) :
    readSlice low high (first :: rest) =
      first :: rest.takeWhile fun chunk => chunk.start < high := by
  have none : (rest.takeWhile fun chunk => chunk.start ≤ low) = [] := by
    rcases here with before | rfl
    · exact takeWhile_le_eq_nil contiguous before
    · rfl
  have head : (first :: rest).takeWhile (fun chunk => chunk.start < high) =
      first :: rest.takeWhile fun chunk => chunk.start < high := by
    rw [List.takeWhile_cons, if_pos (decide_eq_true inside)]
  have count : ((first :: rest).takeWhile fun chunk => chunk.start ≤ low).length - 1 = 0 := by
    simp [ordered, none]
  rw [readSlice, take_length_takeWhile, head, count, List.drop_zero]

private theorem map_clip_readSlice {low high : ℕ} (contiguous : Contiguous start chunks stop)
    (proper : Proper chunks) (lower : start ≤ low) (ordered : low < high) (upper : high ≤ stop) :
    (readSlice low high chunks).map (clip low high) = keepAfter low (keepBefore high chunks) := by
  induction chunks generalizing start with
  | nil =>
    have same : start = stop := contiguous
    omega
  | cons first rest ih =>
    obtain ⟨rfl, within, contiguous⟩ := contiguous
    obtain ⟨here, later⟩ := List.forall_mem_cons.mp proper
    by_cases past : first.stop ≤ low
    · cases rest with
      | nil =>
        have same : first.stop = stop := contiguous
        omega
      | cons second rest =>
        have next : second.start = first.stop := contiguous.1
        have kept : keepBefore high (first :: second :: rest) =
            first :: keepBefore high (second :: rest) := by
          rw [keepBefore, if_pos (by omega)]
        have dropped : keepAfter low (first :: keepBefore high (second :: rest)) =
            keepAfter low (keepBefore high (second :: rest)) := by
          rw [keepAfter, if_pos past]
        rw [readSlice_cons_of_past lower (by omega) (by omega), ih contiguous later past, kept, dropped]
    · rw [readSlice_cons_of_here contiguous lower (by omega) (.inl (by omega)), List.map_cons,
        map_clip_takeWhile low high contiguous later (by omega), keepBefore]
      by_cases whole : first.stop ≤ high
      · rw [if_pos whole, keepAfter, if_neg past, clip, min_eq_left whole]
        split
        · next inside => rw [max_eq_right inside.le]
        · next outside => rw [max_eq_left (by omega)]
      · have nothing : keepBefore high rest = [] := by
          rw [← map_clip_takeWhile low high contiguous later (by omega),
            takeWhile_lt_eq_nil contiguous (by omega)]
          rfl
        rw [if_neg whole, if_pos (by omega), nothing, keepAfter, if_neg (by simpa using ordered), clip,
          min_eq_right (by omega)]
        split
        · next inside => rw [max_eq_right (Nat.le_of_lt inside)]
        · next outside =>
          dsimp only at outside
          rw [max_eq_left (by omega)]

/-- An empty read takes nothing, or the empty part of one chunk. -/
private theorem map_clip_readSlice_self {low : ℕ} (contiguous : Contiguous start chunks stop)
    (proper : Proper chunks) (lower : start ≤ low) (upper : low ≤ stop) :
    (readSlice low low chunks).map (clip low low) = [] ∨ ∃ chunk ∈ chunks,
      (readSlice low low chunks).map (clip low low) = [{ chunk with start := low, stop := low }] ∧
        chunk.rawOffset ≤ low ∧ low ≤ chunk.rawOffset + chunk.rawSize := by
  induction chunks generalizing start with
  | nil => exact .inl rfl
  | cons first rest ih =>
    obtain ⟨rfl, within, contiguous⟩ := contiguous
    obtain ⟨here, later⟩ := List.forall_mem_cons.mp proper
    obtain ⟨left, -, right⟩ := within
    rcases lower.eq_or_lt with rfl | inside
    · left
      have none : (first :: rest).takeWhile (fun chunk => chunk.start < first.start) = [] := by
        rw [List.takeWhile_cons, if_neg (by simp)]
      rw [readSlice, none]
      simp
    · by_cases past : first.stop ≤ low ∧ rest ≠ []
      · obtain ⟨second, rest, rfl⟩ := List.exists_cons_of_ne_nil past.2
        have next : second.start = first.stop := contiguous.1
        rw [readSlice_cons_of_past lower inside (by omega)]
        rcases ih contiguous later past.1 with nothing | ⟨chunk, found, single⟩
        · exact .inl nothing
        · exact .inr ⟨chunk, List.mem_cons_of_mem _ found, single⟩
      · have ends : low ≤ first.stop := by
          by_contra beyond
          refine past ⟨by omega, ?_⟩
          rintro rfl
          have same : first.stop = stop := contiguous
          omega
        have before : low < first.stop ∨ rest = [] := by
          rcases ends.lt_or_eq with before | rfl
          · exact .inl before
          · exact .inr (by simpa using past)
        refine .inr ⟨first, List.mem_cons_self, ?_, by omega, by omega⟩
        rw [readSlice_cons_of_here contiguous lower inside before,
          takeWhile_lt_eq_nil contiguous ends, List.map_singleton, clip, max_eq_right inside.le,
          min_eq_right ends]

private theorem blockRead_eq (contiguous : Contiguous start chunks stop) (occupied : chunks ≠ [])
    (proper : Proper chunks) {size : ℕ} (lower : start ≤ offset) (upper : offset ≤ stop) :
    blockRead chunks size offset =
      (readSlice offset (offset + size) chunks).map (clip offset (offset + size)) := by
  have consecutive := contiguous.consecutive proper
  obtain ⟨index, chunk, count, -⟩ := keepBefore_eq consecutive occupied lower upper
  have counted := bisect_consecutive (fun start => start ≤ offset)
    (fun x y below passed => by simp only [decide_eq_true_eq] at passed ⊢; omega) consecutive
  have counted' := bisect_consecutive (fun start => start < offset + size)
    (fun x y below passed => by simp only [decide_eq_true_eq] at passed ⊢; omega) consecutive
  have before : indexOfChunkBeforeStart chunks offset = (index : ℕ) := by
    rw [indexOfChunkBeforeStart, counted, count]
    omega
  rw [blockRead, before, indexOfChunkAfterStop, counted', List.slice_natCast, readSlice, count]
  rfl

/-- A block read shows the range that was asked for, out of the chunks of the block. -/
theorem blockRead_spec (contiguous : Contiguous start chunks stop) (occupied : chunks ≠ [])
    (proper : Proper chunks) (size : ℕ) (lower : start ≤ offset) (upper : offset + size ≤ stop) :
    Contiguous offset (blockRead chunks size offset) (offset + size) ∧
    CutOf (blockRead chunks size offset) chunks ∧
    ∀ store : ChunkID → Option Bytes, (∀ chunk ∈ chunks, chunk.Stored store) →
      chunksContent store (blockRead chunks size offset) =
        ((chunksContent store chunks).drop (offset - start)).take size := by
  rw [blockRead_eq contiguous occupied proper lower (by omega)]
  rcases Nat.eq_zero_or_pos size with rfl | positive
  · rw [Nat.add_zero]
    rcases map_clip_readSlice_self contiguous proper lower upper with nothing |
      ⟨chunk, found, single, left, right⟩
    · rw [nothing]
      refine ⟨rfl, ?_, fun store _ => by simp⟩
      intro chunk member
      cases member
    · rw [single]
      refine ⟨⟨rfl, ⟨left, le_rfl, right⟩, rfl⟩, ?_, fun store _ => by simp [Chunk.view]⟩
      exact fun other member => ⟨chunk, found, by simp_all, by simp_all⟩
  · rw [map_clip_readSlice contiguous proper lower (by omega) upper]
    have front := contiguous_keepBefore contiguous (show start ≤ offset + size by omega) upper
    refine ⟨?_, ?_, fun store stored => ?_⟩
    · simpa using contiguous_keepAfter front lower
    · intro chunk member
      obtain ⟨middle, found, id, rawSize⟩ := cutOf_keepAfter chunk member
      obtain ⟨origin, found', id', rawSize'⟩ := cutOf_keepBefore middle found
      exact ⟨origin, found', id.trans id', rawSize.trans rawSize'⟩
    · rw [content_keepAfter front (cutOf_keepBefore.stored stored) lower,
        content_keepBefore contiguous stored (by omega), List.drop_take,
        show offset + size - start - (offset - start) = size by omega]

end BlockRead

end Guardata
