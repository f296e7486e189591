import Mathlib.Data.List.Pairwise
import Guardata.Proofs.FileOperations

/-! # Block writes and range splitting

A range is split into one part for each block that it touches. A write into a block puts its chunk between what
the cuts leave of the others: at every offset the block shows the new chunk inside of the range, and what it
has shown before elsewhere.
-/

namespace Guardata

/-- The blocks are numbered one after the other, no part is empty or leaves its block, and every offset of the
range lies in exactly one of the parts. -/
structure SplitsRange (blocksize start stop : ℕ) (parts : List (ℕ × ℕ × ℕ)) : Prop where
  consecutive : parts.map Prod.fst = List.range' (start / blocksize) parts.length
  inside : ∀ part ∈ parts, part.1 * blocksize ≤ part.2.1 ∧ part.2.1 < part.2.2 ∧
    part.2.2 ≤ (part.1 + 1) * blocksize
  apart : parts.Pairwise fun left right => left.2.2 ≤ right.2.1
  covers : ∀ offset, (∃ part ∈ parts, part.2.1 ≤ offset ∧ offset < part.2.2) ↔ start ≤ offset ∧ offset < stop

section Range

variable {blocksize block start stop : ℕ} {parts : List (ℕ × ℕ × ℕ)}

theorem Tiles.map_fst (tiles : Tiles blocksize block start stop parts) :
    parts.map Prod.fst = List.range' block parts.length := by
  induction tiles with
  | nil => rfl
  | cons _ _ _ _ _ ih => rw [List.map_cons, ih, List.length_cons, List.range'_succ]

theorem Tiles.inside (tiles : Tiles blocksize block start stop parts) {part : ℕ × ℕ × ℕ}
    (member : part ∈ parts) :
    part.1 * blocksize ≤ part.2.1 ∧ part.2.2 ≤ (part.1 + 1) * blocksize ∧ start ≤ part.2.1 := by
  induction tiles with
  | nil => cases member
  | cons lower ordered _ upper _ ih =>
    rcases List.mem_cons.mp member with rfl | later
    · exact ⟨lower, upper, le_rfl⟩
    · obtain ⟨below, above, behind⟩ := ih later
      exact ⟨below, above, ordered.trans behind⟩

theorem Tiles.apart (tiles : Tiles blocksize block start stop parts) :
    parts.Pairwise fun left right => left.2.2 ≤ right.2.1 := by
  induction tiles with
  | nil => exact .nil
  | cons _ _ _ _ later ih => exact .cons (fun part member => (later.inside member).2.2) ih

theorem Tiles.covers (tiles : Tiles blocksize block start stop parts) (offset : ℕ) :
    (∃ part ∈ parts, part.2.1 ≤ offset ∧ offset < part.2.2) ↔ start ≤ offset ∧ offset < stop := by
  induction tiles with
  | nil => simp
  | cons _ ordered _ _ later ih =>
    have further := later.le
    rw [List.exists_mem_cons_iff, ih]
    dsimp only
    omega

theorem splitsRange_locateRange (positive : 1 ≤ blocksize) (ordered : start < stop) :
    SplitsRange blocksize start stop (locateRange start stop blocksize) := by
  have tiles := tiles_locateRange positive ordered.le
  refine ⟨tiles.map_fst, fun part member => ?_, tiles.apart, tiles.covers⟩
  obtain ⟨lower, upper, -⟩ := tiles.inside member
  exact ⟨lower, locateRange_lt positive ordered member, upper⟩

end Range

/-- The raw data that a chunk shows a part of. -/
def Chunk.source (chunk : Chunk) : ChunkID × ℕ × ℕ × Option BlockAccess :=
  (chunk.id, chunk.rawOffset, chunk.rawSize, chunk.access)

/-- The raw data that is shown at an offset. -/
def sourceAt (chunks : List Chunk) (offset : ℕ) : Option (ChunkID × ℕ × ℕ × Option BlockAccess) :=
  (chunks.find? fun chunk => chunk.start ≤ offset ∧ offset < chunk.stop).map Chunk.source

section Sources

variable {chunks : List Chunk} {start stop cut : ℕ}

theorem sourceAt_cons (chunk : Chunk) (offset : ℕ) : sourceAt (chunk :: chunks) offset =
    if chunk.start ≤ offset ∧ offset < chunk.stop then some chunk.source else sourceAt chunks offset := by
  rw [sourceAt, List.find?_cons]
  split
  · next here => rw [if_pos (of_decide_eq_true here), Option.map_some]
  · next elsewhere => rw [if_neg (of_decide_eq_false elsewhere), sourceAt]

theorem sourceAt_append (more : List Chunk) (offset : ℕ) :
    sourceAt (chunks ++ more) offset = (sourceAt chunks offset).or (sourceAt more offset) := by
  rw [sourceAt, List.find?_append, Option.map_or, sourceAt, sourceAt]

namespace Consecutive

theorem append {middle : ℕ} {more : List Chunk} (front : Consecutive start chunks middle)
    (back : Consecutive middle more stop) : Consecutive start (chunks ++ more) stop := by
  induction chunks generalizing start with
  | nil =>
    cases front
    exact back
  | cons chunk rest ih =>
    obtain ⟨rfl, ordered, front⟩ := front
    exact ⟨rfl, ordered, ih front⟩

theorem keepBefore (consecutive : Consecutive start chunks stop) (lower : start ≤ cut) (upper : cut ≤ stop) :
    Consecutive start (keepBefore cut chunks) cut := by
  induction chunks generalizing start with
  | nil =>
    have same : start = stop := consecutive
    exact (by omega : start = cut)
  | cons chunk rest ih =>
    obtain ⟨rfl, ordered, consecutive⟩ := consecutive
    rw [Guardata.keepBefore]
    split
    · next whole => exact ⟨rfl, ordered, ih consecutive whole⟩
    · split
      · next inside => exact ⟨rfl, inside, rfl⟩
      · exact (by omega : chunk.start = cut)

theorem keepAfter (consecutive : Consecutive start chunks stop) (lower : start ≤ cut) :
    Consecutive cut (keepAfter cut chunks) (max stop cut) := by
  induction chunks generalizing start with
  | nil =>
    have same : start = stop := consecutive
    exact (by omega : cut = max stop cut)
  | cons chunk rest ih =>
    obtain ⟨rfl, ordered, consecutive⟩ := consecutive
    have beyond := consecutive.le
    rw [Guardata.keepAfter]
    split
    · next past => exact ih consecutive past
    · rw [max_eq_left (by omega)]
      split
      · exact ⟨rfl, by dsimp only; omega, consecutive⟩
      · exact ⟨by omega, ordered, consecutive⟩

/-- Nothing is shown in front of the chunks. -/
theorem sourceAt_eq_none (consecutive : Consecutive start chunks stop) {offset : ℕ} (before : offset < start) :
    sourceAt chunks offset = none := by
  induction chunks generalizing start with
  | nil => rfl
  | cons chunk rest ih =>
    obtain ⟨rfl, ordered, consecutive⟩ := consecutive
    rw [sourceAt_cons, if_neg (by omega), ih consecutive (by omega)]

theorem sourceAt_keepBefore (consecutive : Consecutive start chunks stop) (offset : ℕ) :
    sourceAt (Guardata.keepBefore cut chunks) offset =
      if offset < cut then sourceAt chunks offset else none := by
  induction chunks generalizing start with
  | nil => simp [Guardata.keepBefore, sourceAt]
  | cons chunk rest ih =>
    obtain ⟨rfl, ordered, consecutive⟩ := consecutive
    rw [Guardata.keepBefore]
    split
    · next whole =>
      rw [sourceAt_cons, sourceAt_cons, ih consecutive]
      by_cases here : chunk.start ≤ offset ∧ offset < chunk.stop
      · rw [if_pos here, if_pos here, if_pos (by omega)]
      · rw [if_neg here, if_neg here]
    · next crossed =>
      -- In front of the cut, only the chunk itself shows anything.
      have behind (early : offset < chunk.start) : sourceAt rest offset = none :=
        consecutive.sourceAt_eq_none (by omega)
      split
      · rw [sourceAt_cons, sourceAt_cons]
        dsimp only
        by_cases here : chunk.start ≤ offset ∧ offset < cut
        · rw [if_pos here, if_pos here.2, if_pos (by omega)]
          rfl
        · rw [if_neg here]
          split
          · rw [if_neg (by omega), behind (by omega)]
            rfl
          · rfl
      · split
        · rw [sourceAt_cons, if_neg (by omega), behind (by omega)]
          rfl
        · rfl

theorem sourceAt_keepAfter (consecutive : Consecutive start chunks stop) (offset : ℕ) :
    sourceAt (Guardata.keepAfter cut chunks) offset =
      if cut ≤ offset then sourceAt chunks offset else none := by
  induction chunks generalizing start with
  | nil => simp [Guardata.keepAfter, sourceAt]
  | cons chunk rest ih =>
    obtain ⟨rfl, ordered, consecutive⟩ := consecutive
    rw [Guardata.keepAfter]
    split
    · next past =>
      rw [ih consecutive, sourceAt_cons]
      split
      · rw [if_neg (by omega)]
      · rfl
    · next crossed =>
      have behind (early : offset < chunk.stop) : sourceAt rest offset = none :=
        consecutive.sourceAt_eq_none early
      split
      · rw [sourceAt_cons, sourceAt_cons]
        dsimp only
        split
        · rw [if_pos (by omega), if_pos (by omega)]
          rfl
        · split
          · rw [if_neg (by omega)]
          · exact behind (by omega)
      · split
        · rfl
        · rw [sourceAt_cons, if_neg (by omega), behind (by omega)]

end Consecutive

end Sources

/-- Located ranges are split exactly, and a block write replaces what is shown in its range. -/
theorem ranges_and_block_writes_exact :
    (∀ blocksize start stop : ℕ, 1 ≤ blocksize → start < stop →
      SplitsRange blocksize start stop (locateRange start stop blocksize)) ∧
    ∀ (chunks : List Chunk) (first last start stop : ℕ) (newChunk : Chunk), Consecutive first chunks last →
      first ≤ start → start ≤ last → start < stop → newChunk.start = start → newChunk.stop = stop →
        ∃ result, blockWrite chunks (stop - start) start newChunk =
            .ok (result, chunkIdSet chunks \ chunkIdSet result) ∧
          Consecutive first result (max last stop) ∧
          ∀ offset, sourceAt result offset =
            if start ≤ offset ∧ offset < stop then some newChunk.source else sourceAt chunks offset := by
  refine ⟨fun _ _ _ => splitsRange_locateRange, ?_⟩
  rintro chunks first last _ _ newChunk consecutive lower upper ordered rfl rfl
  have written := blockWrite_eq consecutive lower upper (Nat.sub_pos_of_lt ordered) newChunk
  rw [Nat.add_sub_cancel' ordered.le] at written
  refine ⟨_, written, ?_, fun offset => ?_⟩
  · exact (consecutive.keepBefore lower upper).append
      ⟨rfl, ordered, consecutive.keepAfter (lower.trans ordered.le)⟩
  · rw [sourceAt_append, sourceAt_cons, consecutive.sourceAt_keepBefore, consecutive.sourceAt_keepAfter]
    rcases lt_or_ge offset newChunk.start with before | behind
    · rw [if_pos before, if_neg (by omega), if_neg (by omega), if_neg (by omega), Option.or_none]
    · rw [if_neg (by omega), Option.none_or]
      split
      · rfl
      · rw [if_pos (by omega)]

/-- A write over the border of two chunks, and the parts of a range in three blocks. -/
theorem ranges_and_block_writes_exact_border :
    (SplitsRange 4 3 9 [(0, 3, 4), (1, 4, 8), (2, 8, 9)]) ∧
    ∃ result, blockWrite [⟨1, 0, 3, 0, 3, none⟩, ⟨2, 3, 8, 3, 5, none⟩] 4 2 ⟨3, 2, 6, 2, 4, none⟩ =
        .ok (result, ∅) ∧ Consecutive 0 result 8 ∧
      ∀ offset, sourceAt result offset = if 2 ≤ offset ∧ offset < 6 then some (3, 2, 4, none)
        else sourceAt [⟨1, 0, 3, 0, 3, none⟩, ⟨2, 3, 8, 3, 5, none⟩] offset := by
  obtain ⟨splits, writes⟩ := ranges_and_block_writes_exact
  obtain ⟨result, written, consecutive, shown⟩ := writes
    [⟨1, 0, 3, 0, 3, none⟩, ⟨2, 3, 8, 3, 5, none⟩] 0 8 2 6 ⟨3, 2, 6, 2, 4, none⟩
    ⟨rfl, by decide, rfl, by decide, rfl⟩ (by decide) (by decide) (by decide) rfl rfl
  refine ⟨splits 4 3 9 (by decide) (by decide), result, ?_, consecutive, shown⟩
  cases written
  rfl

end Guardata
