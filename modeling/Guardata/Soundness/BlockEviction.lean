import Guardata.Proofs.BlockStorage

/-! # Which blocks are evicted

However a block storage is used, it never keeps more blocks than its limit once one was set. The dates in its table
are those of the last calls that have asked for a block or set it, so what is evicted was accessed before everything
that is kept, and the block just set stays as long as the limit leaves room for any.
-/

namespace Guardata

/-- The block that a call asks for or sets. -/
def BlockCall.accessed : BlockCall → Option ChunkID
  | .getChunk chunkId | .setChunk chunkId _ => some chunkId
  | .clearChunk _ | .clearAllBlocks => none

/-- The date of the last call that has asked for a block or set it. -/
def lastAccess (calls : List (DateTime × BlockCall)) (chunkId : ChunkID) : Option DateTime :=
  (calls.reverse.find? fun call => call.2.accessed = some chunkId).map Prod.fst

/-- What a call does to a cache. -/
def cacheAfter (limit : ℕ) (cache : RecencyCache BlockID Bytes) : BlockCall → RecencyCache BlockID Bytes
  | .getChunk chunkId => cache.access chunkId
  | .setChunk chunkId raw => cache.insert limit (limit / 10) chunkId raw
  | .clearChunk chunkId => cache.erase chunkId
  | .clearAllBlocks => ∅

theorem lastAccess_append (calls : List (DateTime × BlockCall)) (call : DateTime × BlockCall) (chunkId : ChunkID) :
    lastAccess (calls ++ [call]) chunkId =
      if call.2.accessed = some chunkId then some call.1 else lastAccess calls chunkId := by
  rw [lastAccess, List.reverse_append, List.reverse_singleton, List.singleton_append, List.find?_cons]
  split
  · next here => rw [if_pos (of_decide_eq_true here), Option.map_some]
  · next elsewhere => rw [if_neg (of_decide_eq_false elsewhere), lastAccess]

theorem mem_of_lastAccess {calls : List (DateTime × BlockCall)} {chunkId : ChunkID} {date : DateTime}
    (last : lastAccess calls chunkId = some date) : date ∈ calls.map Prod.fst := by
  obtain ⟨call, found, rfl⟩ := Option.map_eq_some_iff.mp last
  exact List.mem_map_of_mem (List.mem_reverse.mp (List.mem_of_find?_eq_some found))

namespace BlockStorage

variable {storage : BlockStorage} {calls : List (DateTime × BlockCall)} {call : DateTime × BlockCall}
  {chunkId : ChunkID} {raw : Bytes} {now : DateTime} {row : ChunkRow}

/-- A call changes neither the key nor the size. -/
theorem afterCall_frame (storage : BlockStorage) (call : DateTime × BlockCall) :
    (storage.afterCall call).localSymkey = storage.localSymkey ∧
      (storage.afterCall call).cacheSize = storage.cacheSize := by
  obtain ⟨now, call⟩ := call
  cases call with
  | getChunk chunkId =>
    dsimp only [afterCall, ChunkStorage.getChunk]
    split <;> exact ⟨rfl, rfl⟩
  | setChunk chunkId raw =>
    dsimp only [afterCall, setChunk]
    split <;> exact ⟨rfl, rfl⟩
  | clearChunk chunkId => exact ⟨rfl, rfl⟩
  | clearAllBlocks => exact ⟨rfl, rfl⟩

theorem mem_rows_getChunk (member : row ∈ (storage.getChunk chunkId now).2.chunks.rows) :
    row.chunkId = chunkId ∧ (∃ old ∈ storage.chunks.rows, row = { old with accessedOn := now }) ∨
      row.chunkId ≠ chunkId ∧ row ∈ storage.chunks.rows := by
  rw [ChunkStorage.getChunk] at member
  cases found : storage.chunks.find? chunkId with
  | none =>
    rw [found] at member
    refine .inr ⟨?_, member⟩
    rintro rfl
    exact ChunkTable.find?_eq_none_iff.mp found (List.mem_map_of_mem member)
  | some first =>
    rw [found] at member
    obtain ⟨old, there, rfl⟩ := List.mem_map.mp member
    split
    · next here => exact .inl ⟨here, old, there, rfl⟩
    · next elsewhere => exact .inr ⟨elsewhere, there⟩

theorem mem_rows_setChunk (member : row ∈ (storage.setChunk chunkId raw now).chunks.rows) :
    row = ⟨chunkId, now, ⟨storage.localSymkey, raw⟩⟩ ∨
      row.chunkId ≠ chunkId ∧ row ∈ storage.chunks.rows := by
  have put : row ∈ (storage.toChunkStorage.setChunk chunkId raw now).chunks.rows := by
    dsimp only [setChunk] at member
    split at member
    · exact List.mem_of_mem_filter member
    · exact member
  rcases List.mem_append.mp put with old | new
  · obtain ⟨there, different⟩ := List.mem_filter.mp old
    exact .inr ⟨by simpa using different, there⟩
  · exact .inl (List.mem_singleton.mp new)

/-- After a call, the rows are that of the block it has accessed, and old ones. -/
theorem mem_rows_afterCall (keyed : storage.Keyed) (member : row ∈ (storage.afterCall call).chunks.rows) :
    row.data.key = storage.localSymkey ∧ (call.2.accessed = some row.chunkId ∧ row.accessedOn = call.1 ∨
      call.2.accessed ≠ some row.chunkId ∧ row ∈ storage.chunks.rows) := by
  obtain ⟨now, call⟩ := call
  cases call with
  | getChunk chunkId =>
    rcases mem_rows_getChunk member with ⟨same, old, there, rfl⟩ | ⟨different, there⟩
    · exact ⟨keyed old there, .inl ⟨congrArg some same.symm, rfl⟩⟩
    · exact ⟨keyed row there, .inr ⟨fun same => different (Option.some.inj same).symm, there⟩⟩
  | setChunk chunkId raw =>
    rcases mem_rows_setChunk member with rfl | ⟨different, there⟩
    · exact ⟨rfl, .inl ⟨rfl, rfl⟩⟩
    · exact ⟨keyed row there, .inr ⟨fun same => different (Option.some.inj same).symm, there⟩⟩
  | clearChunk chunkId =>
    have there := List.mem_of_mem_filter member
    exact ⟨keyed row there, .inr ⟨nofun, there⟩⟩
  | clearAllBlocks => cases member

/-- The table is in the state in which some calls leave it. -/
structure Follows (storage : BlockStorage) (calls : List (DateTime × BlockCall)) : Prop where
  dated : storage.chunks.Dated
  keyed : storage.Keyed
  accessed : ∀ row ∈ storage.chunks.rows, lastAccess calls row.chunkId = some row.accessedOn

theorem follows_empty (localSymkey : SecretKey) (cacheSize : ℕ) :
    Follows ⟨{ localSymkey }, cacheSize⟩ [] := ⟨.nil, nofun, nofun⟩

section Step

variable (follows : storage.Follows calls)
include follows

theorem Follows.before (later : ∀ earlier ∈ calls, earlier.1 < now) : storage.chunks.Before now := by
  intro row member
  obtain ⟨earlier, found, same⟩ := List.mem_map.mp (mem_of_lastAccess (follows.accessed row member))
  exact same ▸ later earlier found

variable (later : ∀ earlier ∈ calls, earlier.1 < call.1)
include later

/-- The step lemma: a call does to the cache what it does to the table, which stays in order. -/
theorem Follows.afterCall_spec : (storage.afterCall call).chunks.Dated ∧
    (storage.afterCall call).toCache = cacheAfter storage.blockLimit storage.toCache call.2 := by
  have before := follows.before later
  obtain ⟨now, call⟩ := call
  cases call with
  | getChunk chunkId => exact getChunk_spec follows.dated before chunkId
  | setChunk chunkId raw =>
    obtain ⟨dated, cached, -⟩ := setChunk_spec follows.dated before chunkId raw
    exact ⟨dated, cached⟩
  | clearChunk chunkId => exact clearChunk_spec follows.dated
  | clearAllBlocks => exact ⟨.nil, rfl⟩

theorem Follows.step : (storage.afterCall call).Follows (calls ++ [call]) := by
  refine ⟨(follows.afterCall_spec later).1, fun row member => ?_, fun row member => ?_⟩
  · rw [(storage.afterCall_frame call).1]
    exact (mem_rows_afterCall follows.keyed member).1
  · rw [lastAccess_append]
    rcases (mem_rows_afterCall follows.keyed member).2 with ⟨here, date⟩ | ⟨elsewhere, there⟩
    · rw [if_pos here, date]
    · rw [if_neg elsewhere, follows.accessed row there]

end Step

/-- What a new block pushes out was accessed before all that stays. -/
theorem Follows.lastAccess_lt (follows : storage.Follows calls) (later : ∀ earlier ∈ calls, earlier.1 < now)
    {evicted kept : ChunkID} (there : evicted ∈ storage.chunks.ids) (other : evicted ≠ chunkId)
    (gone : evicted ∉ (storage.setChunk chunkId raw now).chunks.ids)
    (stays : kept ∈ (storage.setChunk chunkId raw now).chunks.ids) :
    ∃ first last, lastAccess (calls ++ [(now, .setChunk chunkId raw)]) evicted = some first ∧
      lastAccess (calls ++ [(now, .setChunk chunkId raw)]) kept = some last ∧ first < last := by
  let after := storage.setChunk chunkId raw now
  have before := follows.before later
  have next : after.Follows (calls ++ [(now, .setChunk chunkId raw)]) :=
    follows.step (show ∀ earlier ∈ calls, earlier.1 < (now, BlockCall.setChunk chunkId raw).1 from later)
  obtain ⟨-, -, dropped, stands⟩ := setChunk_spec follows.dated before chunkId raw
  have ordered := follows.dated.append (fun row => row.chunkId ≠ chunkId)
    ⟨chunkId, now, ⟨storage.localSymkey, raw⟩⟩ before
  rw [stands, List.pairwise_append] at ordered
  obtain ⟨older, found, rfl⟩ := List.mem_map.mp there
  obtain ⟨newer, left, rfl⟩ := List.mem_map.mp stays
  have front : older ∈ dropped := by
    have member : older ∈ dropped ++ after.chunks.byAge := by
      rw [← stands]
      refine List.mem_append_left _ (List.mem_filter.mpr ⟨ChunkTable.mem_byAge.mpr found, ?_⟩)
      simpa using other
    refine (List.mem_append.mp member).resolve_right fun left => gone ?_
    exact List.mem_map_of_mem (ChunkTable.mem_byAge.mp left)
  refine ⟨older.accessedOn, newer.accessedOn, ?_, next.accessed newer left,
    ordered.2.2 older front newer (ChunkTable.mem_byAge.mpr left)⟩
  have elsewhere : (BlockCall.setChunk chunkId raw).accessed ≠ some older.chunkId :=
    fun same => other (Option.some.inj same).symm
  rw [lastAccess_append, if_neg elsewhere]
  exact follows.accessed older found

/-- The run lemma: as long as the clock moves on, the table is a cache that drops what was accessed least
recently. -/
theorem afterCalls_spec (localSymkey : SecretKey) (cacheSize : ℕ) {calls : List (DateTime × BlockCall)}
    (increasing : (calls.map Prod.fst).Pairwise (· < ·)) :
    let storage : BlockStorage := ⟨{ localSymkey }, cacheSize⟩
    (storage.afterCalls calls).Follows calls ∧ (storage.afterCalls calls).cacheSize = cacheSize ∧
      (storage.afterCalls calls).localSymkey = localSymkey ∧
      (storage.afterCalls calls).toCache =
        calls.foldl (fun cache call => cacheAfter storage.blockLimit cache call.2) ∅ := by
  intro storage
  induction calls using List.reverseRecOn with
  | nil => exact ⟨follows_empty localSymkey cacheSize, rfl, rfl, rfl⟩
  | append_singleton calls call ih =>
    rw [List.map_append, List.pairwise_append] at increasing
    obtain ⟨earlier, -, later⟩ := increasing
    obtain ⟨follows, size, key, cached⟩ := ih earlier
    replace later : ∀ earlier ∈ calls, earlier.1 < call.1 := fun earlier member =>
      later _ (List.mem_map_of_mem member) _ (List.mem_singleton_self _)
    obtain ⟨sameKey, sameSize⟩ := (storage.afterCalls calls).afterCall_frame call
    have last : storage.afterCalls (calls ++ [call]) = (storage.afterCalls calls).afterCall call :=
      List.foldl_append ..
    rw [last, List.foldl_append, ← cached]
    refine ⟨follows.step later, sameSize.trans size, sameKey.trans key, ?_⟩
    rw [(follows.afterCall_spec later).2, blockLimit, size]
    rfl

end BlockStorage

open BlockStorage in
/-- Whatever was done before, after a block is set there are no more blocks than the limit. If the limit leaves
room for any, the block is still there, and every evicted one was accessed before every one that is kept. -/
theorem block_cache_bounded (localSymkey : SecretKey) (cacheSize : ℕ) (earlier : List (DateTime × BlockCall))
    (now : DateTime) (chunkId : ChunkID) (raw : Bytes)
    (increasing : (earlier.map Prod.fst ++ [now]).Pairwise (· < ·)) :
    let before := BlockStorage.afterCalls ⟨{ localSymkey }, cacheSize⟩ earlier
    let after := before.setChunk chunkId raw now
    let calls := earlier ++ [(now, .setChunk chunkId raw)]
    after.getNbBlocks ≤ after.blockLimit ∧
      (1 ≤ after.blockLimit → (∀ date, (after.getChunk chunkId date).1 = .ok raw) ∧
        ∀ evicted ∈ before.chunks.ids, evicted ∉ after.chunks.ids → ∀ kept ∈ after.chunks.ids,
          ∃ first last, lastAccess calls evicted = some first ∧ lastAccess calls kept = some last ∧
            first < last) := by
  intro before after calls
  obtain ⟨first, -, apart⟩ := List.pairwise_append.mp increasing
  obtain ⟨follows, size, key, -⟩ := afterCalls_spec localSymkey cacheSize first
  have later : ∀ call ∈ earlier, call.1 < now := fun call member =>
    apart _ (List.mem_map_of_mem member) _ (List.mem_singleton_self _)
  obtain ⟨-, cached, -⟩ := setChunk_spec follows.dated (follows.before later) chunkId raw
  have next : after.Follows calls :=
    follows.step (show ∀ call ∈ earlier, call.1 < (now, BlockCall.setChunk chunkId raw).1 from later)
  have limits : after.blockLimit = before.blockLimit :=
    congrArg (· / defaultBlockSize) (before.afterCall_frame (now, .setChunk chunkId raw)).2
  refine ⟨?_, fun room => ?_⟩
  · rw [← length_toCache, cached, limits]
    exact RecencyCache.length_trim_le
  have found : after.toCache.get? chunkId = some raw := by
    rw [limits] at room
    rw [cached]
    exact RecencyCache.get?_insert_self (Nat.div_lt_self room (by decide))
  refine ⟨fun date => by rw [getChunk_fst next.keyed, found]; rfl, fun evicted there gone kept stays => ?_⟩
  refine follows.lastAccess_lt later there ?_ gone stays
  rintro rfl
  exact gone (mem_keys_toCache.mp (RecencyCache.mem_keys_iff.mpr ⟨raw, found⟩))

section Example

/-- Two blocks are set, and the older one is read again. -/
private def olderRead : List (DateTime × BlockCall) :=
  [(1, .setChunk 11 [1]), (2, .setChunk 12 [2]), (3, .getChunk 11)]

/-- With room for two blocks, a third one pushes out the one that was not read again. -/
theorem block_cache_bounded_third :
    let before := BlockStorage.afterCalls ⟨{ localSymkey := ⟨0⟩ }, 2 * defaultBlockSize⟩ olderRead
    let after := before.setChunk 13 [3] 4
    after.chunks.ids = [11, 13] ∧ after.getNbBlocks ≤ after.blockLimit ∧ (after.getChunk 13 5).1 = .ok [3] ∧
      ∀ kept ∈ after.chunks.ids, ∃ first last,
        lastAccess (olderRead ++ [(4, .setChunk 13 [3])]) 12 = some first ∧
        lastAccess (olderRead ++ [(4, .setChunk 13 [3])]) kept = some last ∧ first < last := by
  obtain ⟨bounded, kept⟩ := block_cache_bounded ⟨0⟩ (2 * defaultBlockSize) olderRead 4 13 [3] (by decide)
  obtain ⟨there, evicts⟩ := kept (by decide)
  exact ⟨by decide, bounded, there 5, evicts 12 (by decide) (by decide)⟩

end Example

end Guardata
