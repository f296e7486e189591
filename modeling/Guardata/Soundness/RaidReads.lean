import Guardata.Machine.Run
import Guardata.Proofs.Raid5

/-! # Reads from the RAID5 blockstore

Whatever attempts there were to create a block, a sub-blockstore that holds something under its key holds
its own part. Where one of them has nothing to give, the block can be read if that one times out or is the
one with the checksum, which is asked for only after a timeout. A sub-blockstore that answers that it does
not have the chunk trips a sanity check instead, and so does a key that none of them knows.
-/

namespace Guardata

open Machine

namespace RAID5BlockStore

variable {raid next : RAID5BlockStore} {key : BlockKey} {block : Bytes} {count index : ℕ}
  {answers : ℕ → Bool}

/-- The sub-blockstore has something under the key. -/
def HasPart (raid : RAID5BlockStore) (key : BlockKey) (index : ℕ) : Prop :=
  ∃ store part, raid.blockstores[index]? = some store ∧ store.blocks.get? key = some part

/-- The sub-blockstore answers, and has not missed the write. -/
def Delivers (raid : RAID5BlockStore) (key : BlockKey) (answers : ℕ → Bool) (index : ℕ) : Prop :=
  answers index = true ∧ raid.HasPart key index

/-- Who has something under the key of the block has its own part of the block. -/
structure Consistent (raid : RAID5BlockStore) (count : ℕ) (key : BlockKey) (block : Bytes) : Prop where
  size : raid.blockstores.length = count
  parts : ∀ (index : ℕ) (store : MemoryBlockStore) (part : Bytes),
    raid.blockstores[index]? = some store → store.blocks.get? key = some part →
    ∃ parts, chunksAndChecksum block (count - 1) = .ok parts ∧ parts[index]? = some part

section Create

theorem of_get?_partialCreate {store : MemoryBlockStore} {other : BlockKey} {chunk part : Bytes}
    {fate : CallFate} (found : (partialCreate store other chunk fate).blocks.get? key = some part) :
    store.blocks.get? key = some part ∨ other = key ∧ part = chunk := by
  unfold partialCreate at found
  split at found
  · split at found
    · next created =>
      simp only [MemoryBlockStore.create, Except.bind_eq_ok_iff, Except.pure_eq_ok_iff] at created
      obtain ⟨_, -, rfl⟩ := created
      rw [Dict.get?_insert] at found
      split at found
      · next same =>
        cases found
        exact .inr ⟨same.symm, rfl⟩
      · exact .inl found
    · exact .inl found
  · exact .inl found

theorem length_of_chunksAndChecksum {parts : List Bytes}
    (computed : chunksAndChecksum block count = .ok parts) :
    ∃ chunks checksum, splitBlockInChunks block count = .ok chunks ∧ chunks.length = count ∧
      generateChecksumChunk chunks = .ok checksum ∧ parts = chunks ++ [checksum] := by
  simp only [chunksAndChecksum, Except.bind_eq_ok_iff, Except.require_eq_ok_iff, Except.pure_eq_ok_iff,
    exists_const] at computed
  obtain ⟨chunks, split, sized, checksum, checked, rfl⟩ := computed
  exact ⟨chunks, checksum, split, sized, checked, rfl⟩

/-- The step lemma: an attempt with the block itself, or with another key. -/
theorem Consistent.step (consistent : raid.Consistent count key block) {call : CreateCall}
    (step : raid.step? call = some next) (same : call.key = key → call.block = block) :
    next.Consistent count key block := by
  obtain ⟨_, -, done⟩ := Option.bind_eq_some_iff.mp step
  cases done
  unfold create
  split
  · exact consistent
  · next parts computed =>
    obtain ⟨chunks, checksum, -, sized, -, rfl⟩ := length_of_chunksAndChecksum computed
    rw [consistent.size] at computed sized
    refine ⟨?_, ?_⟩
    · simp only [List.length_mapIdx, List.length_zip, consistent.size, List.length_append,
        List.length_singleton, sized]
      omega
    · intro index store part there found
      rw [List.getElem?_mapIdx, Option.map_eq_some_iff] at there
      obtain ⟨⟨before, chunk⟩, both, rfl⟩ := there
      obtain ⟨was, given⟩ := List.getElem?_zip_eq_some.mp both
      rcases of_get?_partialCreate found with old | ⟨sameKey, rfl⟩
      · exact consistent.parts index before part was old
      · rw [← same sameKey]
        exact ⟨_, computed, given⟩

theorem consistent_initial (count : ℕ) (key : BlockKey) (block : Bytes) :
    (RAID5BlockStore.mk (List.replicate count {})).Consistent count key block := by
  refine ⟨by simp, fun index store part there found => ?_⟩
  rw [List.getElem?_replicate] at there
  split at there
  · cases there
    cases found
  · cases there

end Create

section Read

theorem partialRead_of_not_answers (silent : answers index = false) :
    raid.partialRead key answers index = .error .timeout := by
  simp [partialRead, silent]

theorem partialRead_of_not_hasPart (answering : answers index = true)
    (inside : index < raid.blockstores.length) (missing : ¬raid.HasPart key index) :
    raid.partialRead key answers index = .error .notFound := by
  have there := List.getElem?_eq_getElem inside
  have nothing : raid.blockstores[index].blocks.get? key = none := by
    refine Option.eq_none_iff_forall_ne_some.mpr fun part found => ?_
    exact missing ⟨_, part, there, found⟩
  simp [partialRead, answering, there, MemoryBlockStore.read, nothing]

theorem Consistent.partialRead (consistent : raid.Consistent count key block) {parts : List Bytes}
    (computed : chunksAndChecksum block (count - 1) = .ok parts)
    (delivers : raid.Delivers key answers index) :
    ∃ part, parts[index]? = some part ∧ raid.partialRead key answers index = .ok part := by
  obtain ⟨answering, store, part, there, found⟩ := delivers
  obtain ⟨_, computed', given⟩ := consistent.parts index store part there found
  cases computed.symm.trans computed'
  exact ⟨part, given, by simp [RAID5BlockStore.partialRead, answering, there, MemoryBlockStore.read, found]⟩

/-- What a read gets for the chunks, where all of them are delivered but maybe one. -/
theorem Consistent.fetched (consistent : raid.Consistent count key block) {chunks : List Bytes}
    {checksum : Bytes} (computed : chunksAndChecksum block (count - 1) = .ok (chunks ++ [checksum]))
    (sized : chunks.length = count - 1) (failing : ℕ)
    (others : ∀ index < count - 1, index ≠ failing → raid.Delivers key answers index) :
    ((List.range (count - 1)).map fun index => some (raid.partialRead key answers index)) =
      (chunks.map fun chunk => some (.ok chunk)).set failing
        (some (raid.partialRead key answers failing)) := by
  refine List.ext_getElem (by simp [sized]) fun index inside _ => ?_
  simp only [List.length_map, List.length_range] at inside
  rw [List.getElem_set]
  split
  · next same => simp [same]
  · next other =>
    obtain ⟨part, given, read⟩ := consistent.partialRead computed (others index inside (Ne.symm other))
    rw [List.getElem?_append_left (sized ▸ inside)] at given
    obtain ⟨_, rfl⟩ := List.getElem?_eq_some_iff.mp given
    simp [read]

/-- Only the failing one counts. -/
theorem countP_set_map {α β : Type*} {test : β → Bool} {change : α → β} {list : List α}
    (others : ∀ value, test (change value) = false) {failing : ℕ} (inside : failing < list.length)
    (replacement : β) :
    ((list.map change).set failing replacement).countP test = if test replacement then 1 else 0 := by
  have none : (list.map change).countP test = 0 := by simp [List.countP_eq_zero, others]
  rw [List.countP_set (by simpa using inside), none]
  simp

theorem any_set_map {α β : Type*} {test : β → Bool} {change : α → β} {list : List α}
    (others : ∀ value, test (change value) = false) {failing : ℕ} (inside : failing < list.length)
    (replacement : β) :
    ((list.map change).set failing replacement).any test = test replacement := by
  rw [Bool.eq_iff_iff, List.any_eq_true, ← List.countP_pos_iff, countP_set_map others inside]
  cases test replacement <;> simp

section Parts

variable {chunks : List Bytes} {checksum : Bytes}

/-- All chunks are delivered: the checksum is not even asked for. -/
theorem Consistent.read_complete (consistent : raid.Consistent count key block)
    (split : splitBlockInChunks block (count - 1) = .ok chunks) (sized : chunks.length = count - 1)
    (computed : chunksAndChecksum block (count - 1) = .ok (chunks ++ [checksum]))
    (all : ∀ index < count - 1, raid.Delivers key answers index) :
    raid.read key answers = .ok block := by
  have fetched := consistent.fetched computed sized (count - 1)
    fun index inside _ => all index inside
  rw [List.set_eq_of_length_le (by simp [sized])] at fetched
  have results : raid.fetchResults key answers = chunks.map (fun chunk => some (.ok chunk)) ++ [none] := by
    rw [fetchResults, consistent.size, fetched]
    simp [FetchResult.isTimeout]
  have given : (chunks.map fun chunk => (some (.ok chunk) : FetchResult)).map FetchResult.chunk? =
      chunks.map some := by
    simp [FetchResult.chunk?]
  have counted (test : FetchResult → Bool) (others : ∀ chunk, test (some (.ok chunk)) = false) :
      (raid.fetchResults key answers).countP test = if test none then 1 else 0 := by
    rw [results, List.countP_append, List.countP_map]
    simp [Function.comp_def, others]
  have timeouts : (raid.fetchResults key answers).countP FetchResult.isTimeout = 0 :=
    counted _ fun _ => rfl
  have unasked : (raid.fetchResults key answers).countP Option.isNone = 1 := counted _ fun _ => rfl
  have exceptions : (raid.fetchResults key answers).countP FetchResult.isException = 0 :=
    counted _ fun _ => rfl
  simp only [read, timeouts, unasked, exceptions]
  rw [results, List.getLast?_concat, List.dropLast_concat, given]
  exact rebuild_map_some split none

/-- The sub-blockstore of one chunk times out: the checksum makes up for it. -/
theorem Consistent.read_timeout (consistent : raid.Consistent count key block)
    (split : splitBlockInChunks block (count - 1) = .ok chunks) (sized : chunks.length = count - 1)
    (checked : generateChecksumChunk chunks = .ok checksum)
    (computed : chunksAndChecksum block (count - 1) = .ok (chunks ++ [checksum])) {failing : ℕ}
    (inside : failing < count - 1) (silent : answers failing = false)
    (others : ∀ index < count, index ≠ failing → raid.Delivers key answers index) :
    raid.read key answers = .ok block := by
  have fetched := consistent.fetched computed sized failing
    fun index inside other => others index (by omega) other
  rw [partialRead_of_not_answers silent] at fetched
  have last : raid.partialRead key answers (count - 1) = .ok checksum := by
    obtain ⟨part, given, read⟩ :=
      consistent.partialRead computed (others (count - 1) (by omega) (by omega))
    rw [← sized, List.getElem?_concat_length] at given
    rw [read, Option.some_inj.mp given]
  have results : raid.fetchResults key answers =
      (chunks.map fun chunk => some (.ok chunk)).set failing (some (.error .timeout)) ++
        [some (.ok checksum)] := by
    rw [fetchResults, consistent.size, fetched, any_set_map (fun _ => rfl) (sized ▸ inside), last]
    rfl
  have given : ((chunks.map fun chunk => (some (.ok chunk) : FetchResult)).set failing
      (some (.error .timeout))).map FetchResult.chunk? = (chunks.map some).set failing none := by
    rw [List.map_set, List.map_map]
    rfl
  have counted (test : FetchResult → Bool) (others : ∀ chunk, test (some (.ok chunk)) = false) :
      (raid.fetchResults key answers).countP test = if test (some (.error .timeout)) then 1 else 0 := by
    rw [results, List.countP_append, countP_set_map others (sized ▸ inside)]
    simp [others]
  have timeouts : (raid.fetchResults key answers).countP FetchResult.isTimeout = 1 :=
    counted _ fun _ => rfl
  have unasked : (raid.fetchResults key answers).countP Option.isNone = 0 := counted _ fun _ => rfl
  have exceptions : (raid.fetchResults key answers).countP FetchResult.isException = 1 :=
    counted _ fun _ => rfl
  simp only [read, timeouts, unasked, exceptions]
  rw [results, List.getLast?_concat, List.dropLast_concat, given]
  exact rebuild_set_none split checked (sized ▸ inside)

/-- The sub-blockstore of one chunk answers that it does not have it. -/
theorem Consistent.read_missing (consistent : raid.Consistent count key block)
    (sized : chunks.length = count - 1)
    (computed : chunksAndChecksum block (count - 1) = .ok (chunks ++ [checksum])) {failing : ℕ}
    (inside : failing < count - 1) (answering : answers failing = true)
    (missing : ¬raid.HasPart key failing)
    (others : ∀ index < count, index ≠ failing → raid.Delivers key answers index) :
    raid.read key answers = .error .assertion := by
  have fetched := consistent.fetched computed sized failing
    fun index inside other => others index (by omega) other
  rw [partialRead_of_not_hasPart answering (by rw [consistent.size]; omega) missing] at fetched
  have results : raid.fetchResults key answers =
      (chunks.map fun chunk => some (.ok chunk)).set failing (some (.error .notFound)) ++ [none] := by
    rw [fetchResults, consistent.size, fetched, any_set_map (fun _ => rfl) (sized ▸ inside)]
    rfl
  have counted (test : FetchResult → Bool) (others : ∀ chunk, test (some (.ok chunk)) = false) :
      (raid.fetchResults key answers).countP test =
        (if test (some (.error .notFound)) then 1 else 0) + if test none then 1 else 0 := by
    rw [results, List.countP_append, countP_set_map others (sized ▸ inside)]
    simp
  have timeouts : (raid.fetchResults key answers).countP FetchResult.isTimeout = 0 :=
    counted _ fun _ => rfl
  have unasked : (raid.fetchResults key answers).countP Option.isNone = 1 := counted _ fun _ => rfl
  have exceptions : (raid.fetchResults key answers).countP FetchResult.isException = 1 :=
    counted _ fun _ => rfl
  simp only [read, timeouts, unasked, exceptions]
  rw [results, List.getLast?_concat]
  rfl

end Parts

end Read

section NotFound

theorem xorBuffers_ne_notFound (buffers : List Bytes) : xorBuffers buffers ≠ .error .notFound := by
  cases buffers with
  | nil => exact nofun
  | cons first rest =>
    refine Except.foldlM_ne_error (fun xored buff => ?_) rest first
    exact Except.bind_ne_error (Except.require_ne_error nofun) fun _ => nofun

theorem rebuild_ne_notFound (chunks : List (Option Bytes)) (checksum : Option Bytes) :
    rebuildBlockFromChunks chunks checksum ≠ .error .notFound := by
  have corrects : correctChunks chunks checksum ≠ .error .notFound := by
    unfold correctChunks
    split
    · exact nofun
    · refine Except.bind_ne_error ?_ fun _ => Except.bind_ne_error (xorBuffers_ne_notFound _) fun _ => nofun
      cases checksum <;> exact nofun
  have unpacks (data : Bytes) : unpackUint32 data ≠ .error .notFound := by
    unfold unpackUint32
    split <;> exact nofun
  exact Except.bind_ne_error (Except.require_ne_error nofun) fun _ => Except.bind_ne_error corrects
    fun _ => Except.bind_ne_error (unpacks _) fun _ => nofun

/-- No read says that a block was not found. -/
theorem read_ne_notFound (raid : RAID5BlockStore) (key : BlockKey) (answers : ℕ → Bool) :
    raid.read key answers ≠ .error .notFound := by
  have checked (cond : Prop) [Decidable cond] {next : Unit → Except BlockError Bytes}
      (continues : next () ≠ .error .notFound) :
      (Except.require cond BlockError.assertion >>= next) ≠ .error .notFound :=
    Except.bind_ne_error (Except.require_ne_error (by decide)) fun _ => continues
  unfold read
  dsimp only
  split
  · exact checked _ (checked _ (checked _ (rebuild_ne_notFound _ _)))
  · split
    · exact checked _ (checked _ (checked _ (rebuild_ne_notFound _ _)))
    · intro same
      cases same

end NotFound

end RAID5BlockStore

/-- Let the blocks of a key have been created any number of times, with any calls timing out or being
cancelled, and let all but at most one of the sub-blockstores be able to deliver their parts. Then a read
returns the block exactly if no sub-blockstore of a chunk answers that it missed the write. And a key that no
sub-blockstore knows is never reported as not found. -/
theorem raid5_read_returns_iff (count : ℕ) (large : 3 ≤ count) (calls : List RAID5BlockStore.CreateCall)
    (raid : RAID5BlockStore)
    (reached : run? RAID5BlockStore.step? ⟨List.replicate count {}⟩ calls = some raid)
    (key : BlockKey) (block : Bytes) (same : ∀ call ∈ calls, call.key = key → call.block = block)
    (answers : ℕ → Bool)
    (atMostOne : ∀ first < count, ∀ second < count, ¬raid.Delivers key answers first →
      ¬raid.Delivers key answers second → first = second) :
    (raid.read key answers = .ok block ↔
      ∀ index < count - 1, answers index = true → raid.HasPart key index) ∧
    ∀ unknown answers, (∀ index < count, ¬raid.HasPart unknown index) →
      raid.read unknown answers ≠ .error .notFound := by
  refine ⟨?_, fun unknown answers _ => raid.read_ne_notFound unknown answers⟩
  have preserved : ∀ state call next, RAID5BlockStore.step? state call = some next →
      (call.key = key → call.block = block) → state.Consistent count key block →
      next.Consistent count key block :=
    fun state call next step same consistent => consistent.step step same
  have consistent : raid.Consistent count key block :=
    run?_invariant preserved (along_of_forall_mem same) reached
      (RAID5BlockStore.consistent_initial count key block)
  -- Someone delivers, so the block can be cut into chunks.
  obtain ⟨_, computed⟩ : ∃ parts, RAID5BlockStore.chunksAndChecksum block (count - 1) = .ok parts := by
    have someone : raid.HasPart key 0 ∨ raid.HasPart key 1 := by
      by_contra nobody
      obtain ⟨first, second⟩ := not_or.mp nobody
      have equal := atMostOne 0 (by omega) 1 (by omega) (fun both => first both.2) fun both => second both.2
      omega
    rcases someone with ⟨store, part, there, found⟩ | ⟨store, part, there, found⟩ <;>
    · obtain ⟨parts, computed, -⟩ := consistent.parts _ store part there found
      exact ⟨parts, computed⟩
  obtain ⟨chunks, checksum, split, sized, checked, rfl⟩ :=
    RAID5BlockStore.length_of_chunksAndChecksum computed
  by_cases all : ∀ index < count - 1, raid.Delivers key answers index
  · exact iff_of_true (consistent.read_complete split sized computed all)
      fun index inside _ => (all index inside).2
  simp only [not_forall] at all
  obtain ⟨failing, inside, fails⟩ := all
  have others : ∀ index < count, index ≠ failing → raid.Delivers key answers index := by
    intro index inside' other
    by_contra fails'
    exact other (atMostOne index inside' failing (by omega) fails' fails)
  cases answering : answers failing with
  | false =>
    refine iff_of_true (consistent.read_timeout split sized checked computed inside answering others) ?_
    intro index inside' answers'
    have other : index ≠ failing := by
      rintro rfl
      rw [answering] at answers'
      cases answers'
    exact (others index (by omega) other).2
  | true =>
    have missing : ¬raid.HasPart key failing := fun has => fails ⟨answering, has⟩
    refine iff_of_false ?_ fun has => missing (has failing inside answering)
    rw [consistent.read_missing sized computed inside answering missing others]
    exact nofun

section Example

private def blockKey : BlockKey := ("org", 7)

/-- The first of three sub-blockstores times out when the block is created. -/
private def missedByFirst : RAID5BlockStore.CreateCall where
  key := blockKey
  block := [1, 2, 3]
  fates index := if index = 0 then .timedOut false else .served

/-- The three sub-blockstores after that. -/
private def afterwards : RAID5BlockStore :=
  ((RAID5BlockStore.mk (List.replicate 3 {})).create missedByFirst.key missedByFirst.block
    missedByFirst.fates).1

/-- Whoever answers, the other two deliver their parts. -/
private theorem only_first_fails (answers : ℕ → Bool) (others : answers 1 = true ∧ answers 2 = true) :
    ∀ index < 3, ¬afterwards.Delivers blockKey answers index → index = 0 := by
  intro index inside fails
  match index, inside with
  | 0, _ => rfl
  | 1, _ => exact absurd ⟨others.1, _, _, rfl, rfl⟩ fails
  | 2, _ => exact absurd ⟨others.2, _, _, rfl, rfl⟩ fails

theorem raid5_read_returns_first_down :
    run? RAID5BlockStore.step? ⟨List.replicate 3 {}⟩ [missedByFirst] = some afterwards ∧
      afterwards.read blockKey (fun index => decide (index ≠ 0)) = .ok [1, 2, 3] := by
  have first := only_first_fails (fun index => decide (index ≠ 0)) ⟨rfl, rfl⟩
  refine ⟨rfl, ((raid5_read_returns_iff 3 (by decide) [missedByFirst] afterwards rfl blockKey [1, 2, 3] ?_ _
    ?_).1).mpr ?_⟩
  · intro call member _
    cases List.mem_singleton.mp member
    rfl
  · intro one inside other inside' fails fails'
    rw [first one inside fails, first other inside' fails']
  · intro index inside answers
    match index, inside with
    | 0, _ => cases answers
    | 1, _ => exact ⟨_, _, rfl, rfl⟩

theorem missed_write_trips_assertion :
    ((RAID5BlockStore.mk (List.replicate 3 {})).create missedByFirst.key missedByFirst.block
        missedByFirst.fates).2 = .ok () ∧
      (∀ first < 3, ∀ second < 3, ¬afterwards.Delivers blockKey (fun _ => true) first →
        ¬afterwards.Delivers blockKey (fun _ => true) second → first = second) ∧
      afterwards.read blockKey (fun _ => true) = .error .assertion ∧
      (∀ index < 3, ¬afterwards.HasPart ("org", 8) index) ∧
      afterwards.read ("org", 8) (fun _ => true) = .error .assertion := by
  refine ⟨rfl, ?_, rfl, ?_, rfl⟩
  · intro one inside other inside' fails fails'
    rw [only_first_fails _ ⟨rfl, rfl⟩ one inside fails, only_first_fails _ ⟨rfl, rfl⟩ other inside' fails']
  · rintro index inside ⟨store, part, there, found⟩
    match index, inside with
    | 0, _ => cases there; cases found
    | 1, _ => cases there; cases found
    | 2, _ => cases there; cases found

end Example

end Guardata
