import Guardata.Model.Reencryption
import Guardata.Proofs.VlobAccess

/-! # What a re-encryption keeps track of

Every version of the original vlobs is either left to do, with its old blob, or done, with a blob that
decrypts to the same. Saving re-encrypted items keeps this. Once nothing is left, the reassembled vlobs have
the versions of the originals.
-/

namespace Guardata

variable {Plain β : Type}

namespace Reencryption

/-- The version under a key of `todo` and `done`. -/
def originalAt? (vlobs : Dict UUID (Vlob β)) : UUID × ℕ → Option (VlobVersion β)
  | (_, 0) => none
  | (vlobId, index + 1) => (vlobs.get? vlobId).bind (·.data[index]?)

theorem mem_versions_iff {vlobs : Dict UUID (Vlob β)} {key : UUID × ℕ} {blob : β} :
    (key, blob) ∈ versions vlobs ↔ ∃ version, originalAt? vlobs key = some version ∧ version.blob = blob := by
  obtain ⟨vlobId, number⟩ := key
  simp only [versions, List.mem_flatMap, List.mem_map, Prod.exists, List.mem_zipIdx_iff_getElem?,
    Prod.mk.injEq]
  constructor
  · rintro ⟨_, vlob, member, version, index, found, ⟨rfl, rfl⟩, same⟩
    refine ⟨version, ?_, same⟩
    simp [originalAt?, Dict.get?_eq_some_iff.mpr member, found]
  · rintro ⟨version, found, same⟩
    cases number with
    | zero => cases found
    | succ index =>
      obtain ⟨vlob, member, found⟩ := Option.bind_eq_some_iff.mp found
      exact ⟨vlobId, vlob, Dict.get?_eq_some_iff.mp member, version, index, found, ⟨rfl, rfl⟩, same⟩

theorem get?_todo_new {realmId : UUID} {vlobs : Dict UUID (Vlob β)} {key : UUID × ℕ} {blob : β} :
    (new realmId vlobs).todo.get? key = some blob ↔
      ∃ version, originalAt? vlobs key = some version ∧ version.blob = blob := by
  refine (Dict.get?_ofList_eq_some_iff ?_).trans mem_versions_iff
  intro key first second left right
  obtain ⟨version, found, rfl⟩ := mem_versions_iff.mp left
  obtain ⟨other, found', rfl⟩ := mem_versions_iff.mp right
  cases found.symm.trans found'
  rfl

/-- The item is a version of the original vlobs. -/
def IsOriginal (vlobs : Dict UUID (Vlob β)) (item : BatchItem β) : Prop :=
  ∃ version, originalAt? vlobs (item.1, item.2.1) = some version ∧ version.blob = item.2.2

/-- The blob decrypts under the new key to what the version does under the old one. -/
def Reencrypts (cipher : Cipher Plain β) (oldKey newKey : SecretKey) (version : VlobVersion β) (blob : β) :
    Prop :=
  ∃ plain, cipher.decrypt oldKey version.blob = some plain ∧ cipher.decrypt newKey blob = some plain

/-- The item is a re-encrypted version of the original vlobs. -/
def IsReencrypted (cipher : Cipher Plain β) (oldKey newKey : SecretKey) (vlobs : Dict UUID (Vlob β))
    (item : BatchItem β) : Prop :=
  ∃ version, originalAt? vlobs (item.1, item.2.1) = some version ∧
    Reencrypts cipher oldKey newKey version item.2.2

/-- Every version is left to do or done. -/
structure Tracks (cipher : Cipher Plain β) (oldKey newKey : SecretKey) (reencryption : Reencryption β) :
    Prop where
  todo : ∀ key blob, reencryption.todo.get? key = some blob →
    ∃ version, originalAt? reencryption.originalVlobs key = some version ∧ version.blob = blob
  done : ∀ key blob, reencryption.done.get? key = some blob →
    ∃ version, originalAt? reencryption.originalVlobs key = some version ∧
      Reencrypts cipher oldKey newKey version blob
  covers : ∀ key version, originalAt? reencryption.originalVlobs key = some version →
    reencryption.todo.contains key = true ∨ reencryption.done.contains key = true

/-- What is left to do and what is done are the versions of the original vlobs. -/
def Covers (reencryption : Reencryption β) : Prop :=
  ∀ key, (reencryption.todo.contains key = true ∨ reencryption.done.contains key = true) ↔
    ∃ version, originalAt? reencryption.originalVlobs key = some version

section Covering

variable {reencryption next : Reencryption β}

/-- Everything that a round of the loop has checked, and all that it changes. -/
theorem saveItem_eq_ok_iff {vlobId : UUID} {number : ℕ} {data : β} :
    reencryption.saveItem (vlobId, number, data) = .ok next ↔
      (reencryption.done.contains (vlobId, number) = true ∧ next = reencryption) ∨
      (reencryption.done.contains (vlobId, number) = false ∧
        reencryption.todo.contains (vlobId, number) = true ∧
        next = { reencryption with
          todo := reencryption.todo.erase (vlobId, number)
          done := reencryption.done.insert (vlobId, number) data }) := by
  unfold saveItem
  dsimp only
  by_cases done : reencryption.done.contains (vlobId, number) = true
  · simp only [done, if_true, true_and, Bool.true_eq_false, false_and, or_false, Except.ok.injEq]
    exact eq_comm
  · rw [Bool.not_eq_true] at done
    simp only [done, Bool.false_eq_true, if_false, false_and, false_or, true_and, Except.bind_eq_ok_iff,
      Except.require_eq_ok_iff, exists_const, Except.pure_eq_ok_iff]
    exact and_congr_right fun _ => eq_comm

/-- A round moves a version from what is left to what is done, if it is not there. -/
theorem Covers.saveItem (covers : reencryption.Covers) {item : BatchItem β}
    (saved : reencryption.saveItem item = .ok next) : next.Covers := by
  obtain ⟨vlobId, number, data⟩ := item
  rcases saveItem_eq_ok_iff.mp saved with ⟨-, rfl⟩ | ⟨-, left, rfl⟩
  · exact covers
  · intro key
    rw [← covers key, Dict.contains_insert_iff, Dict.contains, Dict.get?_erase]
    by_cases same : key = (vlobId, number)
    · subst same
      exact iff_of_true (.inr (.inl rfl)) (.inl left)
    · rw [if_neg same, or_iff_right (a := key = (vlobId, number)) same]
      exact Iff.rfl

end Covering

section Tracking

variable {cipher : Cipher Plain β} {oldKey newKey : SecretKey} {reencryption next : Reencryption β}

theorem Tracks.toCovers (tracks : reencryption.Tracks cipher oldKey newKey) : reencryption.Covers := by
  refine fun key => ⟨?_, fun ⟨version, is⟩ => tracks.covers key version is⟩
  rintro (left | done)
  · obtain ⟨blob, found⟩ := Dict.contains_eq_true_iff.mp left
    obtain ⟨version, is, -⟩ := tracks.todo key blob found
    exact ⟨version, is⟩
  · obtain ⟨blob, found⟩ := Dict.contains_eq_true_iff.mp done
    obtain ⟨version, is, -⟩ := tracks.done key blob found
    exact ⟨version, is⟩

theorem tracks_new (realmId : UUID) (vlobs : Dict UUID (Vlob β)) :
    (new realmId vlobs).Tracks cipher oldKey newKey := by
  refine ⟨fun key blob found => get?_todo_new.mp found, ?_, ?_⟩
  · intro key blob found
    cases found
  · intro key version found
    exact .inl (Dict.contains_eq_true_iff.mpr ⟨version.blob, get?_todo_new.mpr ⟨version, found, rfl⟩⟩)

theorem Tracks.isOriginal_of_mem_getBatch (tracks : reencryption.Tracks cipher oldKey newKey) {size : ℕ}
    {item : BatchItem β} (member : item ∈ reencryption.getBatch size) :
    IsOriginal reencryption.originalVlobs item := by
  obtain ⟨⟨key, blob⟩, left, rfl⟩ := List.mem_map.mp (List.mem_of_mem_take member)
  exact tracks.todo key blob (Dict.get?_eq_some_iff.mpr (List.mem_of_mem_filter left))

theorem originalVlobs_saveItem {item : BatchItem β} (saved : reencryption.saveItem item = .ok next) :
    next.originalVlobs = reencryption.originalVlobs ∧ next.realmId = reencryption.realmId := by
  rcases saveItem_eq_ok_iff.mp saved with ⟨-, rfl⟩ | ⟨-, -, rfl⟩ <;> exact ⟨rfl, rfl⟩

/-- A round of the loop: the version moves from what is left to what is done. -/
theorem Tracks.saveItem (tracks : reencryption.Tracks cipher oldKey newKey) {item : BatchItem β}
    (reencrypted : IsReencrypted cipher oldKey newKey reencryption.originalVlobs item)
    (saved : reencryption.saveItem item = .ok next) : next.Tracks cipher oldKey newKey := by
  obtain ⟨vlobId, version, data⟩ := item
  have covers := tracks.toCovers.saveItem saved
  rcases saveItem_eq_ok_iff.mp saved with ⟨-, rfl⟩ | ⟨-, -, rfl⟩
  · exact tracks
  · refine ⟨?_, ?_, fun key original found => (covers key).mpr ⟨original, found⟩⟩
    · intro key blob found
      rw [Dict.get?_erase] at found
      split at found
      · cases found
      · exact tracks.todo key blob found
    · intro key blob found
      rw [Dict.get?_insert] at found
      split at found
      · next same =>
        cases found
        subst same
        exact reencrypted
      · exact tracks.done key blob found

theorem originalVlobs_saveBatch (reencryption : Reencryption β) (batch : List (BatchItem β)) :
    (reencryption.saveBatch batch).1.originalVlobs = reencryption.originalVlobs ∧
      (reencryption.saveBatch batch).1.realmId = reencryption.realmId := by
  induction batch generalizing reencryption with
  | nil => exact ⟨rfl, rfl⟩
  | cons item rest ih =>
    unfold saveBatch
    split
    · next saved =>
      obtain ⟨vlobs, realm⟩ := originalVlobs_saveItem saved
      exact ⟨(ih _).1.trans vlobs, (ih _).2.trans realm⟩
    · exact ⟨rfl, rfl⟩

theorem Tracks.saveBatch (tracks : reencryption.Tracks cipher oldKey newKey) {batch : List (BatchItem β)}
    (reencrypted : ∀ item ∈ batch, IsReencrypted cipher oldKey newKey reencryption.originalVlobs item) :
    (reencryption.saveBatch batch).1.Tracks cipher oldKey newKey := by
  induction batch generalizing reencryption with
  | nil => exact tracks
  | cons item rest ih =>
    unfold Reencryption.saveBatch
    split
    · next saved =>
      refine ih (tracks.saveItem (reencrypted item (List.mem_cons_self ..)) saved) fun other member => ?_
      rw [(originalVlobs_saveItem saved).1]
      exact reencrypted other (List.mem_cons_of_mem _ member)
    · exact tracks

end Tracking

section Batches

variable {reencryption next : Reencryption β}

/-- A round only fails on something that is neither left nor done. -/
theorem exists_saveItem_iff {item : BatchItem β} :
    (∃ next, reencryption.saveItem item = .ok next) ↔ reencryption.todo.contains (item.1, item.2.1) = true ∨
      reencryption.done.contains (item.1, item.2.1) = true := by
  obtain ⟨vlobId, number, data⟩ := item
  simp only [saveItem_eq_ok_iff]
  constructor
  · rintro ⟨_, ⟨done, -⟩ | ⟨-, left, -⟩⟩
    · exact .inr done
    · exact .inl left
  · intro known
    by_cases done : reencryption.done.contains (vlobId, number) = true
    · exact ⟨_, .inl ⟨done, rfl⟩⟩
    · exact ⟨_, .inr ⟨by simpa using done, known.resolve_right done, rfl⟩⟩

end Batches

section Reassembly

variable {reencryption : Reencryption β} {vlobs next : Dict UUID (Vlob β)}
  {processed : List ((UUID × ℕ) × β)} {item : (UUID × ℕ) × β}

/-- The versions of a vlob, none if it is not there. -/
def dataOf (vlobs : Dict UUID (Vlob β)) (vlobId : UUID) : List (VlobVersion β) :=
  ((vlobs.get? vlobId).map (·.data)).getD []

/-- The vlobs that have been put together from some items. -/
structure Assembled (reencryption : Reencryption β) (processed : List ((UUID × ℕ) × β))
    (vlobs : Dict UUID (Vlob β)) : Prop where
  vlob : ∀ vlobId vlob, vlobs.get? vlobId = some vlob →
    vlob.realmId = reencryption.realmId ∧ vlob.data ≠ []
  counted : ∀ vlobId number, (vlobId, number) ∈ processed.map Prod.fst ↔
    1 ≤ number ∧ number ≤ (dataOf vlobs vlobId).length
  copied : ∀ vlobId index version, (dataOf vlobs vlobId)[index]? = some version →
    ∃ original, originalAt? reencryption.originalVlobs (vlobId, index + 1) = some original ∧
      version.author = original.author ∧ version.timestamp = original.timestamp ∧
      ((vlobId, index + 1), version.blob) ∈ processed

theorem dataOf_insert (vlobs : Dict UUID (Vlob β)) (vlobId other : UUID) (vlob : Vlob β) :
    dataOf (vlobs.insert vlobId vlob) other = if other = vlobId then vlob.data else dataOf vlobs other := by
  rw [dataOf, Dict.get?_insert]
  split <;> rfl

/-- Everything that a round of the loop has checked, and all that it changes. -/
theorem appendVersion_eq_ok_iff {vlobId : UUID} {number : ℕ} {blob : β} :
    reencryption.appendVersion vlobs ((vlobId, number), blob) = .ok next ↔
      ∃ vlob original, reencryption.originalVlobs.get? vlobId = some vlob ∧
        MemoryVlobComponent.versionAt? vlob.data number = some original ∧
        (dataOf vlobs vlobId).length + 1 = number ∧
        next = vlobs.insert vlobId
          ⟨((vlobs.get? vlobId).map (·.realmId)).getD reencryption.realmId,
            dataOf vlobs vlobId ++ [⟨blob, original.author, original.timestamp⟩]⟩ := by
  simp only [appendVersion, Except.bind_eq_ok_iff, Except.require_eq_ok_iff, Except.pure_eq_ok_iff,
    exists_const, Option.elim_eq_ok_iff, List.length_append, List.length_singleton, dataOf]
  constructor
  · rintro ⟨vlob, isVlob, original, isOriginal, counts, rfl⟩
    exact ⟨vlob, original, isVlob, isOriginal, counts, rfl⟩
  · rintro ⟨vlob, original, isVlob, isOriginal, counts, rfl⟩
    exact ⟨vlob, isVlob, original, isOriginal, counts, rfl⟩

theorem assembled_empty : reencryption.Assembled [] ∅ := by
  refine ⟨?_, ?_, ?_⟩
  · intro vlobId vlob found
    cases found
  · intro vlobId number
    simp only [List.map_nil, List.not_mem_nil, dataOf, Dict.get?_empty, Option.map_none, Option.getD_none,
      List.length_nil, false_iff]
    omega
  · intro vlobId index version found
    cases found

/-- A round of the loop adds one version. -/
theorem Assembled.appendVersion (assembled : reencryption.Assembled processed vlobs)
    (appended : reencryption.appendVersion vlobs item = .ok next) :
    reencryption.Assembled (processed ++ [item]) next := by
  obtain ⟨⟨vlobId, number⟩, blob⟩ := item
  obtain ⟨vlob, original, isVlob, isOriginal, rfl, rfl⟩ := appendVersion_eq_ok_iff.mp appended
  refine ⟨?_, ?_, ?_⟩
  · intro other vlob found
    rw [Dict.get?_insert] at found
    split at found
    · cases found
      refine ⟨?_, by simp⟩
      cases before : vlobs.get? vlobId with
      | none => rfl
      | some vlob => exact (assembled.vlob vlobId vlob before).1
    · exact assembled.vlob other vlob found
  · intro other number
    rw [List.map_append, List.mem_append, assembled.counted other number, dataOf_insert]
    by_cases same : other = vlobId
    · subst same
      simp only [List.map_cons, List.map_nil, List.mem_singleton, Prod.mk.injEq, true_and, if_true,
        List.length_append, List.length_singleton]
      omega
    · simp [same]
  · intro other index version found
    rw [dataOf_insert] at found
    split at found
    · next same =>
      subst same
      rcases Nat.lt_trichotomy index (dataOf vlobs other).length with before | rfl | behind
      · rw [List.getElem?_append_left before] at found
        obtain ⟨old, is, author, timestamp, member⟩ := assembled.copied other index version found
        exact ⟨old, is, author, timestamp, List.mem_append_left _ member⟩
      · rw [List.getElem?_concat_length] at found
        cases found
        refine ⟨original, ?_, rfl, rfl, by simp⟩
        rw [originalAt?, isVlob]
        exact isOriginal
      · rw [List.getElem?_eq_none (by simp; omega)] at found
        cases found
    · obtain ⟨old, is, author, timestamp, member⟩ := assembled.copied other index version found
      exact ⟨old, is, author, timestamp, List.mem_append_left _ member⟩

theorem Assembled.foldlM {rest : List ((UUID × ℕ) × β)}
    (assembled : reencryption.Assembled processed vlobs)
    (folded : rest.foldlM reencryption.appendVersion vlobs = .ok next) :
    reencryption.Assembled (processed ++ rest) next := by
  induction rest generalizing processed vlobs with
  | nil =>
    cases folded
    simpa using assembled
  | cons item rest ih =>
    rw [List.foldlM_cons, Except.bind_eq_ok_iff] at folded
    obtain ⟨middle, appended, folded⟩ := folded
    simpa using ih (assembled.appendVersion appended) folded

theorem originalAt?_succ {vlobId : UUID} {vlob : Vlob β} (found : vlobs.get? vlobId = some vlob) (index : ℕ) :
    originalAt? vlobs (vlobId, index + 1) = vlob.data[index]? := by
  rw [originalAt?, found]
  rfl

/-- The items in the order of the loop. -/
def sortedDone (reencryption : Reencryption β) : List ((UUID × ℕ) × β) :=
  reencryption.done.items.sortedBy fun item => toLex item.1

/-- Once nothing is left to do, the loop goes over all the versions. -/
theorem Covers.mem_sortedDone_iff (covers : reencryption.Covers)
    (finished : reencryption.isFinished = true) {key : UUID × ℕ} :
    key ∈ reencryption.sortedDone.map Prod.fst ↔
      ∃ version, originalAt? reencryption.originalVlobs key = some version := by
  have nothing : reencryption.todo.contains key = false := by
    rw [← Bool.not_eq_true, Dict.contains_eq_true_iff]
    rintro ⟨blob, found⟩
    rw [Dict.get?_eq_some_iff, List.isEmpty_iff.mp finished] at found
    cases found
  rw [← covers key, nothing, or_iff_right Bool.false_ne_true, Dict.contains_eq_true_iff]
  simp only [List.mem_map, sortedDone, List.mem_sortedBy, Prod.exists, exists_and_right, exists_eq_right,
    ← Dict.get?_eq_some_iff]

theorem isFinished_of_getReencryptedVlobs (got : reencryption.getReencryptedVlobs = .ok vlobs) :
    reencryption.isFinished = true := by
  simp only [getReencryptedVlobs, Except.bind_eq_ok_iff, Except.require_eq_ok_iff, exists_const] at got
  exact got.1

/-- The vlobs that come out have the versions of the originals, with the blobs that were saved. -/
theorem Covers.reassembled (covers : reencryption.Covers)
    (got : reencryption.getReencryptedVlobs = .ok vlobs) :
    (∀ vlobId vlob, vlobs.get? vlobId = some vlob → vlob.realmId = reencryption.realmId ∧
      ∃ original, reencryption.originalVlobs.get? vlobId = some original) ∧
    ∀ vlobId original, reencryption.originalVlobs.get? vlobId = some original →
      original.data.length = (dataOf vlobs vlobId).length ∧
      ∀ index old new, original.data[index]? = some old → (dataOf vlobs vlobId)[index]? = some new →
        new.author = old.author ∧ new.timestamp = old.timestamp ∧
          reencryption.done.get? (vlobId, index + 1) = some new.blob := by
  simp only [getReencryptedVlobs, Except.bind_eq_ok_iff, Except.require_eq_ok_iff, exists_const] at got
  obtain ⟨finished, folded⟩ := got
  have assembled : reencryption.Assembled reencryption.sortedDone vlobs := assembled_empty.foldlM folded
  have counted (vlobId : UUID) (index : ℕ) :
      index < (dataOf vlobs vlobId).length ↔
        ∃ version, originalAt? reencryption.originalVlobs (vlobId, index + 1) = some version := by
    rw [← covers.mem_sortedDone_iff finished, assembled.counted]
    omega
  refine ⟨?_, ?_⟩
  · intro vlobId vlob found
    obtain ⟨realm, nonempty⟩ := assembled.vlob vlobId vlob found
    have data : dataOf vlobs vlobId = vlob.data := by
      rw [dataOf, found]
      rfl
    obtain ⟨version, is⟩ := (counted vlobId 0).mp (by rw [data]; exact List.length_pos_iff.mpr nonempty)
    obtain ⟨original, is, -⟩ := Option.bind_eq_some_iff.mp is
    exact ⟨realm, original, is⟩
  · intro vlobId original isOriginal
    have same : original.data.length = (dataOf vlobs vlobId).length := by
      refine eq_of_forall_lt_iff fun index => ?_
      rw [counted, originalAt?_succ isOriginal]
      constructor
      · intro inside
        exact ⟨_, List.getElem?_eq_getElem inside⟩
      · rintro ⟨_, found⟩
        exact (List.getElem?_eq_some_iff.mp found).1
    refine ⟨same, fun index old new before after => ?_⟩
    obtain ⟨_, isOld, author, timestamp, member⟩ := assembled.copied vlobId index new after
    rw [originalAt?_succ isOriginal, before] at isOld
    cases isOld
    exact ⟨author, timestamp, Dict.get?_eq_some_iff.mpr ((List.mem_sortedBy _).mp member)⟩

/-- The next version that the loop comes to is the next one of its vlob. -/
theorem Covers.next_number (covers : reencryption.Covers)
    (finished : reencryption.isFinished = true) {rest : List ((UUID × ℕ) × β)} {vlobId : UUID} {index : ℕ}
    {blob : β} (split : reencryption.sortedDone = processed ++ ((vlobId, index + 1), blob) :: rest)
    (assembled : reencryption.Assembled processed vlobs) : (dataOf vlobs vlobId).length = index := by
  have distinct : (reencryption.sortedDone.map Prod.fst).Nodup :=
    ((List.perm_insertionSort _ _).map Prod.fst).nodup_iff.mpr reencryption.done.nodup
  have sorted := List.sortedBy_pairwise (fun item => toLex item.1) reencryption.done.items
  change reencryption.sortedDone.Pairwise _ at sorted
  rw [split] at distinct sorted
  apply Nat.le_antisymm
  · -- It has not been there before.
    by_contra! more
    have member := (assembled.counted vlobId (index + 1)).mpr ⟨by omega, more⟩
    rw [List.map_append, List.nodup_append] at distinct
    exact distinct.2.2 _ member _ (List.mem_map.mpr ⟨_, List.mem_cons_self .., rfl⟩) rfl
  · -- The one before comes earlier.
    cases index with
    | zero => exact Nat.zero_le _
    | succ index =>
      have here : (vlobId, index + 1 + 1) ∈ reencryption.sortedDone.map Prod.fst := by
        rw [split]
        simp
      obtain ⟨version, is⟩ := (covers.mem_sortedDone_iff finished).mp here
      obtain ⟨vlob, isVlob, is⟩ := Option.bind_eq_some_iff.mp is
      have inside := (List.getElem?_eq_some_iff.mp is).1
      have member : (vlobId, index + 1) ∈ reencryption.sortedDone.map Prod.fst := by
        refine (covers.mem_sortedDone_iff finished).mpr ⟨vlob.data[index], ?_⟩
        rw [originalAt?_succ isVlob, List.getElem?_eq_getElem]
      rw [split, List.map_append, List.mem_append] at member
      rcases member with earlier | later
      · exact ((assembled.counted vlobId (index + 1)).mp earlier).2
      · obtain ⟨other, member, same⟩ := List.mem_map.mp later
        have behind : toLex (vlobId, index + 1 + 1) ≤ toLex other.1 := by
          rcases List.mem_cons.mp member with rfl | member
          · exact le_refl _
          · exact (List.pairwise_cons.mp (List.pairwise_append.mp sorted).2.1).1 other member
        rw [same, Prod.Lex.toLex_le_toLex] at behind
        rcases behind with less | ⟨-, less⟩
        · exact absurd less (lt_irrefl _)
        · exact absurd less (Nat.not_succ_le_self _)

/-- No assertion of the loop fails: once nothing is left to do, the vlobs do come out. -/
theorem Covers.exists_reassembled (covers : reencryption.Covers)
    (finished : reencryption.isFinished = true) :
    ∃ vlobs, reencryption.getReencryptedVlobs = .ok vlobs := by
  have goesOn (processed rest : List ((UUID × ℕ) × β)) (vlobs : Dict UUID (Vlob β))
      (split : reencryption.sortedDone = processed ++ rest)
      (assembled : reencryption.Assembled processed vlobs) :
      ∃ next, rest.foldlM reencryption.appendVersion vlobs = .ok next := by
    induction rest generalizing processed vlobs with
    | nil => exact ⟨vlobs, rfl⟩
    | cons item rest ih =>
      obtain ⟨⟨vlobId, number⟩, blob⟩ := item
      have here : (vlobId, number) ∈ reencryption.sortedDone.map Prod.fst := by
        rw [split]
        simp
      obtain ⟨version, is⟩ := (covers.mem_sortedDone_iff finished).mp here
      cases number with
      | zero => cases is
      | succ index =>
        obtain ⟨vlob, isVlob, is⟩ := Option.bind_eq_some_iff.mp is
        have counts := covers.next_number finished split assembled
        have appended : reencryption.appendVersion vlobs ((vlobId, index + 1), blob) = .ok _ :=
          appendVersion_eq_ok_iff.mpr ⟨vlob, version, isVlob, is, by rw [counts], rfl⟩
        rw [List.foldlM_cons, appended]
        exact ih (processed ++ [((vlobId, index + 1), blob)]) _ (by simp [split])
          (assembled.appendVersion appended)
  obtain ⟨vlobs, folded⟩ := goesOn [] _ ∅ rfl assembled_empty
  refine ⟨vlobs, ?_⟩
  rw [getReencryptedVlobs, Except.require, if_pos finished]
  exact folded

section Carrying

variable {cipher : Cipher Plain β} {oldKey newKey : SecretKey}

/-- A version and what has become of it. -/
def Carried (cipher : Cipher Plain β) (oldKey newKey : SecretKey) (old new : VlobVersion β) : Prop :=
  new.author = old.author ∧ new.timestamp = old.timestamp ∧ Reencrypts cipher oldKey newKey old new.blob

/-- What comes out decrypts to the same as the originals. -/
theorem Tracks.carried (tracks : reencryption.Tracks cipher oldKey newKey)
    (got : reencryption.getReencryptedVlobs = .ok vlobs) {vlobId : UUID} {original : Vlob β}
    (isOriginal : reencryption.originalVlobs.get? vlobId = some original) :
    List.Forall₂ (Carried cipher oldKey newKey) original.data (dataOf vlobs vlobId) := by
  obtain ⟨same, copied⟩ := (tracks.toCovers.reassembled got).2 vlobId original isOriginal
  refine List.forall₂_iff_get.mpr ⟨same, fun index before after => ?_⟩
  have there := List.getElem?_eq_getElem before
  obtain ⟨author, timestamp, done⟩ := copied index _ _ there (List.getElem?_eq_getElem after)
  obtain ⟨version, is, reencrypts⟩ := tracks.done _ _ done
  rw [originalAt?_succ isOriginal, there] at is
  cases is
  exact ⟨author, timestamp, reencrypts⟩

end Carrying

end Reassembly

end Reencryption

namespace ReencryptionJob

open Reencryption

/-- A batch of original versions is re-encrypted. -/
theorem isReencrypted_of_reencrypt {cipher : Cipher Plain β} {job : ReencryptionJob}
    (correct : ∀ key nonce plain, cipher.decrypt key (cipher.encrypt key nonce plain) = some plain)
    {vlobs : Dict UUID (Vlob β)} {nonces : UUID → ℕ → ℕ} {batch donebatch : List (BatchItem β)}
    (originals : ∀ item ∈ batch, IsOriginal vlobs item)
    (done : job.reencrypt cipher nonces batch = some donebatch) :
    ∀ item ∈ donebatch,
      IsReencrypted cipher job.oldWorkspaceEntry.key job.newWorkspaceEntry.key vlobs item := by
  induction batch generalizing donebatch with
  | nil =>
    cases done
    exact nofun
  | cons first rest ih =>
    obtain ⟨vlobId, number, blob⟩ := first
    simp only [reencrypt, List.mapM_cons, Option.bind_eq_bind, Option.bind_eq_some_iff, Option.pure_def,
      Option.some.injEq] at done
    obtain ⟨_, ⟨cleartext, decrypted, rfl⟩, others, isOthers, rfl⟩ := done
    intro item member
    rcases List.mem_cons.mp member with rfl | member
    · obtain ⟨version, is, same⟩ := originals _ (List.mem_cons_self ..)
      refine ⟨version, is, cleartext, ?_, correct ..⟩
      rw [same]
      exact decrypted
    · exact ih (fun other there => originals other (List.mem_cons_of_mem _ there)) isOthers item member

end ReencryptionJob

namespace ReencryptionBackend

variable {backend next : ReencryptionBackend β} {organizationId : OrganizationID} {realmId : UUID}

theorem get?_realmVlobs {vlobId : UUID} {vlob : Vlob β} :
    (backend.realmVlobs organizationId realmId).get? vlobId = some vlob ↔
      backend.vlobs.vlobs.get? (organizationId, vlobId) = some vlob ∧ vlob.realmId = realmId := by
  obtain ⟨entries, is, member⟩ : ∃ entries, backend.realmVlobs organizationId realmId = .ofList entries ∧
      ∀ vlobId vlob, (vlobId, vlob) ∈ entries ↔
        backend.vlobs.vlobs.get? (organizationId, vlobId) = some vlob ∧ vlob.realmId = realmId := by
    refine ⟨_, rfl, fun vlobId vlob => ?_⟩
    rw [List.mem_filterMap, Dict.get?_eq_some_iff]
    constructor
    · rintro ⟨⟨⟨org, other⟩, found⟩, there, kept⟩
      dsimp only at kept
      split at kept
      · next both =>
        cases kept
        exact ⟨both.1 ▸ there, both.2⟩
      · cases kept
    · rintro ⟨there, same⟩
      exact ⟨_, there, if_pos ⟨rfl, same⟩⟩
  rw [is]
  refine (Dict.get?_ofList_eq_some_iff ?_).trans (member vlobId vlob)
  intro key first second left right
  exact Option.some_inj.mp (((member ..).mp left).1.symm.trans ((member ..).mp right).1)

theorem get?_replaceVlobs (vlobs : Dict UUID (Vlob β)) (org : OrganizationID) (vlobId : UUID) :
    (backend.replaceVlobs organizationId realmId vlobs).vlobs.vlobs.get? (org, vlobId) =
      if org = organizationId then (vlobs.get? vlobId).or (backend.vlobs.vlobs.get? (org, vlobId))
      else backend.vlobs.vlobs.get? (org, vlobId) := by
  obtain ⟨entries, is, member⟩ : ∃ entries,
      (backend.replaceVlobs organizationId realmId vlobs).vlobs.vlobs =
        backend.vlobs.vlobs.insertMany entries ∧
      ∀ org vlobId vlob, ((org, vlobId), vlob) ∈ entries ↔
        org = organizationId ∧ vlobs.get? vlobId = some vlob := by
    refine ⟨_, rfl, fun org vlobId vlob => ?_⟩
    rw [List.mem_map, Dict.get?_eq_some_iff]
    constructor
    · rintro ⟨_, there, same⟩
      cases same
      exact ⟨rfl, there⟩
    · rintro ⟨rfl, there⟩
      exact ⟨_, there, rfl⟩
  have functional (key : OrganizationID × UUID) (first second : Vlob β) (left : (key, first) ∈ entries)
      (right : (key, second) ∈ entries) : first = second :=
    Option.some_inj.mp (((member ..).mp left).2.symm.trans ((member ..).mp right).2)
  have placed : (Dict.ofList entries).get? (org, vlobId) =
      if org = organizationId then vlobs.get? vlobId else none := by
    ext vlob
    rw [Dict.get?_ofList_eq_some_iff functional, member]
    split <;> simp [*]
  rw [is, Dict.get?_insertMany_eq_or, placed]
  split <;> simp

/-- Everything that an accepted finish has checked, and all that it changes. -/
theorem finish_eq_ok_iff {author : DeviceID} {revision : ℕ} :
    backend.finishReencryptionMaintenance organizationId author realmId revision = .ok next ↔
      ∃ realm reencryption vlobs, backend.realms.realms.get? (organizationId, realmId) = some realm ∧
        realm.roles.get? author.userId = some .owner ∧ realm.status.inMaintenance = true ∧
        revision = realm.status.encryptionRevision ∧
        backend.reencryptions.get? (organizationId, realmId) = some reencryption ∧
        reencryption.getReencryptedVlobs = .ok vlobs ∧
        next = { backend.replaceVlobs organizationId realmId vlobs with
          realms := backend.realms.setRealm organizationId realmId
            { realm with status := ⟨none, none, none, revision⟩ } } := by
  simp only [finishReencryptionMaintenance, MemoryRealmComponent.finishReencryptionMaintenance,
    Except.bind_eq_ok_iff, Except.mapError_eq_ok_iff, Except.require_eq_ok_iff, exists_const,
    MemoryRealmComponent.getRealm_eq_ok_iff, Except.pure_eq_ok_iff, Option.elim_eq_ok_iff]
  constructor
  · rintro ⟨_, ⟨realm, isRealm, owner, maintained, rfl, -, rfl⟩, reencryption, is, vlobs, got, rfl⟩
    exact ⟨realm, reencryption, vlobs, isRealm, owner, maintained, rfl, is, got, rfl⟩
  · rintro ⟨realm, reencryption, vlobs, isRealm, owner, maintained, rfl, is, got, rfl⟩
    refine ⟨_, ⟨realm, isRealm, owner, maintained, rfl, ?_, rfl⟩, reencryption, is, vlobs, got, rfl⟩
    rw [is]
    exact Reencryption.isFinished_of_getReencryptedVlobs got

theorem currentReencryption_eq_ok_iff {author : DeviceID} {revision : ℕ} {reencryption : Reencryption β} :
    backend.currentReencryption organizationId author realmId revision = .ok reencryption ↔
      ∃ realm, backend.realms.realms.get? (organizationId, realmId) = some realm ∧
        realm.roles.get? author.userId = some .owner ∧ realm.status.inMaintenance = true ∧
        revision = realm.status.encryptionRevision ∧
        backend.reencryptions.get? (organizationId, realmId) = some reencryption := by
  simp only [currentReencryption, checkRealmInMaintenanceAccess, Except.bind_eq_ok_iff,
    Except.mapError_eq_ok_iff, MemoryVlobComponent.checkRealmAccess_eq_ok_iff, exists_const,
    Option.elim_eq_ok_iff, MemoryVlobComponent.checkMaintenance, Except.require_eq_ok_iff,
    List.mem_cons, reduceCtorEq, Option.some.injEq, List.not_mem_nil, or_false, false_or]
  constructor
  · rintro ⟨⟨realm, isRealm, owner, maintained, same⟩, is⟩
    exact ⟨realm, isRealm, owner, maintained, same, is⟩
  · rintro ⟨realm, isRealm, owner, maintained, same, is⟩
    exact ⟨⟨realm, isRealm, owner, maintained, same⟩, is⟩

end ReencryptionBackend

end Guardata
