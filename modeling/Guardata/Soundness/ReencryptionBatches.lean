import Guardata.Machine.Run
import Guardata.Proofs.Reencryption

/-! # Saving a batch of a re-encryption

A batch is applied item by item, and an unknown version ends it with an exception. What stands in front of that
version has been saved by then, unless it had been saved before. Between what is left and what is done no version is
ever lost, so the counts that are returned are right as long as no batch fails halfway.
-/

namespace Guardata

open Machine

variable {β : Type}

/-- The version that an item of a batch is about. -/
def BatchItem.key (item : BatchItem β) : UUID × ℕ := (item.1, item.2.1)

namespace Reencryption

/-- The versions of the vlobs that are re-encrypted are left or done. -/
def isKnown (reencryption : Reencryption β) (item : BatchItem β) : Bool :=
  reencryption.todo.contains item.key || reencryption.done.contains item.key

/-- Whatever stands in front of the first unknown version has been saved before. -/
def FailsFirst (reencryption : Reencryption β) (batch : List (BatchItem β)) : Prop :=
  (∃ item ∈ batch, reencryption.isKnown item = false) →
    ∀ item ∈ batch.takeWhile reencryption.isKnown, reencryption.done.contains item.key = true

/-- Every version is either left or done, and the total counts them. -/
structure Balanced (reencryption : Reencryption β) : Prop where
  apart : ∀ key, reencryption.todo.contains key = true → reencryption.done.contains key = false
  counted : reencryption.todo.items.length + reencryption.done.items.length = reencryption.total

variable {reencryption next : Reencryption β} {item : BatchItem β} {batch : List (BatchItem β)}

section Item

theorem balanced_new (realmId : UUID) (vlobs : Dict UUID (Vlob β)) : (new realmId vlobs).Balanced where
  apart _ _ := rfl
  counted := rfl

/-- What a round of the loop does to what is done. -/
theorem done_saveItem (saved : reencryption.saveItem item = .ok next) (key : UUID × ℕ) :
    next.done.contains key = true ↔ reencryption.done.contains key = true ∨ key = item.key := by
  obtain ⟨vlobId, number, data⟩ := item
  rcases saveItem_eq_ok_iff.mp saved with ⟨done, rfl⟩ | ⟨-, -, rfl⟩
  · refine ⟨.inl, ?_⟩
    rintro (before | rfl)
    · exact before
    · exact done
  · rw [Dict.contains_insert_iff]
    exact or_comm

theorem total_saveItem (saved : reencryption.saveItem item = .ok next) : next.total = reencryption.total := by
  obtain ⟨vlobId, number, data⟩ := item
  rcases saveItem_eq_ok_iff.mp saved with ⟨-, rfl⟩ | ⟨-, -, rfl⟩ <;> rfl

theorem Balanced.saveItem (balanced : reencryption.Balanced) (saved : reencryption.saveItem item = .ok next) :
    next.Balanced := by
  obtain ⟨vlobId, number, data⟩ := item
  rcases saveItem_eq_ok_iff.mp saved with ⟨-, rfl⟩ | ⟨notDone, left, rfl⟩
  · exact balanced
  · constructor
    · intro key still
      rw [Dict.contains, Dict.get?_erase] at still
      split at still
      · cases still
      · next other =>
        refine Bool.eq_false_iff.mpr fun done => ?_
        rcases Dict.contains_insert_iff.mp done with same | before
        · exact other same
        · exact Bool.eq_false_iff.mp (balanced.apart key still) before
    · have fewer := Dict.length_erase_of_contains left
      have more := Dict.length_insert_of_absent notDone data
      have := balanced.counted
      simp only
      omega

/-- A round makes no version unknown and none known. -/
theorem isKnown_saveItem (saved : reencryption.saveItem item = .ok next) (other : BatchItem β) :
    next.isKnown other = reencryption.isKnown other := by
  obtain ⟨vlobId, number, data⟩ := item
  rcases saveItem_eq_ok_iff.mp saved with ⟨-, rfl⟩ | ⟨-, left, rfl⟩
  · rfl
  · rw [Bool.eq_iff_iff, isKnown, isKnown, Bool.or_eq_true, Bool.or_eq_true, Dict.contains_insert_iff, Dict.contains,
      Dict.get?_erase]
    by_cases same : other.key = (vlobId, number)
    · rw [same]
      exact iff_of_true (.inr (.inl rfl)) (.inl left)
    · rw [if_neg same, or_iff_right (a := other.key = (vlobId, number)) same]
      exact Iff.rfl

theorem exists_saveItem_iff_isKnown :
    (∃ next, reencryption.saveItem item = .ok next) ↔ reencryption.isKnown item = true := by
  rw [exists_saveItem_iff, isKnown, Bool.or_eq_true]
  exact Iff.rfl

end Item

section Batch

theorem saveBatch_cons_ok (saved : reencryption.saveItem item = .ok next) :
    reencryption.saveBatch (item :: batch) = next.saveBatch batch := by
  rw [saveBatch, saved]

theorem saveBatch_cons_error {error : VlobError} (refused : reencryption.saveItem item = .error error) :
    reencryption.saveBatch (item :: batch) = (reencryption, .error error) := by
  rw [saveBatch, refused]

theorem not_isKnown {error : VlobError} (refused : reencryption.saveItem item = .error error) :
    reencryption.isKnown item = false := by
  refine Bool.eq_false_iff.mpr fun known => ?_
  obtain ⟨next, saved⟩ := exists_saveItem_iff_isKnown.mpr known
  exact nomatch refused.symm.trans saved

theorem Balanced.saveBatch (balanced : reencryption.Balanced) (batch : List (BatchItem β)) :
    (reencryption.saveBatch batch).1.Balanced := by
  induction batch generalizing reencryption with
  | nil => exact balanced
  | cons item rest ih =>
    cases saved : reencryption.saveItem item with
    | error error =>
      rw [saveBatch_cons_error saved]
      exact balanced
    | ok next =>
      rw [saveBatch_cons_ok saved]
      exact ih (balanced.saveItem saved)

/-- All versions that are left are done if and only if as many are done as there are. -/
theorem Balanced.isFinished_iff (balanced : reencryption.Balanced) :
    reencryption.done.items.length = reencryption.total ↔ reencryption.isFinished = true := by
  have := balanced.counted
  rw [isFinished, List.isEmpty_iff_length_eq_zero]
  omega

/-- What a batch that is accepted returns, and what is done then. -/
theorem saveBatch_ok {counts : ℕ × ℕ} (accepted : (reencryption.saveBatch batch).2 = .ok counts) :
    counts = (reencryption.total, (reencryption.saveBatch batch).1.done.items.length) ∧
      ∀ key, (reencryption.saveBatch batch).1.done.contains key = true ↔
        reencryption.done.contains key = true ∨ key ∈ batch.map BatchItem.key := by
  induction batch generalizing reencryption with
  | nil =>
    cases accepted
    exact ⟨rfl, fun key => by simp [Reencryption.saveBatch]⟩
  | cons item rest ih =>
    cases saved : reencryption.saveItem item with
    | error error =>
      rw [saveBatch_cons_error saved] at accepted
      cases accepted
    | ok next =>
      rw [saveBatch_cons_ok saved] at accepted ⊢
      obtain ⟨counts, done⟩ := ih accepted
      refine ⟨by rw [counts, total_saveItem saved], fun key => ?_⟩
      rw [done, done_saveItem saved, List.map_cons, List.mem_cons, or_assoc]

theorem total_saveBatch (reencryption : Reencryption β) (batch : List (BatchItem β)) :
    (reencryption.saveBatch batch).1.total = reencryption.total := by
  induction batch generalizing reencryption with
  | nil => rfl
  | cons item rest ih =>
    cases saved : reencryption.saveItem item with
    | error error => rw [saveBatch_cons_error saved]
    | ok next => rw [saveBatch_cons_ok saved, ih, total_saveItem saved]

/-- A batch that is refused leaves what saving its known items leaves. -/
theorem saveBatch_takeWhile (reencryption : Reencryption β) (batch : List (BatchItem β)) :
    (reencryption.saveBatch batch).1 = (reencryption.saveBatch (batch.takeWhile reencryption.isKnown)).1 ∧
      ∃ counts, (reencryption.saveBatch (batch.takeWhile reencryption.isKnown)).2 = .ok counts := by
  induction batch generalizing reencryption with
  | nil => exact ⟨rfl, _, rfl⟩
  | cons item rest ih =>
    cases saved : reencryption.saveItem item with
    | error error =>
      rw [List.takeWhile_cons_of_neg (by simp [not_isKnown saved]), saveBatch_cons_error saved]
      exact ⟨rfl, _, rfl⟩
    | ok next =>
      have same : reencryption.isKnown = next.isKnown := funext fun other => (isKnown_saveItem saved other).symm
      rw [List.takeWhile_cons_of_pos (exists_saveItem_iff_isKnown.mp ⟨next, saved⟩), saveBatch_cons_ok saved,
        saveBatch_cons_ok saved, same]
      exact ih next

/-- A batch is refused if and only if a version of it is unknown. -/
theorem saveBatch_refused_iff : (∃ error, (reencryption.saveBatch batch).2 = .error error) ↔
    ∃ item ∈ batch, reencryption.isKnown item = false := by
  induction batch generalizing reencryption with
  | nil => simp [Reencryption.saveBatch]
  | cons item rest ih =>
    cases saved : reencryption.saveItem item with
    | error error =>
      rw [saveBatch_cons_error saved]
      exact iff_of_true ⟨error, rfl⟩ ⟨item, List.mem_cons_self .., not_isKnown saved⟩
    | ok next =>
      rw [saveBatch_cons_ok saved]
      have known := exists_saveItem_iff_isKnown.mp ⟨next, saved⟩
      simp only [ih, List.mem_cons, exists_eq_or_imp, known, Bool.true_eq_false, false_or, isKnown_saveItem saved]

theorem saveBatch_of_done (done : ∀ item ∈ batch, reencryption.done.contains item.key = true) :
    (reencryption.saveBatch batch).1 = reencryption := by
  induction batch with
  | nil => rfl
  | cons item rest ih =>
    rw [List.forall_mem_cons] at done
    have saved : reencryption.saveItem item = .ok reencryption := saveItem_eq_ok_iff.mpr (.inl ⟨done.1, rfl⟩)
    rw [saveBatch_cons_ok saved]
    exact ih done.2

/-- A batch that is refused changes nothing if and only if it fails before anything is saved. -/
theorem saveBatch_unchanged_iff {error : VlobError} (refused : (reencryption.saveBatch batch).2 = .error error) :
    (reencryption.saveBatch batch).1 = reencryption ↔ reencryption.FailsFirst batch := by
  obtain ⟨front, counts, accepted⟩ := saveBatch_takeWhile reencryption batch
  have unknown := saveBatch_refused_iff.mp ⟨error, refused⟩
  rw [front, FailsFirst, imp_iff_right unknown]
  refine ⟨fun same item member => ?_, saveBatch_of_done⟩
  have done := (saveBatch_ok accepted).2 item.key
  rw [same] at done
  exact done.mpr (.inr (List.mem_map_of_mem member))

end Batch

/-- A re-encryption whose batches are recorded: the versions of the batches that were accepted. -/
structure Recorded (β : Type) where
  reencryption : Reencryption β
  accepted : Finset (UUID × ℕ) := ∅

namespace Recorded

/-- One call of `save_batch`. -/
def step? (recorded : Recorded β) (batch : List (BatchItem β)) : Option (Recorded β) :=
  let (saved, reply) := recorded.reencryption.saveBatch batch
  some ⟨saved, match reply with
    | .ok _ => recorded.accepted ∪ (batch.map BatchItem.key).toFinset
    | .error _ => recorded.accepted⟩

/-- What atomicity promises about the next call. -/
structure Atomic (recorded : Recorded β) (batch : List (BatchItem β)) : Prop where
  unchanged : ∀ error, (recorded.reencryption.saveBatch batch).2 = .error error →
    (recorded.reencryption.saveBatch batch).1 = recorded.reencryption
  counts : ∀ total done, (recorded.reencryption.saveBatch batch).2 = .ok (total, done) →
    done = (recorded.accepted ∪ (batch.map BatchItem.key).toFinset).card ∧
      (done = total ↔ (recorded.reencryption.saveBatch batch).1.isFinished = true)

/-- What is done are the versions of the batches that were accepted. -/
structure Faithful (recorded : Recorded β) : Prop where
  balanced : recorded.reencryption.Balanced
  done : ∀ key, recorded.reencryption.done.contains key = true ↔ key ∈ recorded.accepted

variable {recorded after : Recorded β}

theorem faithful_new (realmId : UUID) (vlobs : Dict UUID (Vlob β)) :
    Faithful ⟨Reencryption.new realmId vlobs, ∅⟩ :=
  ⟨balanced_new realmId vlobs, fun _ => iff_of_false nofun (Finset.notMem_empty _)⟩

/-- The next call, as long as it does not fail halfway. -/
theorem Faithful.step (faithful : recorded.Faithful) (stepped : recorded.step? batch = some after)
    (whole : recorded.reencryption.FailsFirst batch) : after.Faithful := by
  obtain rfl := Option.some.inj stepped
  refine ⟨faithful.balanced.saveBatch batch, fun key => ?_⟩
  cases reply : (recorded.reencryption.saveBatch batch).2 with
  | ok counts =>
    simp only [(saveBatch_ok reply).2, faithful.done, Finset.mem_union, List.mem_toFinset]
  | error error =>
    simp only [(saveBatch_unchanged_iff reply).mpr whole, faithful.done]

theorem Faithful.atomic (faithful : recorded.Faithful) (whole : recorded.reencryption.FailsFirst batch) :
    recorded.Atomic batch := by
  refine ⟨fun error refused => (saveBatch_unchanged_iff refused).mpr whole, fun total done accepted => ?_⟩
  obtain ⟨counts, saved⟩ := saveBatch_ok accepted
  obtain ⟨rfl, rfl⟩ := Prod.mk.inj counts
  constructor
  · refine Dict.length_items_eq_card fun key => ?_
    rw [saved, faithful.done, Finset.mem_union, List.mem_toFinset]
  · have same := total_saveBatch recorded.reencryption batch
    rw [← same]
    exact (faithful.balanced.saveBatch batch).isFinished_iff

end Recorded

/-- In every reachable state a batch that is refused leaves everything as it was if and only if all that stands in
front of its first unknown version has been saved before. As long as all batches are like that, every call is atomic
and counts the versions that were saved. -/
theorem save_batch_atomic_iff {β : Type} (realmId : UUID) (vlobs : Dict UUID (Vlob β))
    (batches : List (List (BatchItem β))) (state : Recorded β)
    (reached : run? Recorded.step? ⟨new realmId vlobs, ∅⟩ batches = some state) (batch : List (BatchItem β)) :
    (((∀ error, (state.reencryption.saveBatch batch).2 = .error error →
        (state.reencryption.saveBatch batch).1 = state.reencryption)) ↔ state.reencryption.FailsFirst batch) ∧
    (Along Recorded.step? (fun before batch _ => before.reencryption.FailsFirst batch) ⟨new realmId vlobs, ∅⟩ batches →
      state.reencryption.FailsFirst batch → state.Atomic batch) := by
  constructor
  · constructor
    · intro unchanged unknown
      obtain ⟨error, refused⟩ := saveBatch_refused_iff.mpr unknown
      exact (saveBatch_unchanged_iff refused).mp (unchanged error refused) unknown
    · exact fun whole error refused => (saveBatch_unchanged_iff refused).mpr whole
  · intro meets whole
    refine Recorded.Faithful.atomic ?_ whole
    exact run?_invariant (fun _ _ _ stepped whole faithful => faithful.step stepped whole) meets reached
      (Recorded.faithful_new realmId vlobs)

end Reencryption

section Example

open Reencryption

/-- A vlob of two versions. -/
private def twoVersions : Dict UUID (Vlob ℕ) :=
  .ofList [(7, ⟨1, [⟨10, ⟨"alice", "pc"⟩, 0⟩, ⟨20, ⟨"alice", "pc"⟩, 0⟩]⟩)]

/-- The first version has been saved when the second item turns out to be unknown. -/
theorem refused_batch_saves_front :
    ((Reencryption.new 1 twoVersions).saveBatch [(7, 1, 11), (8, 1, 0)]).2 = .error (.notFound "") ∧
      (Reencryption.new 1 twoVersions).done.items = [] ∧
      ((Reencryption.new 1 twoVersions).saveBatch [(7, 1, 11), (8, 1, 0)]).1.done.items = [((7, 1), 11)] ∧
      ((Reencryption.new 1 twoVersions).saveBatch [(7, 1, 11), (8, 1, 0)]).1.getBatch 5 = [(7, 2, 20)] := by
  decide

/-- A version that is saved twice, and an unknown one behind it. -/
theorem save_batch_atomic_iff_saved : ∃ state,
    run? Recorded.step? ⟨Reencryption.new 1 twoVersions, ∅⟩ [[(7, 1, 11)]] = some state ∧
      (state.reencryption.saveBatch [(7, 1, 12), (8, 1, 0)]).1 = state.reencryption ∧
      state.Atomic [(7, 1, 12), (7, 2, 22)] := by
  refine ⟨_, rfl, ?_, ?_⟩
  · exact (save_batch_atomic_iff 1 twoVersions [[(7, 1, 11)]] _ rfl [(7, 1, 12), (8, 1, 0)]).1.mpr
      (fun _ => by decide) _ rfl
  · refine (save_batch_atomic_iff 1 twoVersions [[(7, 1, 11)]] _ rfl [(7, 1, 12), (7, 2, 22)]).2 ?_ ?_
    · rintro next ⟨⟩
      exact ⟨fun ⟨item, member, unknown⟩ => absurd unknown (by revert item; decide), trivial⟩
    · exact fun ⟨item, member, unknown⟩ => absurd unknown (by revert item; decide)

end Example

end Guardata
