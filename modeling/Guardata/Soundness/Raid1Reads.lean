import Guardata.Model.Raid1

/-! # Reads from the RAID1 blockstore

A node never changes what it holds, and it takes a block only where it holds none. So what a read returns is what
the nodes held before, where they held something. A block without bytes counts as none at all.
-/

namespace Guardata

namespace RAID1BlockStore

variable {raid : RAID1BlockStore} {key : BlockKey} {block : Bytes} {index : ℕ} {call : CreateCall}

/-- What a node holds under a key. -/
def held (raid : RAID1BlockStore) (key : BlockKey) (index : ℕ) : Option Bytes :=
  raid.blockstores[index]?.bind (·.blocks.get? key)

section Create

theorem get?_singleBlockstoreCreate (other key : BlockKey) (block : Bytes) (store : MemoryBlockStore) :
    (singleBlockstoreCreate other block store).blocks.get? key =
      (store.blocks.get? key).or (if key = other then some block else none) := by
  unfold singleBlockstoreCreate
  split
  · next created =>
    simp only [MemoryBlockStore.create, Except.bind_eq_ok_iff, Except.require_eq_ok_iff, exists_const,
      Except.pure_eq_ok_iff] at created
    obtain ⟨absent, rfl⟩ := created
    rw [Dict.get?_insert]
    split
    · next same =>
      rw [same, show store.blocks.get? other = none by simpa [Dict.contains] using absent, Option.none_or]
    · rw [Option.or_none]
  · next refused =>
    by_cases same : key = other
    · have present : store.blocks.contains other = true := by
        by_contra missing
        have absent : store.blocks.contains other = false := by simpa using missing
        simp [MemoryBlockStore.create, Except.require, absent, bind, Except.bind, pure, Except.pure] at refused
      obtain ⟨held, found⟩ := Dict.contains_eq_true_iff.mp present
      rw [same, found, Option.some_or]
    · rw [if_neg same, Option.or_none]

theorem length_createWith : (raid.createWith call).1.blockstores.length = raid.blockstores.length :=
  List.length_mapIdx

/-- What a node held it still holds. -/
theorem held_createWith : (raid.createWith call).1.held key index = (raid.held key index).or
    (if key = call.key ∧ (call.fates index).isDone ∧ index < raid.blockstores.length then some call.block
      else none) := by
  simp only [held, createWith, List.getElem?_mapIdx]
  cases found : raid.blockstores[index]? with
  | none =>
    have outside : ¬ index < raid.blockstores.length := fun inside => by
      simp [List.getElem?_eq_getElem inside] at found
    simp [outside]
  | some store =>
    have inside : index < raid.blockstores.length := (List.getElem?_eq_some_iff.mp found).1
    simp only [Option.map_some, Option.bind_some, inside, and_true]
    split
    · next done => simp only [get?_singleBlockstoreCreate, done, and_true]
    · next lost => simp only [lost, Bool.false_eq_true, and_false, if_false, Option.or_none]

/-- Once all nodes were served, they hold the block, or what they held before. -/
theorem held_of_returned (returned : (raid.createWith call).2 = .ok ()) (inside : index < raid.blockstores.length) :
    (raid.createWith call).1.held call.key index = (raid.held call.key index).or (some call.block) := by
  have served : ∀ index < raid.blockstores.length, call.fates index = .served := Except.require_eq_ok_iff.mp returned
  rw [held_createWith, served index inside]
  simp [CallFate.isDone, inside]

/-- The nodes after some calls of `create`, successful or not. -/
def afterCalls (raid : RAID1BlockStore) (calls : List CreateCall) : RAID1BlockStore :=
  calls.foldl (fun raid call => (raid.createWith call).1) raid

theorem length_afterCalls {calls : List CreateCall} :
    (raid.afterCalls calls).blockstores.length = raid.blockstores.length := by
  induction calls generalizing raid with
  | nil => rfl
  | cons call rest ih => exact ih.trans length_createWith

theorem held_afterCalls {calls : List CreateCall} (holds : raid.held key index = some block) :
    (raid.afterCalls calls).held key index = some block := by
  induction calls generalizing raid with
  | nil => exact holds
  | cons call rest ih =>
    refine ih ?_
    rw [held_createWith, holds, Option.some_or]

end Create

section Read

/-- What the task of a node that is served does to what the tasks share. -/
theorem singleBlockstoreRead_served {race next : ReadRace}
    (ends : raid.singleBlockstoreRead key race (index, .served) = some next) :
    index < raid.blockstores.length ∧ match raid.held key index with
      | some value => next = { value := some value, cancelled := true }
      | none => next = race := by
  obtain ⟨store, found, rfl⟩ := Option.map_eq_some_iff.mp ends
  refine ⟨(List.getElem?_eq_some_iff.mp found).1, ?_⟩
  rw [held, found, Option.bind_some, MemoryBlockStore.read]
  cases store.blocks.get? key <;> rfl

/-- A task that is not served leaves everything as it is. -/
theorem singleBlockstoreRead_other {race next : ReadRace} {fate : ReadFate} (other : fate ≠ .served)
    (ends : raid.singleBlockstoreRead key race (index, fate) = some next) : next = race := by
  cases fate with
  | served => exact absurd rfl other
  | timedOut => exact (Option.some.inj ends).symm
  | cancelled =>
    simp only [singleBlockstoreRead] at ends
    split at ends
    · exact (Option.some.inj ends).symm
    · exact nomatch ends

/-- Where all nodes hold a block, one answer is enough, whoever writes over it. -/
theorem value_of_served (all : ∀ index < raid.blockstores.length, raid.held key index = some block)
    {calls : List (ℕ × ReadFate)} {race last : ReadRace}
    (ends : calls.foldlM (raid.singleBlockstoreRead key) race = some last)
    (answered : race.value = some block ∨ ∃ index, (index, ReadFate.served) ∈ calls) : last.value = some block := by
  induction calls generalizing race with
  | nil =>
    cases ends
    exact answered.resolve_right fun ⟨_, member⟩ => nomatch member
  | cons call rest ih =>
    obtain ⟨next, here, later⟩ := Option.bind_eq_some_iff.mp ends
    obtain ⟨index, fate⟩ := call
    by_cases served : fate = .served
    · subst served
      obtain ⟨inside, wrote⟩ := singleBlockstoreRead_served here
      rw [all index inside] at wrote
      exact ih later (.inl (by rw [wrote]))
    · have kept := singleBlockstoreRead_other served here
      subst kept
      refine ih later (answered.imp_right ?_)
      rintro ⟨other, member⟩
      refine ⟨other, (List.mem_cons.mp member).resolve_left fun same => served ?_⟩
      exact (Prod.mk.inj same).2.symm

/-- Where no node holds anything, nothing is ever written. -/
theorem value_of_none (none : ∀ index, raid.held key index = none) {calls : List (ℕ × ReadFate)} {race last : ReadRace}
    (ends : calls.foldlM (raid.singleBlockstoreRead key) race = some last) : last.value = race.value := by
  induction calls generalizing race with
  | nil =>
    cases ends
    rfl
  | cons call rest ih =>
    obtain ⟨next, here, later⟩ := Option.bind_eq_some_iff.mp ends
    obtain ⟨index, fate⟩ := call
    refine (ih later).trans ?_
    by_cases served : fate = .served
    · subst served
      have wrote := (singleBlockstoreRead_served here).2
      rw [none index] at wrote
      rw [wrote]
    · rw [singleBlockstoreRead_other served here]

theorem readWith_eq_some_iff {calls : List (ℕ × ReadFate)} {result : Except BlockError Bytes} :
    raid.readWith key calls = some result ↔ (calls.map Prod.fst).Perm (List.range raid.blockstores.length) ∧
      ∃ race, calls.foldlM (raid.singleBlockstoreRead key) {} = some race ∧ race.result = result := by
  simp [readWith, Option.bind_eq_some_iff, guard]

/-- A read to which only one node answers. -/
def onlyServed (raid : RAID1BlockStore) (index : ℕ) : List (ℕ × ReadFate) :=
  (index, .served) :: ((List.range raid.blockstores.length).erase index).map (·, .timedOut)

theorem readWith_onlyServed (inside : index < raid.blockstores.length) (holds : raid.held key index = some block) :
    raid.readWith key (raid.onlyServed index) = some (if block = [] then .error .notFound else .ok block) := by
  have timeouts (others : List ℕ) (race : ReadRace) :
      (others.map fun other => (other, ReadFate.timedOut)).foldlM (raid.singleBlockstoreRead key) race = some race := by
    induction others with
    | nil => rfl
    | cons other rest ih => exact ih
  obtain ⟨store, found, value⟩ := Option.bind_eq_some_iff.mp holds
  have first : raid.singleBlockstoreRead key {} (index, .served) = some { value := some block, cancelled := true } := by
    simp [singleBlockstoreRead, found, MemoryBlockStore.read, value]
  refine readWith_eq_some_iff.mpr ⟨?_, { value := some block, cancelled := true }, ?_, ?_⟩
  rotate_left
  · rw [onlyServed, List.foldlM_cons, first]
    exact timeouts _ _
  · cases block <;> rfl
  · rw [onlyServed, List.map_cons, List.map_map]
    have same : ((List.range raid.blockstores.length).erase index).map (Prod.fst ∘ (·, ReadFate.timedOut)) =
        (List.range raid.blockstores.length).erase index := List.map_id _
    rw [same]
    exact (List.perm_cons_erase (List.mem_range.mpr inside)).symm

end Read

end RAID1BlockStore

open RAID1BlockStore

/-- After a create that returned, whatever is created later, every read to which a node answers gives the block if
and only if the block is not empty and no node held something else for it before. Where no node holds anything,
nothing is found. -/
theorem raid1_reads_back_iff (raid : RAID1BlockStore) :
    (∀ (call : CreateCall) (later : List CreateCall), raid.blockstores ≠ [] → (raid.createWith call).2 = .ok () →
      ((∀ calls result, ((raid.createWith call).1.afterCalls later).readWith call.key calls = some result →
          (∃ index, (index, ReadFate.served) ∈ calls) → result = .ok call.block) ↔
        call.block ≠ [] ∧ ∀ index block, raid.held call.key index = some block → block = call.block)) ∧
    ∀ key : BlockKey, (∀ index, raid.held key index = none) →
      ∀ calls result, raid.readWith key calls = some result → result = .error .notFound := by
  constructor
  · intro call later nonempty returned
    have size : ((raid.createWith call).1.afterCalls later).blockstores.length = raid.blockstores.length :=
      length_afterCalls.trans length_createWith
    have now {index : ℕ} (inside : index < raid.blockstores.length) :
        ((raid.createWith call).1.afterCalls later).held call.key index =
          some ((raid.held call.key index).getD call.block) := by
      refine held_afterCalls ?_
      rw [held_of_returned returned inside]
      cases raid.held call.key index <;> rfl
    constructor
    · intro reads
      -- Every node may be the only one that answers.
      have each {index : ℕ} (inside : index < raid.blockstores.length) :
          (raid.held call.key index).getD call.block = call.block ∧ call.block ≠ [] := by
        have given := reads _ _ (readWith_onlyServed (size ▸ inside) (now inside)) ⟨index, List.mem_cons_self ..⟩
        split at given
        · exact nomatch given
        · next some =>
          have same := Except.ok.inj given
          exact ⟨same, same ▸ some⟩
      refine ⟨(each (List.length_pos_of_ne_nil nonempty)).2, fun index block holds => ?_⟩
      obtain ⟨store, found, -⟩ := Option.bind_eq_some_iff.mp holds
      have := (each (List.getElem?_eq_some_iff.mp found).1).1
      rwa [holds] at this
    · rintro ⟨some, same⟩ calls result read answered
      obtain ⟨-, race, ends, rfl⟩ := readWith_eq_some_iff.mp read
      have all : ∀ index < ((raid.createWith call).1.afterCalls later).blockstores.length,
          ((raid.createWith call).1.afterCalls later).held call.key index = .some call.block := by
        intro index inside
        rw [now (size ▸ inside)]
        cases holds : raid.held call.key index with
        | none => rfl
        | some block => rw [same index block holds]; rfl
      rw [ReadRace.result, value_of_served all ends (.inr answered)]
      cases whole : call.block with
      | nil => exact absurd whole some
      | cons first rest => rfl
  · intro key none calls result read
    obtain ⟨-, race, ends, rfl⟩ := readWith_eq_some_iff.mp read
    rw [ReadRace.result, value_of_none none ends]

section Example

private def empty : RAID1BlockStore := ⟨[{}, {}]⟩

private def mirroredKey : BlockKey := ("org", 7)

/-- A call of `create` in which every node is served. -/
private def wholeCall (block : Bytes) : CreateCall := ⟨mirroredKey, block, fun _ => .served⟩

/-- The empty block is taken by both nodes and found at none. -/
theorem empty_block_not_found : (empty.createWith (wholeCall [])).2 = .ok () ∧
    (empty.createWith (wholeCall [])).1.held mirroredKey 0 = some [] ∧
    (empty.createWith (wholeCall [])).1.readWith mirroredKey [(0, .served), (1, .cancelled)] =
      some (.error .notFound) := by
  decide

/-- A node that answers after the first one, and a node that does not answer at all. -/
theorem raid1_reads_back_iff_late :
    ((empty.createWith (wholeCall [5])).1.afterCalls [wholeCall [6]]).readWith mirroredKey
        [(1, .served), (0, .served)] = some (.ok [5]) ∧
      ((empty.createWith (wholeCall [5])).1.afterCalls [wholeCall [6]]).readWith mirroredKey
        [(0, .timedOut), (1, .served)] = some (.ok [5]) ∧
      empty.readWith mirroredKey [(1, .served), (0, .timedOut)] = some (.error .notFound) := by
  have back := ((raid1_reads_back_iff empty).1 (wholeCall [5]) [wholeCall [6]] (by decide) (by decide)).mpr
    ⟨by decide, fun index block holds => by
      match index with
      | 0 => exact nomatch holds
      | 1 => exact nomatch holds
      | _ + 2 => exact nomatch holds⟩
  have reads {calls : List (ℕ × ReadFate)} (ends : (((empty.createWith (wholeCall [5])).1.afterCalls
      [wholeCall [6]]).readWith mirroredKey calls).isSome) (answered : ∃ index, (index, ReadFate.served) ∈ calls) :
      ((empty.createWith (wholeCall [5])).1.afterCalls [wholeCall [6]]).readWith mirroredKey calls =
        some (.ok [5]) := by
    obtain ⟨result, read⟩ := Option.isSome_iff_exists.mp ends
    exact read.trans (congrArg some (back calls result read answered))
  refine ⟨reads (by decide) ⟨1, by decide⟩, reads (by decide) ⟨1, by decide⟩, ?_⟩
  have missing : (empty.readWith mirroredKey [(1, .served), (0, .timedOut)]).isSome := by decide
  obtain ⟨result, read⟩ := Option.isSome_iff_exists.mp missing
  refine read.trans (congrArg some ((raid1_reads_back_iff empty).2 mirroredKey (fun index => ?_) _ result read))
  match index with
  | 0 => rfl
  | 1 => rfl
  | _ + 2 => rfl

end Example

end Guardata
