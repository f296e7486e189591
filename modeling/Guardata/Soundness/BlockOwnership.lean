import Guardata.Model.Block
import Guardata.Proofs.RealmRoles
import Guardata.Soundness.RaidReads

/-! # Who can read a block

A plain blockstore takes a block once. A cluster takes it again and again, so that an upload can be tried
again, and keeps the bytes it had; but the block component then writes down the realm of the last attempt.
-/

namespace Guardata

open Machine

variable {key : BlockKey} {block : Bytes}

section Blockstore

/-- What a blockstore has under each key. -/
def BlockStore.Holds (contents : BlockKey → Option Bytes) : BlockStore → Prop
  | memory store => ∀ key, store.blocks.get? key = contents key
  | raid1 raid => ∀ store ∈ raid.blockstores, ∀ key, store.blocks.get? key = contents key
  | raid5 raid => 3 ≤ raid.blockstores.length ∧
      (∀ key block, contents key = some block →
        ∃ parts, RAID5BlockStore.chunksAndChecksum block (raid.blockstores.length - 1) = .ok parts) ∧
      ∀ (index : ℕ) (store : MemoryBlockStore), raid.blockstores[index]? = some store →
        ∀ key, store.blocks.get? key = (contents key).bind fun block =>
          (RAID5BlockStore.chunksAndChecksum block (raid.blockstores.length - 1)).toOption.bind (·[index]?)

/-- A block that can be got back. -/
def BlockStore.GivesBack (block : Bytes) : BlockStore → Prop
  | raid1 raid => raid.blockstores ≠ [] ∧ block ≠ []
  | _ => True

/-- An order of the tasks of a read. -/
def BlockStore.Schedules (tasks : List ℕ) : BlockStore → Prop
  | raid1 raid => tasks.Perm (List.range raid.blockstores.length)
  | _ => True

theorem BlockStore.exists_schedules (store : BlockStore) : ∃ tasks, store.Schedules tasks := by
  cases store with
  | memory store => exact ⟨[], trivial⟩
  | raid1 raid => exact ⟨_, List.Perm.refl _⟩
  | raid5 raid => exact ⟨[], trivial⟩

variable {contents : BlockKey → Option Bytes} {store next : BlockStore}

theorem holds_blockstoreFactory {config : BlockStoreConfig} (made : blockstoreFactory config = some store) :
    store.Holds fun _ => none := by
  cases config with
  | mocked =>
    cases made
    exact fun _ => rfl
  | raid1 count =>
    cases made
    intro store member
    obtain ⟨-, rfl⟩ := List.mem_replicate.mp member
    exact fun _ => rfl
  | raid5 count =>
    simp only [blockstoreFactory, Option.bind_eq_bind, Option.bind_eq_some_iff, Option.guard_eq_some',
      exists_const, Option.pure_def, Option.some.injEq] at made
    obtain ⟨large, rfl⟩ := made
    refine ⟨by simpa using large, nofun, fun index store there => ?_⟩
    obtain ⟨-, rfl⟩ := List.mem_replicate.mp (List.mem_of_getElem? there)
    exact fun _ => rfl

theorem MemoryBlockStore.create_eq_ok_iff {store next : MemoryBlockStore} :
    store.create key block = .ok next ↔
      store.blocks.get? key = none ∧ next = ⟨store.blocks.insert key block⟩ := by
  simp only [MemoryBlockStore.create, Except.bind_eq_ok_iff, Except.require_eq_ok_iff, exists_const,
    Except.pure_eq_ok_iff, Dict.contains, Option.isSome_eq_false_iff, Option.isNone_iff_eq_none]
  exact and_congr_right fun _ => eq_comm

/-- What a sub-blockstore has stays. -/
theorem get?_singleBlockstoreCreate (store : MemoryBlockStore) (other : BlockKey) :
    (RAID1BlockStore.singleBlockstoreCreate key block store).blocks.get? other =
      if other = key then (store.blocks.get? key).or (some block) else store.blocks.get? other := by
  unfold RAID1BlockStore.singleBlockstoreCreate
  split
  · next created =>
    obtain ⟨absent, rfl⟩ := MemoryBlockStore.create_eq_ok_iff.mp created
    rw [Dict.get?_insert, absent, Option.none_or]
  · next error refused =>
    cases there : store.blocks.get? key with
    | none =>
      rw [MemoryBlockStore.create_eq_ok_iff.mpr ⟨there, rfl⟩] at refused
      cases refused
    | some old =>
      split
      · next same => rw [same, there, Option.some_or]
      · rfl

/-- What becomes of the contents when a block is created. -/
def added (contents : BlockKey → Option Bytes) (key : BlockKey) (block : Bytes) : BlockKey → Option Bytes :=
  fun other => if other = key then (contents key).or (some block) else contents other

theorem RAID5BlockStore.holds_create {raid : RAID5BlockStore} (holds : (BlockStore.raid5 raid).Holds contents)
    {parts : List Bytes} (computed : chunksAndChecksum block (raid.blockstores.length - 1) = .ok parts) :
    (BlockStore.raid5 (raid.create key block fun _ => .served).1).Holds (added contents key block) := by
  obtain ⟨large, computable, stored⟩ := holds
  have sized : parts.length = raid.blockstores.length := by
    obtain ⟨chunks, checksum, -, sized, -, rfl⟩ := length_of_chunksAndChecksum computed
    simp only [List.length_append, List.length_singleton, sized]
    omega
  have created : (raid.create key block fun _ => .served).1 =
      ⟨(raid.blockstores.zip parts).mapIdx fun _ both =>
        RAID1BlockStore.singleBlockstoreCreate key both.2 both.1⟩ := by
    rw [create, computed]
    rfl
  have same : ((raid.blockstores.zip parts).mapIdx fun _ both =>
      RAID1BlockStore.singleBlockstoreCreate key both.2 both.1).length = raid.blockstores.length := by
    simp [sized]
  rw [created]
  refine ⟨same.symm ▸ large, ?_, ?_⟩
  · intro other found there
    rw [same]
    rw [added] at there
    split at there
    · cases old : contents key with
      | some before =>
        rw [old, Option.some_or] at there
        exact computable key found (old.trans there)
      | none =>
        rw [old, Option.none_or] at there
        cases there
        exact ⟨parts, computed⟩
    · exact computable other found there
  · intro index store there other
    rw [same]
    rw [List.getElem?_mapIdx, Option.map_eq_some_iff] at there
    obtain ⟨⟨before, chunk⟩, both, rfl⟩ := there
    obtain ⟨was, given⟩ := List.getElem?_zip_eq_some.mp both
    rw [get?_singleBlockstoreCreate, added, stored index before was, stored index before was]
    split
    · next here =>
      subst here
      cases old : contents other with
      | none => simp [computed, Except.toOption, given]
      | some found =>
        obtain ⟨others, computed'⟩ := computable other found old
        have inside : index < others.length := by
          obtain ⟨chunks, checksum, -, sized', -, rfl⟩ := length_of_chunksAndChecksum computed'
          have := (List.getElem?_eq_some_iff.mp was).1
          simp only [List.length_append, List.length_singleton, sized']
          omega
        simp [computed', Except.toOption, inside]
    · rfl

/-- A block is there after its creation, with the bytes that it had before if it had any; a plain
blockstore takes none that it has. -/
theorem BlockStore.Holds.create (holds : store.Holds contents) (created : store.create key block = .ok next) :
    next.Holds (added contents key block) ∧ (∀ other, next.GivesBack other ↔ store.GivesBack other) ∧
      ∀ plain, store = memory plain → contents key = none := by
  cases store with
  | memory plain =>
    obtain ⟨after, accepted, rfl⟩ := Except.map_eq_ok_iff.mp created
    obtain ⟨absent, rfl⟩ := MemoryBlockStore.create_eq_ok_iff.mp accepted
    rw [holds key] at absent
    refine ⟨fun other => ?_, fun _ => Iff.rfl, fun _ _ => absent⟩
    rw [Dict.get?_insert, added, absent, Option.none_or, holds other]
  | raid1 raid =>
    cases created
    refine ⟨?_, fun other => ?_, nofun⟩
    · intro after member other
      obtain ⟨before, isBefore, rfl⟩ := List.mem_map.mp member
      rw [get?_singleBlockstoreCreate, added, holds before isBefore, holds before isBefore]
    · simp [GivesBack, RAID1BlockStore.create]
  | raid5 raid =>
    obtain ⟨_, accepted, rfl⟩ := Except.map_eq_ok_iff.mp created
    refine ⟨?_, fun _ => Iff.rfl, nofun⟩
    cases computed : RAID5BlockStore.chunksAndChecksum block (raid.blockstores.length - 1) with
    | error error =>
      rw [RAID5BlockStore.create, computed] at accepted
      cases accepted
    | ok parts => exact RAID5BlockStore.holds_create holds computed

/-- What is there is given back, whatever the order of the tasks, if it can be. -/
theorem BlockStore.Holds.read (holds : store.Holds contents) (there : contents key = some block)
    {tasks : List ℕ} (scheduled : store.Schedules tasks) :
    store.read tasks key = .ok block ↔ store.GivesBack block := by
  cases store with
  | memory plain =>
    refine iff_of_true ?_ trivial
    rw [BlockStore.read, MemoryBlockStore.read, holds key, there]
  | raid1 raid =>
    have answered (index : ℕ) (member : index ∈ tasks) :
        raid.blockstores[index]?.bind (·.blocks.get? key) = some block := by
      have inside := List.mem_range.mp (scheduled.mem_iff.mp member)
      rw [List.getElem?_eq_getElem inside, Option.bind_some, holds _ (List.getElem_mem inside), there]
    have values : (tasks.filterMap fun index => raid.blockstores[index]?.bind (·.blocks.get? key)) =
        List.replicate raid.blockstores.length block := by
      have sized : tasks.length = raid.blockstores.length := by
        rw [scheduled.length_eq, List.length_range]
      rw [List.filterMap_congr answered, ← sized, ← List.map_const']
      exact congrFun (List.filterMap_eq_map (f := fun _ => block)) tasks
    simp only [BlockStore.read, RAID1BlockStore.read, values, GivesBack]
    cases raid.blockstores with
    | nil => simp
    | cons store rest =>
      rw [List.length_cons, List.getLast?_replicate, if_neg (Nat.succ_ne_zero _)]
      cases block <;> simp
  | raid5 raid =>
    refine iff_of_true ?_ trivial
    obtain ⟨large, computable, stored⟩ := holds
    obtain ⟨parts, computed⟩ := computable key block there
    obtain ⟨chunks, checksum, split, sized, -, rfl⟩ := RAID5BlockStore.length_of_chunksAndChecksum computed
    have lookup (index : ℕ) (store : MemoryBlockStore) (is : raid.blockstores[index]? = some store) :
        store.blocks.get? key = (chunks ++ [checksum])[index]? := by
      rw [stored index store is key, there, Option.bind_some, computed]
      rfl
    have consistent : raid.Consistent raid.blockstores.length key block := by
      refine ⟨rfl, fun index store part is found => ⟨_, computed, ?_⟩⟩
      rw [← lookup index store is, found]
    refine consistent.read_complete split sized computed fun index inside => ⟨rfl, ?_⟩
    have bound : index < raid.blockstores.length := by omega
    have given : index < (chunks ++ [checksum]).length := by
      simp only [List.length_append, List.length_singleton, sized]
      omega
    exact ⟨_, _, List.getElem?_eq_getElem bound, by
      rw [lookup index _ (List.getElem?_eq_getElem bound), List.getElem?_eq_getElem given]⟩

end Blockstore

section History

variable {history next : BlockHistory} {request : BlockCreateRequest}

namespace BlockHistory

/-- Whoever may read in the realm that a block was created in first gets its first bytes, and nobody
else gets any. -/
def KeepsBlocks (history : BlockHistory) : Prop :=
  ∀ key realmId block, history.created.get? key = some (realmId, block) → ∀ realms author tasks,
    history.component.blockstore.Schedules tasks →
      history.component.read realms key.1 author key.2 tasks =
        (MemoryBlockComponent.checkRealmReadAccess realms key.1 realmId author.userId).map fun _ => block

/-- A creation is for a block that can be got back, or for one of the same realm. -/
def Respects (history : BlockHistory) (request : BlockCreateRequest) : Prop :=
  match history.created.get? (request.organizationId, request.blockId) with
  | none => history.component.blockstore.GivesBack request.block
  | some (realmId, _) => request.realmId = realmId

/-- The bytes of the blockstore are the first ones of each block. -/
def HoldsFirst (history : BlockHistory) : Prop :=
  history.component.blockstore.Holds fun key => (history.created.get? key).map Prod.snd

/-- What is written down about each block is what it was created with. -/
def Records (history : BlockHistory) : Prop :=
  ∀ key realmId block, history.created.get? key = some (realmId, block) →
    (history.component.blockmetas.get? key).map (·.realmId) = some realmId ∧
      history.component.blockstore.GivesBack block

private def ownedRealm (realmId : UUID) : Realm :=
  { grantedRoles := [⟨⟨⟨0⟩, none⟩, realmId, "", some .owner, ⟨"", ""⟩, 0⟩] }

/-- A realm in which somebody may read, and no other realm. -/
private def onlyRealm (organizationId : OrganizationID) (realmId : UUID) : MemoryRealmComponent :=
  ({} : MemoryRealmComponent).setRealm organizationId realmId (ownedRealm realmId)

private theorem checkRealmReadAccess_onlyRealm (organizationId : OrganizationID) (realmId other : UUID) :
    MemoryBlockComponent.checkRealmReadAccess (onlyRealm organizationId realmId) organizationId other "" =
      .ok () ↔ other = realmId := by
  have role : (ownedRealm realmId).roles.get? "" = some .owner := rfl
  simp only [MemoryBlockComponent.checkRealmReadAccess, MemoryBlockComponent.checkRealmAccess, onlyRealm,
    Except.bind_eq_ok_iff, Except.mapError_eq_ok_iff, MemoryRealmComponent.getRealm_eq_ok_iff,
    MemoryRealmComponent.get?_setRealm, Prod.mk.injEq, true_and, Except.require_eq_ok_iff, exists_const]
  constructor
  · rintro ⟨realm, found, -⟩
    by_contra different
    rw [if_neg different] at found
    cases found
  · rintro rfl
    refine ⟨ownedRealm other, if_pos rfl, ?_, Bool.false_ne_true⟩
    rw [role]
    exact List.mem_cons_self ..

/-- All that a creation does: the blockstore takes the block, and its realm is written down. -/
theorem created_of_step (step : history.step? request = some next) :
    let key := (request.organizationId, request.blockId)
    ∃ store, history.component.blockstore.create key request.block = .ok store ∧
      next = ⟨⟨history.component.blockmetas.insert key ⟨request.realmId, request.block.length⟩, store⟩,
        if history.created.contains key then history.created
        else history.created.insert key (request.realmId, request.block)⟩ := by
  obtain ⟨component, accepted, rfl⟩ := Option.map_eq_some_iff.mp step
  have accepted := Except.toOption_eq_some_iff.mp accepted
  simp only [MemoryBlockComponent.create, Except.bind_eq_ok_iff, Except.mapError_eq_ok_iff,
    Except.pure_eq_ok_iff] at accepted
  obtain ⟨_, -, store, created, rfl⟩ := accepted
  exact ⟨store, created, rfl⟩

/-- The blocks can be read as they should be exactly if what is written down about them is right. -/
theorem HoldsFirst.keepsBlocks_iff (holds : history.HoldsFirst) : history.KeepsBlocks ↔ history.Records := by
  refine forall₃_congr fun key realmId block => imp_congr_right fun created => ?_
  have there : (history.created.get? key).map Prod.snd = some block := by rw [created, Option.map_some]
  constructor
  · intro same
    obtain ⟨tasks, scheduled⟩ := history.component.blockstore.exists_schedules
    have read := same (onlyRealm key.1 realmId) ⟨"", ""⟩ tasks scheduled
    rw [(checkRealmReadAccess_onlyRealm key.1 realmId realmId).mpr rfl] at read
    change _ = Except.ok block at read
    simp only [MemoryBlockComponent.read, Except.bind_eq_ok_iff, Option.elim_eq_ok_iff,
      Except.mapError_eq_ok_iff] at read
    obtain ⟨blockmeta, found, _, checked, got⟩ := read
    refine ⟨?_, (holds.read there scheduled).mp got⟩
    rw [found, Option.map_some, (checkRealmReadAccess_onlyRealm key.1 realmId _).mp checked]
  · rintro ⟨recorded, givenBack⟩ realms author tasks scheduled
    obtain ⟨blockmeta, found, rfl⟩ := Option.map_eq_some_iff.mp recorded
    rw [MemoryBlockComponent.read, found, Option.elim_some, Except.ok_bind,
      (holds.read there scheduled).mpr givenBack]
    cases MemoryBlockComponent.checkRealmReadAccess realms key.1 blockmeta.realmId author.userId <;> rfl

theorem HoldsFirst.step (holds : history.HoldsFirst) (records : history.Records)
    (step : history.step? request = some next) :
    next.HoldsFirst ∧ (next.Records ↔ history.Respects request) := by
  obtain ⟨store, created, rfl⟩ := created_of_step step
  obtain ⟨held, givesBack, -⟩ := BlockStore.Holds.create holds created
  obtain ⟨key, isKey⟩ : ∃ key, key = (request.organizationId, request.blockId) := ⟨_, rfl⟩
  unfold Respects HoldsFirst Records
  simp only [← isKey] at held ⊢
  cases before : history.created.get? key with
  | none =>
    have new : history.created.contains key = false := by rw [Dict.contains, before]; rfl
    simp only [new, Bool.false_eq_true, if_false, Dict.get?_insert, givesBack]
    constructor
    · convert held using 2 with other
      rw [added, before, Option.map_none, Option.none_or]
      split <;> rfl
    · constructor
      · intro all
        exact (all key request.realmId request.block (if_pos rfl)).2
      · intro givenBack other realmId block found
        split at found
        · next same =>
          cases found
          exact ⟨by rw [if_pos same]; rfl, givenBack⟩
        · next different =>
          rw [if_neg different]
          exact records other realmId block found
  | some first =>
    have there : history.created.contains key = true := by rw [Dict.contains, before]; rfl
    simp only [there, if_true, Dict.get?_insert, givesBack]
    constructor
    · convert held using 2 with other
      rw [added, before, Option.map_some, Option.some_or]
      split
      · next same => rw [same, before, Option.map_some]
      · rfl
    · constructor
      · intro all
        have recorded := (all key first.1 first.2 before).1
        rw [if_pos rfl] at recorded
        exact Option.some_inj.mp recorded
      · intro same other realmId block found
        by_cases here : other = key
        · rw [here, before] at found
          cases found
          rw [if_pos here]
          exact ⟨congrArg some same, (records key _ _ before).2⟩
        · rw [if_neg here]
          exact records other realmId block found

/-- A plain blockstore takes a block of a new id only, so that nothing has to be asked for. -/
theorem HoldsFirst.respects_of_memory (holds : history.HoldsFirst) {plain : MemoryBlockStore}
    (is : history.component.blockstore = .memory plain) (step : history.step? request = some next) :
    history.Respects request ∧ ∃ plain, next.component.blockstore = .memory plain := by
  obtain ⟨store, created, rfl⟩ := created_of_step step
  have absent := (BlockStore.Holds.create holds created).2.2 plain is
  rw [Option.map_eq_none_iff] at absent
  rw [is] at created
  obtain ⟨after, -, rfl⟩ := Except.map_eq_ok_iff.mp created
  refine ⟨?_, after, rfl⟩
  rw [Respects, absent, is]
  trivial

end BlockHistory

end History

/-- A block can be read in every state of a run as its first creation has it, exactly if every later creation
of its id is for the same realm and it can be got back at all: a RAID1 cluster gives back no empty block.
A plain blockstore asks for neither. -/
theorem block_keeps_realm_iff {config : BlockStoreConfig} {store : BlockStore}
    (made : blockstoreFactory config = some store) (requests : List BlockCreateRequest) :
    (Along BlockHistory.step? (fun _ _ next => next.KeepsBlocks) ⟨⟨∅, store⟩, ∅⟩ requests ↔
      Along BlockHistory.step? (fun history request _ => history.Respects request) ⟨⟨∅, store⟩, ∅⟩ requests) ∧
    (config = .mocked →
      Along BlockHistory.step? (fun _ _ next => next.KeepsBlocks) ⟨⟨∅, store⟩, ∅⟩ requests) := by
  have holds : (⟨⟨∅, store⟩, ∅⟩ : BlockHistory).HoldsFirst := holds_blockstoreFactory made
  have records : (⟨⟨∅, store⟩, ∅⟩ : BlockHistory).Records := nofun
  have agree (history : BlockHistory) (request : BlockCreateRequest) (next : BlockHistory)
      (sound : history.HoldsFirst ∧ history.Records) (step : history.step? request = some next) :
      next.KeepsBlocks ↔ history.Respects request := by
    obtain ⟨held, iff⟩ := sound.1.step sound.2 step
    exact held.keepsBlocks_iff.trans iff
  have preserved (history : BlockHistory) (request : BlockCreateRequest) (next : BlockHistory)
      (sound : history.HoldsFirst ∧ history.Records) (step : history.step? request = some next)
      (respects : history.Respects request) : next.HoldsFirst ∧ next.Records := by
    obtain ⟨held, iff⟩ := sound.1.step sound.2 step
    exact ⟨held, iff.mpr respects⟩
  have iff := along_congr _ agree preserved ⟨holds, records⟩ requests
  refine ⟨iff, ?_⟩
  rintro rfl
  cases made
  rw [iff]
  have gives (history : BlockHistory) (request : BlockCreateRequest) (next : BlockHistory)
      (sound : (history.HoldsFirst ∧ history.Records) ∧
        ∃ plain, history.component.blockstore = .memory plain)
      (step : history.step? request = some next) (_ : True) : history.Respects request := by
    obtain ⟨⟨holds, -⟩, plain, is⟩ := sound
    exact (holds.respects_of_memory is step).1
  have goesOn (history : BlockHistory) (request : BlockCreateRequest) (next : BlockHistory)
      (sound : (history.HoldsFirst ∧ history.Records) ∧
        ∃ plain, history.component.blockstore = .memory plain)
      (step : history.step? request = some next) (_ : True) :
      (next.HoldsFirst ∧ next.Records) ∧ ∃ plain, next.component.blockstore = .memory plain := by
    obtain ⟨sound, plain, is⟩ := sound
    obtain ⟨respects, memory⟩ := sound.1.respects_of_memory is step
    exact ⟨preserved history request next sound step respects, memory⟩
  exact along_of_invariant _ gives goesOn ⟨⟨holds, records⟩, {}, rfl⟩
    (along_of_forall_mem fun _ _ => trivial)

section Example

private def carol : DeviceID := ⟨"carol", "dev"⟩

/-- Carol writes in the second realm, and has nothing to do with the first one. -/
private def twoRealms : MemoryRealmComponent :=
  (({} : MemoryRealmComponent).setRealm "org" 1
    { grantedRoles := [⟨⟨⟨0⟩, none⟩, 1, "alice", some .owner, ⟨"alice", "dev"⟩, 1⟩] }).setRealm "org" 2
    { grantedRoles := [⟨⟨⟨0⟩, none⟩, 2, "carol", some .owner, carol, 1⟩] }

/-- Carol creates the block of Alice again, in her own realm. -/
private def claimedAgain : List BlockCreateRequest :=
  [⟨twoRealms, "org", ⟨"alice", "dev"⟩, 7, 1, [1, 2, 3]⟩, ⟨twoRealms, "org", carol, 7, 2, [0]⟩]

theorem block_keeps_realm_iff_raid5 :
    Along BlockHistory.step? (fun _ _ next => next.KeepsBlocks)
      ⟨⟨∅, .raid5 ⟨[{}, {}, {}]⟩⟩, ∅⟩ [⟨twoRealms, "org", ⟨"alice", "dev"⟩, 7, 1, [1, 2, 3]⟩] := by
  refine (block_keeps_realm_iff (rfl : blockstoreFactory (.raid5 3) = some _) _).1.mpr ?_
  exact fun next _ => ⟨trivial, trivial⟩

/-- The owner of the first realm has lost the block, and the owner of the second one can read it. -/
theorem block_claimed_by_other_realm :
    ∃ history, run? BlockHistory.step? ⟨⟨∅, .raid1 ⟨[{}, {}]⟩⟩, ∅⟩ claimedAgain = some history ∧
      ¬history.KeepsBlocks ∧
      history.component.read twoRealms "org" ⟨"alice", "dev"⟩ 7 [0, 1] = .error .access ∧
      history.component.read twoRealms "org" carol 7 [0, 1] = .ok [1, 2, 3] := by
  refine ⟨_, rfl, fun keeps => ?_, rfl, rfl⟩
  have read := keeps ("org", 7) 1 [1, 2, 3] rfl twoRealms carol [0, 1] (List.Perm.refl _)
  cases read

end Example

end Guardata
