import Guardata.Model.Raid5
import Guardata.Model.Vlob

/-! # The block component of the memory backend

The bytes of a block are in a blockstore, and what realm it belongs to is in the block component, which
records it once the blockstore has taken the block. The blockstore is a memory blockstore, or a RAID1 or
RAID5 cluster of them. These never time out.

The tasks of a RAID1 read run one after the other, in any order: without a checkpoint on their way, all of
them come to their end after the first has cancelled the others.
-/

namespace Guardata

structure RAID1BlockStore where
  blockstores : List MemoryBlockStore

namespace RAID1BlockStore

variable (raid : RAID1BlockStore)

/-- The indices of the sub-blockstores are in the order of the tasks. No bytes at all is no value. -/
def read (tasks : List ℕ) (key : BlockKey) : Except BlockError Bytes :=
  let values := tasks.filterMap fun index => raid.blockstores[index]?.bind (·.blocks.get? key)
  match values.getLast? with
  | some (first :: rest) => .ok (first :: rest)
  | _ => .error .notFound

/-- It is fine if a previous attempt got there already. -/
def singleBlockstoreCreate (key : BlockKey) (block : Bytes) (store : MemoryBlockStore) : MemoryBlockStore :=
  match store.create key block with
  | .ok store => store
  | .error _ => store

def create (key : BlockKey) (block : Bytes) : RAID1BlockStore :=
  ⟨raid.blockstores.map (singleBlockstoreCreate key block)⟩

end RAID1BlockStore

inductive BlockStoreConfig where
  | mocked
  | raid1 (blockstores : ℕ)
  | raid5 (blockstores : ℕ)

inductive BlockStore where
  | memory (store : MemoryBlockStore)
  | raid1 (raid : RAID1BlockStore)
  | raid5 (raid : RAID5BlockStore)

def blockstoreFactory : BlockStoreConfig → Option BlockStore
  | .mocked => some (.memory {})
  | .raid1 count => some (.raid1 ⟨List.replicate count {}⟩)
  | .raid5 count => do
      -- RAID5 block store needs at least 3 nodes
      guard (3 ≤ count)
      return .raid5 ⟨List.replicate count {}⟩

namespace BlockStore

/-- The order of tasks matters to a RAID1 cluster only. -/
def read (tasks : List ℕ) (key : BlockKey) : BlockStore → Except BlockError Bytes
  | memory store => store.read key
  | raid1 raid => raid.read tasks key
  | raid5 raid => raid.read key fun _ => true

def create (key : BlockKey) (block : Bytes) : BlockStore → Except BlockError BlockStore
  | memory store => (store.create key block).map memory
  | raid1 raid => .ok (raid1 (raid.create key block))
  | raid5 raid => (raid.create key block fun _ => .served).2.map fun _ =>
      raid5 (raid.create key block fun _ => .served).1

end BlockStore

/-- What a request about a block raises. -/
inductive BlockRequestError where
  | blockstore (error : BlockError)
  | notFound (reason : String)
  | access
  | inMaintenance (reason : String)
deriving DecidableEq, Repr

structure BlockMeta where
  realmId : UUID
  size : ℕ
deriving DecidableEq, Repr

structure MemoryBlockComponent where
  blockmetas : Dict BlockKey BlockMeta := ∅
  blockstore : BlockStore

namespace MemoryBlockComponent

def checkRealmAccess (realms : MemoryRealmComponent) (organizationId : OrganizationID) (realmId : UUID)
    (userId : UserID) (allowedRoles : List (Option RealmRole)) : Except BlockRequestError Unit := do
  let realm ← (realms.getRealm organizationId realmId).mapError fun _ =>
    .notFound s!"Realm `{realmId}` doesn't exist"
  .require (realm.roles.get? userId ∈ allowedRoles) .access
  .require (¬realm.status.inMaintenance) (.inMaintenance s!"Realm `{realmId}` is currently under maintenance")

def checkRealmReadAccess (realms : MemoryRealmComponent) (organizationId : OrganizationID)
    (realmId : UUID) (userId : UserID) : Except BlockRequestError Unit :=
  checkRealmAccess realms organizationId realmId userId canReadRoles

def checkRealmWriteAccess (realms : MemoryRealmComponent) (organizationId : OrganizationID)
    (realmId : UUID) (userId : UserID) : Except BlockRequestError Unit :=
  checkRealmAccess realms organizationId realmId userId canWriteRoles

variable (component : MemoryBlockComponent) (realms : MemoryRealmComponent)

def read (organizationId : OrganizationID) (author : DeviceID) (blockId : UUID) (tasks : List ℕ) :
    Except BlockRequestError Bytes := do
  let blockmeta ← (component.blockmetas.get? (organizationId, blockId)).elim (.error (.notFound "")) .ok
  checkRealmReadAccess realms organizationId blockmeta.realmId author.userId
  (component.blockstore.read tasks (organizationId, blockId)).mapError .blockstore

def create (organizationId : OrganizationID) (author : DeviceID) (blockId realmId : UUID) (block : Bytes) :
    Except BlockRequestError MemoryBlockComponent := do
  checkRealmWriteAccess realms organizationId realmId author.userId
  let blockstore ← (component.blockstore.create (organizationId, blockId) block).mapError .blockstore
  return ⟨component.blockmetas.insert (organizationId, blockId) ⟨realmId, block.length⟩, blockstore⟩

end MemoryBlockComponent

/-- A request to create a block, with the realms as they are by then. -/
structure BlockCreateRequest where
  realms : MemoryRealmComponent
  organizationId : OrganizationID
  author : DeviceID
  blockId : UUID
  realmId : UUID
  block : Bytes

/-- The component, with the realm and the bytes of every block at its first creation. -/
structure BlockHistory where
  component : MemoryBlockComponent
  created : Dict BlockKey (UUID × Bytes) := ∅

/-- A creation that is accepted; what is refused changes nothing, and neither does a read. -/
def BlockHistory.step? (history : BlockHistory) (request : BlockCreateRequest) : Option BlockHistory :=
  let key := (request.organizationId, request.blockId)
  (history.component.create request.realms request.organizationId request.author request.blockId
    request.realmId request.block).toOption.map fun component =>
      ⟨component, if history.created.contains key then history.created
        else history.created.insert key (request.realmId, request.block)⟩

end Guardata
