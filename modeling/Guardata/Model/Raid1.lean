import Guardata.Model.Block

/-! # A RAID1 cluster whose nodes may time out

Every node takes the whole block, and a read asks all of them at once. The first answer cancels the other tasks of
the read; whoever has its answer by then, or comes to no checkpoint, still writes it over the first one. A call that
times out, or that is cancelled because another one did, may have been carried out all the same.
-/

namespace Guardata

/-- What becomes of the call that a read makes to a node. -/
inductive ReadFate where
  | served
  | timedOut
  | cancelled
deriving DecidableEq, Repr

/-- What the tasks of a read share: `value` and the cancel scope of their nursery. -/
structure ReadRace where
  value : Option Bytes := none
  cancelled : Bool := false
deriving DecidableEq, Repr

/-- What is returned in the end; no bytes at all are no value. -/
def ReadRace.result (race : ReadRace) : Except BlockError Bytes :=
  match race.value with
  | some (first :: rest) => .ok (first :: rest)
  | _ => .error .notFound

namespace RAID1BlockStore

variable (raid : RAID1BlockStore)

/-- `_single_blockstore_read`. A task is cancelled only by one that had an answer. -/
def singleBlockstoreRead (key : BlockKey) (race : ReadRace) (call : ℕ × ReadFate) : Option ReadRace :=
  match call.2 with
  | .served => raid.blockstores[call.1]?.map fun store =>
      match store.read key with
      | .ok value => { value := some value, cancelled := true }
      | .error _ => race
  | .timedOut => some race
  | .cancelled => if race.cancelled then some race else none

/-- `read`, of the tasks in the order in which they end; none if the tasks cannot end like this. -/
def readWith (key : BlockKey) (calls : List (ℕ × ReadFate)) : Option (Except BlockError Bytes) := do
  guard ((calls.map Prod.fst).Perm (List.range raid.blockstores.length))
  let race ← calls.foldlM (raid.singleBlockstoreRead key) {}
  return race.result

/-- A call of `create` with what becomes of the calls that it makes. -/
structure CreateCall where
  key : BlockKey
  block : Bytes
  fates : ℕ → CallFate

/-- `create`. It returns if every node has been served, whether or not the node had the block. -/
def createWith (call : CreateCall) : RAID1BlockStore × Except BlockError Unit :=
  (⟨raid.blockstores.mapIdx fun index store =>
      if (call.fates index).isDone then singleBlockstoreCreate call.key call.block store else store⟩,
    .require (∀ index < raid.blockstores.length, call.fates index = .served) .timeout)

end RAID1BlockStore

end Guardata
