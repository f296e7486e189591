import Guardata.Model.SignedData
import Guardata.ToMathlib.ByteInteger
import Guardata.ToMathlib.Dict

/-! # The RAID5 blockstore

A block is cut into one chunk for each sub-blockstore but the last, which gets their checksum. One
sub-blockstore may fail to take its part, and one may fail to hand it out: the checksum makes up for it.

Every call to a sub-blockstore may time out. A call that times out, or that is cancelled because two
others did, may have been carried out all the same. The sub-blockstores are memory blockstores.
-/

namespace Guardata

inductive BlockError where
  | notFound
  | timeout
  | alreadyExists
  | assertion
  | index
  | zeroDivision
  | struct
  | overflow
deriving DecidableEq, Repr

/-- Integers of one size xor byte by byte, whatever the byte order. -/
def xorBytes (first second : Bytes) : Bytes := List.zipWith (· ^^^ ·) first second

/-- `_xor_buffers`. -/
def xorBuffers : List Bytes → Except BlockError Bytes
  | [] => .error .index
  | first :: rest => rest.foldlM (fun xored buff => do
      .require (buff.length = first.length) .assertion
      return xorBytes xored buff) first

/-- `sys.byteorder`. -/
inductive ByteOrder where
  | little
  | big
deriving DecidableEq, Repr

/-- `int.from_bytes`. -/
def ByteOrder.fromBytes (byteorder : ByteOrder) (data : Bytes) : ℕ :=
  match byteorder with
  | .little => ByteInteger.ofBytes data
  | .big => ByteInteger.ofBytes data.reverse

/-- `int.to_bytes`. -/
def ByteOrder.toBytes (byteorder : ByteOrder) (number length : ℕ) : Except BlockError Bytes := do
  .require (number < (2 ^ 8) ^ length) .overflow
  match byteorder with
  | .little => return ByteInteger.toBytes length number
  | .big => return (ByteInteger.toBytes length number).reverse

/-- `_xor_buffers` as the source has it, over integers. -/
def xorIntegers (byteorder : ByteOrder) : List Bytes → Except BlockError Bytes
  | [] => .error .index
  | first :: rest => do
      let xored ← rest.foldlM (fun xored buff => do
        .require (buff.length = first.length) .assertion
        return xored ^^^ byteorder.fromBytes buff) (byteorder.fromBytes first)
      byteorder.toBytes xored first.length

/-- `struct.pack("!I", number)`. -/
def packUint32 (number : ℕ) : Except BlockError Bytes := do
  .require (number < 2 ^ 32) .struct
  return [2 ^ 24, 2 ^ 16, 2 ^ 8, 1].map fun place => UInt8.ofNat (number / place)

/-- `struct.unpack("!I", data)`. -/
def unpackUint32 : Bytes → Except BlockError ℕ
  | [first, second, third, fourth] =>
      .ok (((first.toNat * 2 ^ 8 + second.toNat) * 2 ^ 8 + third.toNat) * 2 ^ 8 + fourth.toNat)
  | _ => .error .struct

def splitBlockInChunks (block : Bytes) (nbChunks : ℕ) : Except BlockError (List Bytes) := do
  -- encode block len as a uint32
  let payloadSize := block.length + 4
  .require (nbChunks ≠ 0) .zeroDivision
  let rounded := payloadSize / nbChunks
  let chunkLen := if nbChunks * rounded < payloadSize then rounded + 1 else rounded
  let paddingLen := chunkLen * nbChunks - payloadSize
  let header ← packUint32 block.length
  let payload := header ++ block ++ List.replicate paddingLen 0
  return (List.range nbChunks).map fun index => (payload.drop (chunkLen * index)).take chunkLen

def generateChecksumChunk (chunks : List Bytes) : Except BlockError Bytes := xorBuffers chunks

/-- Put what the checksum tells us in the place of the first missing chunk. -/
def correctChunks (chunks : List (Option Bytes)) (checksumChunk : Option Bytes) :
    Except BlockError (List (Option Bytes)) :=
  match chunks.findIdx? Option.isNone with
  | none => .ok chunks
  | some missingChunkId => do
      let checksum ← checksumChunk.elim (.error .assertion) .ok
      let corrected ← xorBuffers (chunks.reduceOption ++ [checksum])
      return chunks.set missingChunkId (some corrected)

def rebuildBlockFromChunks (chunks : List (Option Bytes)) (checksumChunk : Option Bytes) :
    Except BlockError Bytes := do
  let validChunks := chunks.reduceOption
  -- Cannot correct more than 1 chunk
  .require (chunks.length - validChunks.length ≤ 1) .assertion
  let chunks ← correctChunks chunks checksumChunk
  let payload := chunks.reduceOption.flatten
  let blockLen ← unpackUint32 (payload.take 4)
  return (payload.drop 4).take blockLen

abbrev BlockKey := OrganizationID × UUID

structure MemoryBlockStore where
  blocks : Dict BlockKey Bytes := ∅

namespace MemoryBlockStore

variable (store : MemoryBlockStore)

def read (key : BlockKey) : Except BlockError Bytes :=
  match store.blocks.get? key with
  | some block => .ok block
  | none => .error .notFound

def create (key : BlockKey) (block : Bytes) : Except BlockError MemoryBlockStore := do
  .require (store.blocks.contains key = false) .alreadyExists
  return ⟨store.blocks.insert key block⟩

end MemoryBlockStore

/-- What becomes of a call to a sub-blockstore. -/
inductive CallFate where
  | served
  | timedOut (done : Bool)
  | cancelled (done : Bool)
deriving DecidableEq, Repr

namespace CallFate

def isTimeout : CallFate → Bool
  | timedOut _ => true
  | _ => false

def isCancelled : CallFate → Bool
  | cancelled _ => true
  | _ => false

def isDone : CallFate → Bool
  | served => true
  | timedOut done | cancelled done => done

end CallFate

/-- What a read has got from a sub-blockstore, none if it has not asked. -/
abbrev FetchResult := Option (Except BlockError Bytes)

namespace FetchResult

/-- The chunk, if it is not an exception. -/
def chunk? : FetchResult → Option Bytes
  | some (.ok chunk) => some chunk
  | _ => none

def isException : FetchResult → Bool
  | some (.error _) => true
  | _ => false

def isTimeout : FetchResult → Bool
  | some (.error .timeout) => true
  | _ => false

end FetchResult

structure RAID5BlockStore where
  blockstores : List MemoryBlockStore

namespace RAID5BlockStore

variable (raid : RAID5BlockStore)

/-- One call of `read`, of a sub-blockstore that answers or does not. -/
def partialRead (key : BlockKey) (answers : ℕ → Bool) (index : ℕ) : Except BlockError Bytes :=
  if answers index then
    match raid.blockstores[index]? with
    | some store => store.read key
    | none => .error .index
  else .error .timeout

/-- What all of them have returned. The checksum is not fetched by default. -/
def fetchResults (key : BlockKey) (answers : ℕ → Bool) : List FetchResult :=
  let checksumIndex := raid.blockstores.length - 1
  let chunks := (List.range checksumIndex).map fun index => some (raid.partialRead key answers index)
  let checksum := if chunks.any FetchResult.isTimeout then
      some (raid.partialRead key answers checksumIndex)
    else none
  chunks ++ [checksum]

def read (key : BlockKey) (answers : ℕ → Bool) : Except BlockError Bytes :=
  let fetchResults := raid.fetchResults key answers
  let timeoutCount := fetchResults.countP FetchResult.isTimeout
  let checksum := fetchResults.getLast?.join
  if timeoutCount = 0 then do
    -- Sanity check: no errors and we didn't fetch the checksum
    .require (fetchResults.countP Option.isNone = 1) .assertion
    .require (checksum.isNone) .assertion
    .require (fetchResults.countP FetchResult.isException = 0) .assertion
    rebuildBlockFromChunks (fetchResults.dropLast.map FetchResult.chunk?) none
  else if timeoutCount = 1 then do
    -- Sanity check: one error and we have fetched the checksum
    .require (fetchResults.countP Option.isNone = 0) .assertion
    .require ((FetchResult.chunk? checksum).isSome) .assertion
    .require (fetchResults.countP FetchResult.isException = 1) .assertion
    rebuildBlockFromChunks (fetchResults.dropLast.map FetchResult.chunk?) (FetchResult.chunk? checksum)
  else .error .timeout

/-- The chunks of a block and, last, their checksum. -/
def chunksAndChecksum (block : Bytes) (nbChunks : ℕ) : Except BlockError (List Bytes) := do
  let chunks ← splitBlockInChunks block nbChunks
  .require (chunks.length = nbChunks) .assertion
  let checksum ← generateChecksumChunk chunks
  return chunks ++ [checksum]

/-- One call of `create`. It is fine if a previous attempt got there already. -/
def partialCreate (store : MemoryBlockStore) (key : BlockKey) (chunk : Bytes) (fate : CallFate) :
    MemoryBlockStore :=
  if fate.isDone then
    match store.create key chunk with
    | .ok store => store
    | .error _ => store
  else store

/-- How many calls time out. -/
def errorCount (fates : ℕ → CallFate) : ℕ :=
  (List.range raid.blockstores.length).countP fun index => (fates index).isTimeout

def create (key : BlockKey) (block : Bytes) (fates : ℕ → CallFate) :
    RAID5BlockStore × Except BlockError Unit :=
  match chunksAndChecksum block (raid.blockstores.length - 1) with
  | .error err => (raid, .error err)
  | .ok parts =>
      let blockstores := (raid.blockstores.zip parts).mapIdx fun index (store, part) =>
        partialCreate store key part (fates index)
      (⟨blockstores⟩, .require (raid.errorCount fates ≤ 1) .timeout)

/-- A call of `create` with what becomes of the calls that it makes. -/
structure CreateCall where
  key : BlockKey
  block : Bytes
  fates : ℕ → CallFate

/-- Run a call of `create`, successful or not; two timeouts are what cancels the other calls. -/
def step? (call : CreateCall) : Option RAID5BlockStore := do
  guard (∀ index < raid.blockstores.length,
    (call.fates index).isCancelled = true → 1 < raid.errorCount call.fates)
  return (raid.create call.key call.block call.fates).1

end RAID5BlockStore

end Guardata
