import Namrbd.Replication.Allocation

/-!
# Local replicas

Each replica keeps its payload in a local object store, one object per extent and
physical chunk. The writer merges the payload into the chunks the plan resolved; where
it resolves none it stores the payload of the extent as one object. The reader
assembles the chunks of the first replica that has them all. This edition has no
payload encryption.
-/

namespace Namrbd

/-- The objects of a replica by extent and chunk id. -/
abbrev PayloadStore := Nat → Nat → Option (List Byte)

abbrev PayloadStores := String → Option PayloadStore

/-- The store calls that fail, by replica, extent and chunk id. -/
structure StoreFaults where
  get : String → Nat → Nat → Bool
  put : String → Nat → Nat → Bool

def StoreFaults.reliable : StoreFaults := ⟨fun _ _ _ => false, fun _ _ _ => false⟩

/-- The object of a replica, if it has a store. -/
def PayloadStores.payload (stores : PayloadStores) (replicaID : String) (extentID chunkID : Nat) :
    Option (List Byte) :=
  (stores replicaID).bind fun store => store extentID chunkID

def PayloadStores.set (stores : PayloadStores) (replicaID : String) (extentID chunkID : Nat)
    (value : List Byte) : PayloadStores := fun r =>
  if r = replicaID then
    (stores r).map fun store => fun e c =>
      if e = extentID ∧ c = chunkID then some value else store e c
  else stores r

def storeError : Err := .other "payload store failed"

def encryptionEnterpriseOnly : Err :=
  .other "Phase P replicated payload encryption is Enterprise edition only"

def putPayload (faults : StoreFaults) (stores : PayloadStores) (replicaID : String)
    (extentID chunkID : Nat) (value : List Byte) : Except Err PayloadStores :=
  if faults.put replicaID extentID chunkID then .error storeError
  else .ok (stores.set replicaID extentID chunkID value)

def getPayload (faults : StoreFaults) (stores : PayloadStores) (replicaID : String)
    (extentID chunkID : Nat) : Except Err (Option (List Byte)) :=
  if faults.get replicaID extentID chunkID then .error storeError
  else .ok (stores.payload replicaID extentID chunkID)

/-! ## Chunks of a write -/

/-- A chunk to write, under which id, and from which one its other bytes come. -/
structure ResolvedChunkWrite where
  logicalChunk : Nat
  physicalChunkID : Nat
  basePhysicalChunkID : Nat
  encryption : Option PayloadEncryptionHeader
  baseEncryption : Option PayloadEncryptionHeader
  deriving DecidableEq

/-- A chunk that a zero-semantic write covers is not written: the commit unmaps it. -/
def shouldSkipChunkPayloadWrite (zeroSemantic : Bool)
    (chunkStart chunkEnd copyStart copyEnd : Nat) : Bool :=
  zeroSemantic && copyStart == chunkStart && copyEnd == chunkEnd

variable (plan : ExtentWritePlan)

/-- What a copied chunk starts from. -/
def baseChunkAllocation (chunk : Nat) : Nat × Option PayloadEncryptionHeader :=
  if plan.copyOnWrite && !plan.baseAllocations.isEmpty then
    match logicalChunkAllocationRecord plan.baseAllocations chunk with
    | none => (0, none)
    | some base => if base.zero then (0, none) else (base.physicalChunkID, base.encryption)
  else (0, none)

/-- One touched chunk: `none` when the plan has no chunk to write to, `some none`
when it is skipped. -/
def resolveWriteChunk (zeroSemantic : Bool) (writeStart writeLength chunk : Nat) :
    Option (Option ResolvedChunkWrite) :=
  let chunkStart := chunk * plan.chunkSizeBytes
  let chunkEnd := chunkStart + plan.chunkSizeBytes
  let copyStart := max writeStart chunkStart
  let copyEnd := min (writeStart + writeLength) chunkEnd
  match logicalChunkAllocationRecord plan.allocationPages chunk with
  | none => none
  | some allocation =>
    if shouldSkipChunkPayloadWrite zeroSemantic chunkStart chunkEnd copyStart copyEnd then
      some none
    else if allocation.zero || allocation.physicalChunkID == 0 then none
    else
      let base := baseChunkAllocation plan chunk
      some (some {
        logicalChunk := chunk
        physicalChunkID := allocation.physicalChunkID
        basePhysicalChunkID := base.1
        encryption := allocation.encryption
        baseEncryption := base.2 })

/-- The chunks of a write, if all of them have an id. -/
def resolvedWriteChunkMappings (req : WriteRequest) : Option (List ResolvedChunkWrite) :=
  if plan.chunkSizeBytes = 0 ∨ plan.allocationPages = [] then none
  else
    match overlapRange plan.extent req.offsetBytes req.lengthBytes with
    | .error _ => none
    | .ok (writeStart, writeLength) =>
      if writeLength = 0 then none
      else ((touchedChunks plan.chunkSizeBytes writeStart writeLength).mapM
        (resolveWriteChunk plan req.zeroSemantic writeStart writeLength)).map
          (·.filterMap id)

def resolvedWritePhysicalChunkID (req : WriteRequest) : Option Nat :=
  if plan.chunkSizeBytes = 0 ∨ plan.allocationPages = [] then none
  else
    match overlapRange plan.extent req.offsetBytes req.lengthBytes with
    | .error _ => none
    | .ok (writeStart, writeLength) =>
      if writeLength = 0 then none
      else
        match touchedChunks plan.chunkSizeBytes writeStart writeLength with
        | [chunk] =>
          match logicalChunkAllocationRecord plan.allocationPages chunk with
          | none => none
          | some allocation =>
            if allocation.zero || allocation.physicalChunkID == 0 then none
            else some allocation.physicalChunkID
        | _ => none

/-- A zero-semantic write that skips all its chunks needs no payload. -/
def canOmitZeroSemanticPayload (req : WriteRequest) : Bool :=
  req.zeroSemantic && resolvedWriteChunkMappings plan req == some []

/-- The bytes of the request that belong to an extent. -/
def payloadForExtent (req : WriteRequest) : Except Err (List Byte) := do
  let (copyStart, copyLength) ← overlapRange plan.extent req.offsetBytes req.lengthBytes
  if canOmitZeroSemanticPayload plan req then
    return []
  let start := copyStart - req.offsetBytes
  if req.data.length < start + copyLength then
    throw (.other "request data shorter than declared length")
  return Window.slice req.data start copyLength

/-! ## The writer -/

/-- The bytes a chunk is merged into: zeros for a whole chunk or a missing one. -/
def loadChunkForMerge (faults : StoreFaults) (stores : PayloadStores) (replicaID : String)
    (extentID physicalChunkID chunkSize : Nat) (header : Option PayloadEncryptionHeader)
    (fullChunkWrite : Bool) : Except Err (List Byte) :=
  let zeros : List Byte := List.replicate chunkSize 0
  if fullChunkWrite then .ok zeros
  else do
    match ← getPayload faults stores replicaID extentID physicalChunkID with
    | none =>
      if header.isSome then
        throw (.other s!"encrypted replica \"{replicaID}\" payload not found")
      return zeros
    | some value =>
      if header.isSome then
        throw encryptionEnterpriseOnly
      return Window.overlay zeros 0 (value.take chunkSize)

/-- Reads the base of a chunk, lays the payload over it and puts the object. -/
def writeChunk (faults : StoreFaults) (replicaID : String) (plan : ExtentWritePlan)
    (zeroSemantic : Bool) (writeStart writeLength : Nat) (payload : List Byte)
    (stores : PayloadStores) (chunk : ResolvedChunkWrite) : Except Err PayloadStores :=
  let chunkSize := plan.chunkSizeBytes
  let chunkStart := chunk.logicalChunk * chunkSize
  let copyStart := max writeStart chunkStart
  let copyEnd := min (writeStart + writeLength) (chunkStart + chunkSize)
  if copyEnd ≤ copyStart then .ok stores
  else if shouldSkipChunkPayloadWrite zeroSemantic chunkStart (chunkStart + chunkSize)
      copyStart copyEnd then .ok stores
  else do
    let (basePhysicalChunkID, baseEncryption) :=
      if chunk.basePhysicalChunkID ≠ 0 ∧ chunk.basePhysicalChunkID ≠ chunk.physicalChunkID then
        (chunk.basePhysicalChunkID, chunk.baseEncryption)
      else (chunk.physicalChunkID, chunk.encryption)
    let chunkBuf ← loadChunkForMerge faults stores replicaID plan.extent.extentID
      basePhysicalChunkID chunkSize baseEncryption
      (copyStart == chunkStart && copyEnd == chunkStart + chunkSize)
    let payloadOffset := copyStart - writeStart
    let chunkOffset := copyStart - chunkStart
    let copyLen := copyEnd - copyStart
    if payload.length < payloadOffset + copyLen ∨ chunkBuf.length < chunkOffset + copyLen then
      throw (.other "chunk merge window exceeds payload bounds")
    putPayload faults stores replicaID plan.extent.extentID chunk.physicalChunkID
      (Window.overlay chunkBuf chunkOffset (Window.slice payload payloadOffset copyLen))

/-- Write chunk after chunk; chunks already written stay when one fails. -/
def writeChunks (faults : StoreFaults) (replicaID : String) (plan : ExtentWritePlan)
    (zeroSemantic : Bool) (writeStart writeLength : Nat) (payload : List Byte) :
    List ResolvedChunkWrite → PayloadStores → Except Err Unit × PayloadStores
  | [], stores => (.ok (), stores)
  | chunk :: chunks, stores =>
    match writeChunk faults replicaID plan zeroSemantic writeStart writeLength payload stores
        chunk with
    | .error err => (.error err, stores)
    | .ok stores =>
      writeChunks faults replicaID plan zeroSemantic writeStart writeLength payload chunks stores

/-- Whether the write was handled chunk by chunk. A failed chunk counts as not
handled, and the caller goes on with the whole-extent path. -/
def writeViaAllocationChunks (faults : StoreFaults) (stores : PayloadStores) (replicaID : String)
    (plan : ExtentWritePlan) (req : WriteRequest) (writeStart writeLength : Nat)
    (payload : List Byte) : Bool × PayloadStores :=
  match resolvedWriteChunkMappings plan req with
  | none => (false, stores)
  | some [] => (true, stores)
  | some chunks =>
    if payload.length ≠ writeLength then (false, stores)
    else
      match writeChunks faults replicaID plan req.zeroSemantic writeStart writeLength payload
          chunks stores with
      | (.ok (), stores) => (true, stores)
      | (.error _, stores) => (false, stores)

/-- Writes the chunks of an extent to one replica. -/
def writeTarget (faults : StoreFaults) (plan : ExtentWritePlan) (req : WriteRequest)
    (writeStart writeLength : Nat) (payload : List Byte) (stores : PayloadStores)
    (replicaID : String) : Except Err Unit × PayloadStores :=
  match stores replicaID with
  | none => (.error (.other s!"replica \"{replicaID}\" has no local payload store"), stores)
  | some _ =>
    match writeViaAllocationChunks faults stores replicaID plan req writeStart writeLength
        payload with
    | (true, stores) => (.ok (), stores)
    | (false, stores) =>
      let chunkID := (resolvedWritePhysicalChunkID plan req).getD plan.extent.chunkID
      match putPayload faults stores replicaID plan.extent.extentID chunkID payload with
      | .error err => (.error err, stores)
      | .ok stores => (.ok (), stores)

/-- One replica after the other, up to the first that fails. -/
def writeTargets (faults : StoreFaults) (plan : ExtentWritePlan) (req : WriteRequest)
    (writeStart writeLength : Nat) (payload : List Byte) :
    List ReplicaTarget → PayloadStores → Except Err (List String) × PayloadStores
  | [], stores => (.ok [], stores)
  | target :: targets, stores =>
    match writeTarget faults plan req writeStart writeLength payload stores target.replicaID with
    | (.error err, stores) => (.error err, stores)
    | (.ok (), stores) =>
      match writeTargets faults plan req writeStart writeLength payload targets stores with
      | (.error err, stores) => (.error err, stores)
      | (.ok acked, stores) => (.ok (target.replicaID :: acked), stores)

def writeExtent (faults : StoreFaults) (plan : ExtentWritePlan) (req : WriteRequest)
    (stores : PayloadStores) : Except Err (List String) × PayloadStores :=
  match payloadForExtent plan req, overlapRange plan.extent req.offsetBytes req.lengthBytes with
  | .ok payload, .ok (writeStart, writeLength) =>
    writeTargets faults plan req writeStart writeLength payload plan.writeTargets stores
  | .error err, _ => (.error err, stores)
  | _, .error err => (.error err, stores)

/-! ## The reader -/

structure ReadRequest where
  offsetBytes : Nat
  lengthBytes : Nat
  pageBytes : Nat
  chunkSizeBytes : Nat
  deriving DecidableEq

/-- A chunk to read, and whether it is zero. -/
structure ResolvedChunkRead where
  logicalChunk : Nat
  physicalChunkID : Nat
  zero : Bool
  encryption : Option PayloadEncryptionHeader
  deriving DecidableEq

/-- No chunk of the range is mapped. -/
def readRangeSatisfiedByZeroAllocation (plan : ExtentReadPlan) (readStart readLength : Nat) :
    Bool :=
  if plan.chunkSizeBytes = 0 ∨ plan.allocationPages = [] ∨ readLength = 0 then false
  else (touchedChunks plan.chunkSizeBytes readStart readLength).all fun chunk =>
    (logicalChunkAllocationRecord plan.allocationPages chunk).any (·.zero)

def resolvedReadChunkMappings (plan : ExtentReadPlan) (readStart readLength : Nat) :
    Option (List ResolvedChunkRead) :=
  if plan.chunkSizeBytes = 0 ∨ plan.allocationPages = [] ∨ readLength = 0 then none
  else (touchedChunks plan.chunkSizeBytes readStart readLength).mapM fun chunk =>
    (logicalChunkAllocationRecord plan.allocationPages chunk).map fun allocation =>
      { logicalChunk := chunk
        physicalChunkID := allocation.physicalChunkID
        zero := allocation.zero
        encryption := allocation.encryption }

def resolvedReadPhysicalChunkID (plan : ExtentReadPlan) (readStart readLength : Nat) :
    Option Nat :=
  match resolvedReadChunkMappings plan readStart readLength with
  | some [chunk] =>
    if chunk.zero || chunk.physicalChunkID == 0 then none else some chunk.physicalChunkID
  | _ => none

/-- Copies what the range wants of a chunk to its place. -/
def readChunk (faults : StoreFaults) (stores : PayloadStores) (replicaID : String)
    (plan : ExtentReadPlan) (readStart readLength : Nat) (out : List Byte)
    (chunk : ResolvedChunkRead) : Except Err (List Byte) :=
  let chunkSize := plan.chunkSizeBytes
  let chunkStart := chunk.logicalChunk * chunkSize
  let copyStart := max readStart chunkStart
  let copyEnd := min (readStart + readLength) (chunkStart + chunkSize)
  if copyEnd ≤ copyStart then .ok out
  else if chunk.zero then .ok out
  else do
    match ← getPayload faults stores replicaID plan.extent.extentID chunk.physicalChunkID with
    | none =>
      if chunk.encryption.isSome then
        throw (.other s!"encrypted replica \"{replicaID}\" payload not found")
      throw (.other s!"replica \"{replicaID}\" payload not found")
    | some value =>
      if chunk.encryption.isSome then
        throw encryptionEnterpriseOnly
      let chunkOffset := copyStart - chunkStart
      let copyLen := copyEnd - copyStart
      if value.length < chunkOffset + copyLen then
        throw (.other s!"replica \"{replicaID}\" payload shorter than requested chunk window")
      return Window.overlay out (copyStart - readStart) (Window.slice value chunkOffset copyLen)

/-- `none` when the plan resolves no chunks. -/
def readViaAllocationChunks (faults : StoreFaults) (stores : PayloadStores) (replicaID : String)
    (plan : ExtentReadPlan) (readStart readLength : Nat) : Option (Except Err (List Byte)) :=
  match resolvedReadChunkMappings plan readStart readLength with
  | none => none
  | some [] => none
  | some chunks =>
    some (chunks.foldlM (readChunk faults stores replicaID plan readStart readLength)
      (List.replicate readLength 0))

/-- The first object found under the whole-extent keys, else whether an object was
missing and the last error. -/
def readKeys (faults : StoreFaults) (stores : PayloadStores) (replicaID : String) (extentID : Nat) :
    List Nat → Bool → Option Err → Except (Bool × Option Err) (List Byte)
  | [], sawMissing, lastErr => .error (sawMissing, lastErr)
  | chunkID :: chunkIDs, sawMissing, _ =>
    match getPayload faults stores replicaID extentID chunkID with
    | .error err => readKeys faults stores replicaID extentID chunkIDs sawMissing (some err)
    | .ok none =>
      readKeys faults stores replicaID extentID chunkIDs true
        (some (.other s!"replica \"{replicaID}\" payload not found"))
    | .ok (some value) => .ok value

/-- Try replica after replica. A replica whose chunks can not all be read is
passed over; when only whole-extent objects were missing the extent reads as
zeros. -/
def readTargets (faults : StoreFaults) (stores : PayloadStores) (plan : ExtentReadPlan)
    (readStart readLength : Nat) :
    List ReplicaTarget → Bool → Option Err → Except Err (List Byte)
  | [], sawMissing, lastErr =>
    if sawMissing then .ok (List.replicate readLength 0)
    else .error (lastErr.getD (.other "no readable replica found"))
  | target :: targets, sawMissing, lastErr =>
    match stores target.replicaID with
    | none =>
      readTargets faults stores plan readStart readLength targets sawMissing
        (some (.other s!"replica \"{target.replicaID}\" has no local payload store"))
    | some _ =>
      match readViaAllocationChunks faults stores target.replicaID plan readStart readLength with
      | some (.ok data) => .ok data
      | some (.error err) =>
        readTargets faults stores plan readStart readLength targets sawMissing (some err)
      | none =>
        let keys := match resolvedReadPhysicalChunkID plan readStart readLength with
          | some physicalChunkID =>
            if physicalChunkID ≠ plan.extent.chunkID then
              [physicalChunkID, plan.extent.chunkID]
            else [plan.extent.chunkID]
          | none => [plan.extent.chunkID]
        match readKeys faults stores target.replicaID plan.extent.extentID keys sawMissing
            lastErr with
        | .ok value => .ok value
        | .error (sawMissing, lastErr) =>
          readTargets faults stores plan readStart readLength targets sawMissing lastErr

/-- Reads the part of a request that lies in an extent. -/
def readExtent (faults : StoreFaults) (stores : PayloadStores) (plan : ExtentReadPlan)
    (req : ReadRequest) : Except Err (List Byte) := do
  let (readStart, readLength) ← overlapRange plan.extent req.offsetBytes req.lengthBytes
  if readRangeSatisfiedByZeroAllocation plan readStart readLength then
    return List.replicate readLength 0
  readTargets faults stores plan readStart readLength (plan.preferred :: plan.fallbacks) false none

end Namrbd
