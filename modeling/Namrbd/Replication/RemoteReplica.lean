import Namrbd.Replication.LocalReplica

/-!
# Remote replicas

Where the plan resolves its chunks the reader and the writer use the calls for physical
chunks, else the plain calls of the replica's volume. The reader tries one target after
the other; a target that says that something is not found is remembered, and when no
target answers the extent reads as zeros. A server keeps one object per physical chunk.
-/

namespace Namrbd

/-- An error of a client: the code that says not found, or any other. -/
inductive ClientErr where
  | notFound (message : String)
  | other (message : String)
  deriving DecidableEq

def isSBSNotFound : ClientErr → Bool
  | .notFound _ => true
  | .other _ => false

def ClientErr.message : ClientErr → String
  | .notFound message => message
  | .other message => message

/-- The calls of a replica's node. A node may know no physical chunks. -/
structure RemoteClient where
  physicalChunks : Bool
  readPhysicalChunk (physicalChunkID chunkOffsetBytes lengthBytes : Nat) :
    Except ClientErr (List Byte)
  read (offsetBytes lengthBytes : Nat) : Except ClientErr (List Byte)

structure RemoteReplica where
  replicaID : String
  client : RemoteClient

/-- A client is found under the replica or under its node. -/
def remoteReplicaForTarget {α : Type} (replicas : String → Option α) (target : ReplicaTarget) :
    Option α :=
  (replicas target.replicaID).or
    (if target.nodeID ≠ "" then replicas target.nodeID else none)

/-! ## The reader -/

structure RemoteReplicaReader where
  replicas : String → Option RemoteReplica
  /-- Whether the reader was made for encrypted payload. -/
  encryption : Bool := false

/-- Copy one chunk into the output; an error carries whether the chunk was missing. -/
def RemoteClient.readChunk (client : RemoteClient) (plan : ExtentReadPlan)
    (readOffset readLength : Nat) (out : List Byte) (chunk : ResolvedChunkRead) :
    Except (Bool × ClientErr) (List Byte) :=
  let chunkSize := plan.chunkSizeBytes
  let chunkStart := chunk.logicalChunk * chunkSize
  let copyStart := max readOffset chunkStart
  let copyEnd := min (readOffset + readLength) (chunkStart + chunkSize)
  if copyEnd ≤ copyStart then .ok out
  else if chunk.zero then .ok out
  else
    let chunkOffset := copyStart - chunkStart
    let copyLen := copyEnd - copyStart
    let physicalReadOffset := if chunk.encryption.isSome then 0 else chunkOffset
    let physicalReadLength := if chunk.encryption.isSome then chunkSize else copyLen
    match client.readPhysicalChunk chunk.physicalChunkID physicalReadOffset physicalReadLength with
    | .error err => .error (isSBSNotFound err && chunk.encryption.isNone, err)
    | .ok data =>
      if data.length < physicalReadLength then
        .error (false, .other "remote replica returned short chunk payload")
      else if chunk.encryption.isSome then .error (false, .other encryptionEnterpriseOnly.message)
      else .ok (Window.overlay out (copyStart - readOffset) (data.take copyLen))

/-- `none` when the plan resolves no chunks. -/
def RemoteReplica.readViaChunkAwareRPC (replica : RemoteReplica) (plan : ExtentReadPlan)
    (readOffset readLength : Nat) : Option (Except (Bool × ClientErr) (List Byte)) :=
  match resolvedReadChunkMappings plan readOffset readLength with
  | none => none
  | some [] => none
  | some chunks =>
    some (if !replica.client.physicalChunks then
        .error (false, .other s!"replica \"{replica.replicaID}\" does not support physical chunk read RPC")
      else if plan.chunkSizeBytes = 0 then
        .error (false, .other "chunk-aware read requires non-zero chunk size")
      else chunks.foldlM (replica.client.readChunk plan readOffset readLength)
        (List.replicate readLength 0))

/-- Tries target after target. When none answers and one misses the payload, the answer is zeros. -/
def RemoteReplicaReader.readTargets (r : RemoteReplicaReader) (plan : ExtentReadPlan)
    (readOffset readLength : Nat) :
    List ReplicaTarget → Bool → Option ClientErr → Except ClientErr (List Byte × String)
  | [], sawMissingPayload, lastErr =>
    if sawMissingPayload then .ok (List.replicate readLength 0, "")
    else .error (lastErr.getD (.other "no readable remote replica found"))
  | target :: targets, sawMissingPayload, _ =>
    match remoteReplicaForTarget r.replicas target with
    | none =>
      r.readTargets plan readOffset readLength targets sawMissingPayload
        (some (.other s!"replica \"{target.replicaID}\" on node \"{target.nodeID}\" has no remote client"))
    | some replica =>
      match replica.readViaChunkAwareRPC plan readOffset readLength with
      | some (.ok data) => .ok (data, target.replicaID)
      | some (.error (sawMissing, err)) =>
        r.readTargets plan readOffset readLength targets (sawMissingPayload || sawMissing) (some err)
      | none =>
        if r.encryption then
          r.readTargets plan readOffset readLength targets sawMissingPayload
            (some (.other "phase p encrypted remote replica reader requires allocation chunk mappings"))
        else
          match replica.client.read readOffset readLength with
          | .error err =>
            r.readTargets plan readOffset readLength targets
              (sawMissingPayload || isSBSNotFound err) (some err)
          | .ok data => .ok (data, target.replicaID)

/-- Reads the part of a request that lies in an extent, from any of its replicas. -/
def RemoteReplicaReader.readExtent (r : RemoteReplicaReader) (plan : ExtentReadPlan)
    (req : ReadRequest) : Except ClientErr (List Byte × String) :=
  match overlapRange plan.extent req.offsetBytes req.lengthBytes with
  | .error err => .error (.other err.message)
  | .ok (readOffset, readLength) =>
    if readRangeSatisfiedByZeroAllocation plan readOffset readLength then
      .ok (List.replicate readLength 0, "")
    else
      r.readTargets plan readOffset readLength (plan.preferred :: plan.fallbacks) false none

/-! ## The server of a replica -/

/-- The objects of the physical chunks, and the volume of the plain calls. -/
structure ChunkServer where
  chunkSizeBytes : Nat
  chunks : Nat → Option (List Byte)
  data : Nat → Byte

variable (server : ChunkServer)

/-- A chunk that was never written reads as zeros. -/
def ChunkServer.readChunk (chunkID : Nat) : Except ClientErr (List Byte) :=
  match server.chunks chunkID with
  | none => .ok (List.replicate server.chunkSizeBytes 0)
  | some value =>
    if value.length ≠ server.chunkSizeBytes then
      .error (.other s!"invalid chunk size in store got={value.length} want={server.chunkSizeBytes}")
    else .ok value

def ChunkServer.checkWindow (physicalChunkID chunkOffsetBytes lengthBytes : Nat) :
    Except ClientErr Unit :=
  if physicalChunkID = 0 ∨ server.chunkSizeBytes ≤ chunkOffsetBytes ∨
      server.chunkSizeBytes < chunkOffsetBytes + lengthBytes then
    .error (.other "request out of volume range")
  else if lengthBytes = 0 then .error (.other "offset/length must be 4KB aligned")
  else .ok ()

def ChunkServer.readPhysicalChunkAt (physicalChunkID chunkOffsetBytes lengthBytes : Nat) :
    Except ClientErr (List Byte) := do
  server.checkWindow physicalChunkID chunkOffsetBytes lengthBytes
  let chunk ← server.readChunk physicalChunkID
  return Window.slice chunk chunkOffsetBytes lengthBytes

def ChunkServer.writePhysicalChunkAt (physicalChunkID chunkOffsetBytes lengthBytes : Nat)
    (data : List Byte) : Except ClientErr ChunkServer := do
  server.checkWindow physicalChunkID chunkOffsetBytes lengthBytes
  if data.length ≠ lengthBytes then
    throw (.other "data length does not match length_bytes")
  let chunk ← if chunkOffsetBytes = 0 ∧ lengthBytes = server.chunkSizeBytes then
      pure (List.replicate server.chunkSizeBytes 0)
    else server.readChunk physicalChunkID
  return { server with
    chunks := Function.update server.chunks physicalChunkID
      (some (Window.overlay chunk chunkOffsetBytes data)) }

def ChunkServer.client (down : Bool) : RemoteClient where
  physicalChunks := true
  readPhysicalChunk physicalChunkID chunkOffsetBytes lengthBytes :=
    if down then .error (.other "unavailable")
    else server.readPhysicalChunkAt physicalChunkID chunkOffsetBytes lengthBytes
  read offsetBytes lengthBytes :=
    if down then .error (.other "unavailable")
    else .ok (Window.window server.data offsetBytes lengthBytes)

/-! ## The writer -/

/-- The write calls that fail, before or after they took effect, and the reads that fail. -/
structure RemoteFaults where
  writeChunk : Nat → Option (String × Bool) := fun _ => none
  readChunk : Nat → Option String := fun _ => none
  write : Option (String × Bool) := none

def writePhysicalChunk (faults : RemoteFaults) (server : ChunkServer)
    (physicalChunkID chunkOffsetBytes : Nat) (data : List Byte) :
    Except ClientErr Unit × ChunkServer :=
  match server.writePhysicalChunkAt physicalChunkID chunkOffsetBytes data.length data,
      faults.writeChunk physicalChunkID with
  | .ok written, none => (.ok (), written)
  | .error err, none => (.error err, server)
  | .ok written, some (message, true) => (.error (.other message), written)
  | _, some (message, _) => (.error (.other message), server)

def loadRemoteChunkForMerge (faults : RemoteFaults) (server : ChunkServer)
    (physicalChunkID chunkSize : Nat) (header : Option PayloadEncryptionHeader)
    (fullChunkWrite : Bool) : Except ClientErr (List Byte) :=
  if fullChunkWrite then .ok (List.replicate chunkSize 0)
  else
    let answer : Except ClientErr (List Byte) := match faults.readChunk physicalChunkID with
      | some message => .error (.other message)
      | none => server.readPhysicalChunkAt physicalChunkID 0 chunkSize
    match answer with
    | .error err =>
      if isSBSNotFound err && header.isNone then .ok (List.replicate chunkSize 0)
      else .error (.other s!"read base physical chunk {physicalChunkID} for partial write: {err.message}")
    | .ok data =>
      if data.length < chunkSize then .error (.other "remote replica returned short base chunk payload")
      else if header.isSome then .error (.other encryptionEnterpriseOnly.message)
      else .ok (data.take chunkSize)

def writeRemoteChunk (faults : RemoteFaults) (plan : ExtentWritePlan) (writeOffset : Nat)
    (payload : List Byte) (server : ChunkServer) (chunk : ResolvedChunkWrite) :
    Except ClientErr Unit × ChunkServer :=
  let chunkSize := plan.chunkSizeBytes
  let chunkStart := chunk.logicalChunk * chunkSize
  let chunkEnd := chunkStart + chunkSize
  let copyStart := max writeOffset chunkStart
  let copyEnd := min (writeOffset + payload.length) chunkEnd
  if copyEnd ≤ copyStart then (.ok (), server)
  else
    let chunkOffset := copyStart - chunkStart
    let copyLen := copyEnd - copyStart
    let chunkPayload := Window.slice payload (copyStart - writeOffset) copyLen
    let (basePhysicalChunkID, baseEncryption) :=
      if chunk.basePhysicalChunkID ≠ 0 ∧ chunk.basePhysicalChunkID ≠ chunk.physicalChunkID then
        (chunk.basePhysicalChunkID, chunk.baseEncryption)
      else (chunk.physicalChunkID, chunk.encryption)
    if chunkOffset ≠ 0 ∨ copyLen ≠ chunkSize then
      match loadRemoteChunkForMerge faults server basePhysicalChunkID chunkSize baseEncryption
          (copyStart == chunkStart && copyEnd == chunkEnd) with
      | .error err => (.error err, server)
      | .ok merged =>
        writePhysicalChunk faults server chunk.physicalChunkID 0
          (Window.overlay merged chunkOffset chunkPayload)
    else writePhysicalChunk faults server chunk.physicalChunkID chunkOffset chunkPayload

def writeRemoteChunks (faults : RemoteFaults) (plan : ExtentWritePlan) (writeOffset : Nat)
    (payload : List Byte) :
    List ResolvedChunkWrite → ChunkServer → Except ClientErr Unit × ChunkServer
  | [], server => (.ok (), server)
  | chunk :: chunks, server =>
    match writeRemoteChunk faults plan writeOffset payload server chunk with
    | (.error err, server) => (.error err, server)
    | (.ok (), server) => writeRemoteChunks faults plan writeOffset payload chunks server

/-- The chunks of a write that covers each of them: their ids and bytes. `none` where one is
copied from another chunk or covered in part. -/
def fullPhysicalChunkWriteTasks (plan : ExtentWritePlan) (writeOffset : Nat)
    (payload : List Byte) (chunks : List ResolvedChunkWrite) : Option (List (Nat × List Byte)) :=
  (chunks.mapM fun chunk =>
    let chunkSize := plan.chunkSizeBytes
    let chunkStart := chunk.logicalChunk * chunkSize
    let copyStart := max writeOffset chunkStart
    let copyEnd := min (writeOffset + payload.length) (chunkStart + chunkSize)
    if chunk.basePhysicalChunkID ≠ 0 ∧ chunk.basePhysicalChunkID ≠ chunk.physicalChunkID then none
    else if copyEnd ≤ copyStart then some none
    else if copyStart - chunkStart ≠ 0 ∨ copyEnd - copyStart ≠ chunkSize then none
    else some (some (chunk.physicalChunkID,
      Window.slice payload (copyStart - writeOffset) (copyEnd - copyStart)))).map (·.filterMap id)

/-- Every task is tried, whichever fail. -/
def writePhysicalChunkTasks (faults : RemoteFaults) :
    List (Nat × List Byte) → ChunkServer → List String × ChunkServer
  | [], server => ([], server)
  | (physicalChunkID, data) :: tasks, server =>
    match writePhysicalChunk faults server physicalChunkID 0 data with
    | (.ok (), server) => writePhysicalChunkTasks faults tasks server
    | (.error err, server) =>
      let (failures, server) := writePhysicalChunkTasks faults tasks server
      (err.message :: failures, server)

/-- The chunk calls of one replica. Two or more whole chunks are written side by side. -/
def writeViaChunkAwareRPC (faults : RemoteFaults) (plan : ExtentWritePlan) (writeOffset : Nat)
    (payload : List Byte) (chunks : List ResolvedChunkWrite) (server : ChunkServer) :
    Except ClientErr Unit × ChunkServer :=
  if chunks = [] then (.ok (), server)
  else if plan.chunkSizeBytes = 0 then
    (.error (.other "chunk-aware write requires non-zero chunk size"), server)
  else
    let tasks := if plan.copyOnWrite then none
      else (fullPhysicalChunkWriteTasks plan writeOffset payload chunks).filter (1 < ·.length)
    match tasks with
    | none => writeRemoteChunks faults plan writeOffset payload chunks server
    | some tasks =>
      match writePhysicalChunkTasks faults tasks server with
      | ([], server) => (.ok (), server)
      | (failures, server) => (.error (.other ("; ".intercalate failures)), server)

/-- One attempt of `RemoteReplicaWriter.WriteExtent` on the server of a target. -/
def writeRemoteTarget (faults : RemoteFaults) (plan : ExtentWritePlan) (req : WriteRequest)
    (writeOffset : Nat) (payload : List Byte) (server : ChunkServer) :
    Except ClientErr Unit × ChunkServer :=
  match resolvedWriteChunkMappings plan req with
  | some chunks => writeViaChunkAwareRPC faults plan writeOffset payload chunks server
  | none =>
    let written := { server with data := Window.patch server.data writeOffset payload }
    match faults.write with
    | none => (.ok (), written)
    | some (message, true) => (.error (.other message), written)
    | some (message, false) => (.error (.other message), server)

end Namrbd
