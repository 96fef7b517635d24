import Namrbd.Lib.Trace
import Namrbd.Replication.RemoteReplica

/-!
# Concurrent writes of physical chunks

A data node serves any number of `WritePhysicalChunk` calls at once: a call takes
the writer fence lock of its volume for reading only. A call that writes a part of
a chunk reads the chunk, copies its data over it and writes the whole chunk back.

A step is one access of one call to the stores of the node. Every access may fail,
before or after it took effect.
-/

namespace Namrbd

/-- Who asks, and under which attachment and key. -/
structure SBSRequestContext where
  requestID : String
  gatewayID : String
  attachmentID : String
  generation : Nat
  idempotencyKey : String

/-- The fields that a request must have. -/
def SBSRequestContext.validate (c : SBSRequestContext) (requireWriter requireIdempotency : Bool) :
    Except String Unit := do
  if c.requestID = "" then throw "sbs request_id is required"
  if c.gatewayID = "" then throw "sbs gateway_id is required"
  if requireWriter then
    if c.attachmentID = "" then throw "sbs attachment_id is required"
    if c.generation = 0 then throw "sbs generation must be >= 1"
  if requireIdempotency ∧ c.idempotencyKey = "" then throw "sbs idempotency_key is required"

structure WritePhysicalChunkRequest where
  physicalChunkID : Nat
  chunkOffsetBytes : Nat
  lengthBytes : Nat
  data : List Byte
  context : SBSRequestContext

/-- The checks before anything is accessed. -/
def WritePhysicalChunkRequest.validate (req : WritePhysicalChunkRequest) : Except String Unit := do
  if req.physicalChunkID = 0 ∨ req.lengthBytes = 0 then throw "sbs length_bytes must be > 0"
  if req.data.length ≠ req.lengthBytes then throw "sbs data length does not match length_bytes"
  req.context.validate true true

structure WritePhysicalChunkResponse where
  physicalChunkID : Nat
  chunkOffsetBytes : Nat
  lengthBytes : Nat
  volumeRevision : Nat
  deriving DecidableEq

structure PhysicalWriteConfig (Hash : Type) where
  disablePhysicalWriteIdempotency : Bool := false
  writeHash : Nat → Nat → List Byte → Hash

/-- A node with its idempotency records and the revision it has observed of the volume. -/
structure DataNode (Hash : Type) extends ChunkServer where
  idempotency : String × Nat × String → Option (Hash × WritePhysicalChunkResponse)
  observedRevision : Nat

/-- The next access of a `WritePhysicalChunk` call. -/
inductive ChunkWritePhase where
  | requireOpen
  | loadIdempotent
  | readChunk
  /-- With the chunk that was read, unless the whole chunk is written. -/
  | writeChunk (read : Option (List Byte))
  | observeRevision
  | storeIdempotent (resp : WritePhysicalChunkResponse)
  | done (result : Except ClientErr WritePhysicalChunkResponse)

namespace WritePhysicalChunkRequest

variable {Hash : Type} (cfg : PhysicalWriteConfig Hash) (req : WritePhysicalChunkRequest)

def idempotencyKey : String × Nat × String :=
  (req.context.attachmentID, req.context.generation, req.context.idempotencyKey)

/-- The digest by which a repeated key is told from a conflicting one. -/
def hash (node : DataNode Hash) : Hash :=
  cfg.writeHash (req.physicalChunkID * node.chunkSizeBytes + req.chunkOffsetBytes) req.lengthBytes
    req.data

/-- The checks of `WritePhysicalChunkAtWithStats`; a whole chunk is not read. -/
def writePhysicalChunkAt (node : DataNode Hash) : ChunkWritePhase :=
  match node.checkWindow req.physicalChunkID req.chunkOffsetBytes req.lengthBytes with
  | .error err => .done (.error err)
  | .ok () =>
    if req.data.length ≠ req.lengthBytes then
      .done (.error (.other "data length does not match length_bytes"))
    else if req.chunkOffsetBytes = 0 ∧ req.lengthBytes = node.chunkSizeBytes then
      .writeChunk none
    else .readChunk

/-- The chunk that is written back: the data of the call over what it has read. -/
def merged (read : Option (List Byte)) : List Byte :=
  read.elim req.data fun chunk => Window.overlay chunk req.chunkOffsetBytes req.data

/-- The first phase of a call. -/
def writePhysicalChunk : ChunkWritePhase :=
  match req.validate with
  | .error message => .done (.error (.other message))
  | .ok () => .requireOpen

variable [DecidableEq Hash]

/-- What an access does that does not fail. -/
def serve (node : DataNode Hash) : ChunkWritePhase → ChunkWritePhase × DataNode Hash
  | .requireOpen =>
    (if cfg.disablePhysicalWriteIdempotency then req.writePhysicalChunkAt node else .loadIdempotent,
      node)
  | .loadIdempotent =>
    (match node.idempotency req.idempotencyKey with
      | none => req.writePhysicalChunkAt node
      | some (hash, cached) =>
        .done (if hash = req.hash cfg node then .ok cached
          else .error (.other "same idempotency key used with different request body")), node)
  | .readChunk =>
    (match node.readChunk req.physicalChunkID with
      | .error err => .done (.error err)
      | .ok chunk => .writeChunk (some chunk), node)
  | .writeChunk read =>
    let chunk := req.merged read
    if chunk.length ≠ node.chunkSizeBytes then
      (.done (.error (.other
        s!"invalid chunk payload size got={chunk.length} want={node.chunkSizeBytes}")), node)
    else
      (.observeRevision, { node with
        chunks := Function.update node.chunks req.physicalChunkID (some chunk) })
  | .observeRevision =>
    let revision := node.observedRevision + 1
    let resp := ⟨req.physicalChunkID, req.chunkOffsetBytes, req.lengthBytes, revision⟩
    (if cfg.disablePhysicalWriteIdempotency then .done (.ok resp) else .storeIdempotent resp,
      { node with observedRevision := revision })
  | .storeIdempotent resp =>
    (.done (.ok resp), { node with
      idempotency :=
        Function.update node.idempotency req.idempotencyKey (some (req.hash cfg node, resp)) })
  | .done result => (.done result, node)

/-- The next access of a call. A fault says whether the access took effect. -/
def access (fault : Option (String × Bool)) (node : DataNode Hash) (phase : ChunkWritePhase) :
    Option (ChunkWritePhase × DataNode Hash) :=
  match phase, fault with
  | .done _, _ => none
  | phase, none => some (req.serve cfg node phase)
  | phase, some (message, took) =>
    some (.done (.error (.other message)), if took then (req.serve cfg node phase).2 else node)

end WritePhysicalChunkRequest

/-- A node and the calls it serves. -/
structure ChunkWrites (ι Hash : Type) where
  node : DataNode Hash
  phase : ι → ChunkWritePhase

namespace ChunkWrites

variable {ι Hash : Type} [DecidableEq ι] [DecidableEq Hash] (cfg : PhysicalWriteConfig Hash)
  (reqs : ι → WritePhysicalChunkRequest)

def start (node : DataNode Hash) : ChunkWrites ι Hash :=
  ⟨node, fun i => (reqs i).writePhysicalChunk⟩

def step (s : ChunkWrites ι Hash) (event : ι × Option (String × Bool)) :
    Option (ChunkWrites ι Hash) :=
  ((reqs event.1).access cfg event.2 s.node (s.phase event.1)).map fun (phase, node) =>
    ⟨node, Function.update s.phase event.1 phase⟩

end ChunkWrites

end Namrbd
