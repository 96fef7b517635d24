import Namrbd.Replication.Executor
import Namrbd.Replication.LocalReplica

/-!
# The write and read services

`write` is one call of the write service over local replicas: begin, payload,
commit with retries, acknowledgement. Its parts are separate functions, so that
calls can also be interleaved part by part. `read` plans a range and joins what
the reader returns for each extent.
-/

namespace Namrbd

/-- The metadata store, the replica stores, and the committed effects that the
background worker has not applied yet. -/
structure Cluster where
  repository : Repository
  stores : PayloadStores
  deferred : List ApplyCommittedWriteEffectsRequest := []

/-! ## The payload step -/

def writeExecutionCanOmitZeroSemanticPayload (exec : WriteExecution) (req : WriteRequest) : Bool :=
  req.zeroSemantic && req.lengthBytes != 0 &&
    exec.extents.all (fun extent => canOmitZeroSemanticPayload extent.plan req) &&
    !exec.extents.isEmpty

/-- The bytes handed to the replicas: a zero-semantic write without data that still
has chunks to write is written as zeros. -/
def replicaData (exec : WriteExecution) (req : WriteRequest) : List Byte :=
  if req.zeroSemantic && req.data.isEmpty && !writeExecutionCanOmitZeroSemanticPayload exec req then
    List.replicate req.lengthBytes 0
  else req.data

def writeQuorumError (plan : ExtentWritePlan) (acked : List String) (primaryAcked : Bool) : Err :=
  let ackedReplicaIDs := String.intercalate "," acked
  .other (s!"extent {plan.extent.extentID} did not reach quorum acked={acked.length} required={plan.requiredAcks} primary={plan.primary.replicaID} primary_acked={primaryAcked}" ++
    if acked = [] then "" else s!" acked_replica_ids={ackedReplicaIDs}")

/-- Write the extents from `extentIndex` on, and count their acknowledgements. -/
def writePayloadFrom (faults : StoreFaults) (req : WriteRequest) :
    List ExtentWritePlan → Nat → WriteExecution → PayloadStores →
      Except Err WriteExecution × PayloadStores
  | [], _, exec, stores => (.ok exec, stores)
  | plan :: plans, extentIndex, exec, stores =>
    match writeExtent faults plan req stores with
    | (.error err, stores) => (.error err, stores)
    | (.ok acked, stores) =>
      let exec := exec.markReplicaAcks extentIndex true acked
      match exec.extents[extentIndex]? with
      | none => (.error (.other s!"extent index {extentIndex} out of range"), stores)
      | some status =>
        if status.quorumReached then
          writePayloadFrom faults req plans (extentIndex + 1) exec stores
        else (.error (writeQuorumError plan acked status.primaryAcked), stores)

/-- Stores the payload of all extents and counts the acknowledgements. -/
def writePayload (faults : StoreFaults) (exec : WriteExecution) (req : WriteRequest)
    (stores : PayloadStores) : Except Err WriteExecution × PayloadStores :=
  writePayloadFrom faults { req with data := replicaData exec req }
    (exec.extents.map (·.plan)) 0 exec stores

/-! ## The commit step -/

def writeMetadataCommitMaxAttempts : Nat := 64

/-- Commits, and after a lost race rebases, prepares and commits again. -/
def commitMetadataWithRetry (cfg : ExecutorConfig) (now : Nat) (req : WriteRequest) :
    Nat → Repository → WriteExecution → AllocationCommit → Except Err Nat × CommitOutcome
  | 0, m, _, _ => (.error .casConflict, { repository := m })
  | attempts + 1, m, exec, alloc =>
    match commitMetadata cfg now m exec alloc with
    | (.error .casConflict, outcome) =>
      if attempts = 0 then (.error .casConflict, outcome)
      else
        match rebaseWritePlanForRetry outcome.repository exec req with
        | .error err => (.error err, outcome)
        | .ok exec =>
          match prepareAllocationCommit exec req with
          | .error err => (.error err, outcome)
          | .ok alloc =>
            commitMetadataWithRetry cfg now req attempts outcome.repository exec alloc
    | result => result

/-! ## One call -/

structure WriteResponse where
  replay : Bool
  committed : Bool
  revision : Nat
  deriving DecidableEq

/-- The write fails, and its intent is marked as failed. -/
def failWrite (c : Cluster) (exec : WriteExecution) (err : Err) :
    Except Err WriteResponse × Cluster :=
  (.error err, { c with repository := markFailed c.repository exec err.message })

/-- What a write does once its payload is stored. -/
def finishWrite (cfg : ExecutorConfig) (now : Nat) (c : Cluster) (exec : WriteExecution)
    (req : WriteRequest) : Except Err WriteResponse × Cluster :=
  match prepareAllocationCommit exec req with
  | .error err => failWrite c exec err
  | .ok alloc =>
    match commitMetadataWithRetry cfg now req writeMetadataCommitMaxAttempts c.repository exec
        alloc with
    | (.error err, outcome) =>
      failWrite { c with
        repository := outcome.repository, deferred := c.deferred ++ outcome.deferred } exec err
    | (.ok revision, outcome) =>
      (.ok { replay := false, committed := true, revision },
        { c with repository := outcome.repository, deferred := c.deferred ++ outcome.deferred })

/-- `WriteService.Write`: begin, payload, preparation and commit. -/
def write (cfg : ExecutorConfig) (now : Nat) (faults : StoreFaults) (c : Cluster)
    (req : WriteRequest) : Except Err WriteResponse × Cluster :=
  match beginWrite cfg c.repository req with
  | .error err => (.error err, c)
  | .ok (.replay record, m) =>
    (.ok { replay := true, committed := record.resultState == .committed,
           revision := record.revision }, { c with repository := m })
  | .ok (.noop revision, m) =>
    (.ok { replay := false, committed := true, revision }, { c with repository := m })
  | .ok (.execution exec, m) =>
    match writePayload faults exec req c.stores with
    | (.error err, stores) => failWrite { c with repository := m, stores } exec err
    | (.ok exec, stores) => finishWrite cfg now { c with repository := m, stores } exec req

/-! ## Reading -/

/-- The parts of the extents, one after the other in the order of the plan. -/
def readExtents (faults : StoreFaults) (c : Cluster) (req : ReadRequest)
    (plan : List ExtentReadPlan) : Except Err (List Byte) := do
  let parts ← plan.mapM fun extent => readExtent faults c.stores extent req
  return parts.flatten

/-- `ReadService.Read` of the volume. -/
def read (faults : StoreFaults) (c : Cluster) (req : ReadRequest) : Except Err (List Byte) := do
  let plan ← planRead c.repository req.offsetBytes req.lengthBytes req.pageBytes req.chunkSizeBytes
  readExtents faults c req plan

def readSnapshot (faults : StoreFaults) (c : Cluster) (snapshotID : String) (req : ReadRequest) :
    Except Err (List Byte) := do
  let plan ← planSnapshotRead c.repository snapshotID req.offsetBytes req.lengthBytes
    req.pageBytes req.chunkSizeBytes
  readExtents faults c req plan

end Namrbd
