import Namrbd.Metadata.Commit
import Namrbd.Replication.Allocation

/-!
# The write executor

A write execution passes through intent, payload quorum and metadata commit.
The executor begins a write (idempotency check, plan, allocation, intent),
commits its metadata in one of four modes, recovers after a lost race when the
record turns out to be committed already, and records failures.
-/

namespace Namrbd

/-! ## Executions -/

inductive WritePipelineState where
  | received
  | validated
  | intentPending
  | payloadQuorumDone
  | metadataCommitted
  | acked
  | failed
  deriving DecidableEq

/-- Which replicas have acknowledged an extent of a write. -/
structure ExtentWriteStatus where
  plan : ExtentWritePlan
  ackedReplicaIDs : List String := []
  primaryAcked : Bool := false
  quorumReached : Bool := false
  failed : Bool := false
  lastError : String := ""
  deriving DecidableEq

/-- A write between its begin and its commit. -/
structure WriteExecution where
  attachmentID : String
  generation : Nat
  idempotencyKey : String
  metadataEpoch : Nat
  metadataRevision : Nat
  mutationOperation : Option MutationOperationRecord := none
  allowMissingWriteIntent : Bool := false
  state : WritePipelineState := .received
  extents : List ExtentWriteStatus
  lastError : String := ""
  deriving DecidableEq

namespace WriteExecution

def allExtentsQuorumReached (w : WriteExecution) : Bool :=
  !w.extents.isEmpty && w.extents.all (·.quorumReached)

/-- Metadata are committed only after the payload of every extent has its quorum. -/
def canCommitMetadata (w : WriteExecution) : Bool :=
  w.state == .payloadQuorumDone && w.allExtentsQuorumReached

end WriteExecution

/-- Counts an acknowledgement, once for each replica. -/
def ExtentWriteStatus.markReplicaAck (status : ExtentWriteStatus) (requirePrimaryAck : Bool)
    (replicaID : String) : ExtentWriteStatus :=
  let ackedReplicaIDs := Table.put id replicaID status.ackedReplicaIDs
  let primaryAcked := status.primaryAcked || replicaID == status.plan.primary.replicaID
  let reached := (!requirePrimaryAck || primaryAcked) &&
    decide (status.plan.requiredAcks ≤ ackedReplicaIDs.length)
  { status with
    ackedReplicaIDs := ackedReplicaIDs
    primaryAcked := primaryAcked
    quorumReached := status.quorumReached || reached }

def WriteExecution.markReplicaAcks (w : WriteExecution) (extentIndex : Nat)
    (requirePrimaryAck : Bool) (replicaIDs : List String) : WriteExecution :=
  let w := { w with extents := w.extents.modify extentIndex fun status =>
    replicaIDs.foldl (·.markReplicaAck requirePrimaryAck ·) status }
  if replicaIDs ≠ [] ∧ w.allExtentsQuorumReached then { w with state := .payloadQuorumDone } else w

/-! ## Configuration -/

/-- How the executor commits. `appendOnly`, `rangeLocal` and `pageScoped` are set
when the mode is preferred and its committer configured. -/
structure ExecutorConfig where
  appendOnly : Bool := false
  rangeLocal : Bool := false
  pageScoped : Bool := false
  /-- State and effects are committed by separate services. -/
  splitCommitter : Bool := false
  effectsApplier : Bool := true
  asyncWriteEffects : Bool := false
  allowMissingWriteIntent : Bool := false
  deriving DecidableEq

namespace ExecutorConfig

/-- The modes are tried in the order append-only, range-local, page-scoped. -/
def useAppendOnlyServiceWriteEffects (cfg : ExecutorConfig) (pages : List AllocationPageRecord) :
    Bool :=
  cfg.appendOnly && !pages.isEmpty

def useRangeLocalWriteState (cfg : ExecutorConfig) (pages : List AllocationPageRecord) : Bool :=
  cfg.rangeLocal && cfg.effectsApplier && !pages.isEmpty

def usePageScopedWriteMetadata (cfg : ExecutorConfig) (pages : List AllocationPageRecord) : Bool :=
  cfg.pageScoped && !pages.isEmpty

def canUseMissingWriteIntent (cfg : ExecutorConfig) (plan : List ExtentWritePlan) : Bool :=
  cfg.allowMissingWriteIntent && cfg.appendOnly && plan.any fun extent =>
    !extent.allocationPages.isEmpty

end ExecutorConfig

/-! ## Beginning a write -/

def hexDigit (n : Nat) : Char :=
  if n < 10 then Char.ofNat (48 + n) else Char.ofNat (87 + n)

/-- `fmt.Sprintf("write-%x", idempotencyKey)`. -/
def writeMutationOperationID (idempotencyKey : String) : String :=
  "write-" ++ String.ofList (idempotencyKey.toList.flatMap fun c =>
    (String.utf8EncodeChar c).flatMap fun b => [hexDigit (b.toNat / 16), hexDigit (b.toNat % 16)])

def newWriteMutationOperationRecord (state : VolumeState) (idempotencyKey : String) :
    MutationOperationRecord :=
  { operationID := writeMutationOperationID idempotencyKey
    kind := "write"
    state := .running
    allocationRevision := state.revision
    writerFencingEpoch := state.epoch
    idempotencyKey := idempotencyKey }

/-- The record of a write that is begun, or that has ended at once. -/
def writeIdempotencyRecord (state : VolumeState) (req : WriteRequest)
    (resultState : IdempotencyResultState) : IdempotencyRecord :=
  { idempotencyKey := req.idempotencyKey
    attachmentID := req.attachmentID
    generation := req.generation
    epoch := state.epoch
    revision := state.revision
    operation := "write"
    resultState := resultState }

/-- A zero-semantic write over chunks that are all zero changes nothing. -/
def writePlanIsZeroNoop (plan : List ExtentWritePlan) (req : WriteRequest) : Bool :=
  if !req.allowZeroNoop || !req.zeroSemantic || req.lengthBytes == 0 || req.chunkSizeBytes == 0 then
    false
  else
    let extentNoop (extent : ExtentWritePlan) : Bool :=
      if extent.copyOnWrite || extent.extent.chunkID != 0 || extent.chunkSizeBytes == 0 ||
          extent.allocationPages.isEmpty then false
      else
        match overlapRange extent.extent req.offsetBytes req.lengthBytes with
        | .error _ => false
        | .ok (writeStart, writeLength) =>
          decide (writeLength = 0) ||
            (touchedChunks extent.chunkSizeBytes writeStart writeLength).all
              (resolvedAllocationPagesChunkIsZero extent.allocationPages)
    let touches (extent : ExtentWritePlan) : Bool :=
      match overlapRange extent.extent req.offsetBytes req.lengthBytes with
      | .error _ => false
      | .ok (_, writeLength) => writeLength != 0
    plan.all extentNoop && plan.any touches

/-- A begin returns an execution, the result of an earlier call, or that there is nothing to do. -/
inductive BeginWriteResult where
  | execution (exec : WriteExecution)
  | replay (record : IdempotencyRecord)
  | noop (revision : Nat)
  deriving DecidableEq

def newWriteExecution (plan : List ExtentWritePlan) (req : WriteRequest) (state : VolumeState)
    (allowMissingWriteIntent : Bool) : WriteExecution :=
  { attachmentID := req.attachmentID
    generation := req.generation
    idempotencyKey := req.idempotencyKey
    metadataEpoch := state.epoch
    metadataRevision := state.revision
    mutationOperation := some (newWriteMutationOperationRecord state req.idempotencyKey)
    allowMissingWriteIntent := allowMissingWriteIntent
    state := .intentPending
    extents := plan.map fun extent => { plan := extent } }

def planRequest (m : Repository) (req : WriteRequest) : Except Err (List ExtentWritePlan) :=
  planWrite m req.offsetBytes req.lengthBytes req.pageBytes req.chunkSizeBytes

/-- Join an intent that is still pending: only the operation is written again. -/
def beginRecoverablePendingWriteWithPlan (m : Repository) (state : VolumeState)
    (req : WriteRequest) (plan : List ExtentWritePlan) :
    Except Err (BeginWriteResult × Repository) := do
  let (plan, m) ← prepareWritePlanAllocations m plan req
  return (.execution (newWriteExecution plan req state false),
    m.putMutationOperation (newWriteMutationOperationRecord state req.idempotencyKey))

/-- A write of zeros over zeros is committed at once. -/
def beginWriteZeroNoop (m : Repository) (state : VolumeState) (req : WriteRequest) :
    BeginWriteResult × Repository :=
  if req.unsafeZeroNoopSkipIdempotency then (.noop state.revision, m)
  else (.noop state.revision, m.putIdempotencyRecord (writeIdempotencyRecord state req .committed))

variable (cfg : ExecutorConfig)

/-- Allocates chunks for the plan and stores the intent. -/
def beginNewWriteWithPlan (m : Repository) (state : VolumeState) (req : WriteRequest)
    (plan : List ExtentWritePlan) : Except Err (BeginWriteResult × Repository) :=
  if writePlanIsZeroNoop plan req then .ok (beginWriteZeroNoop m state req)
  else do
    let (plan', m) ← prepareWritePlanAllocations m plan req
    if cfg.canUseMissingWriteIntent plan' then
      return (.execution (newWriteExecution plan' req state true), m)
    return (.execution (newWriteExecution plan' req state false),
      m.putWriteIntent (writeIdempotencyRecord state req .pending)
        (newWriteMutationOperationRecord state req.idempotencyKey))

/-- A key that has a record already is replayed, continued or refused. -/
def beginWriteFromRecord (m : Repository) (state : VolumeState) (req : WriteRequest) :
    Except Err (BeginWriteResult × Repository) := do
  match Table.get? (·.idempotencyKey) req.idempotencyKey m.idempotency with
  | some existing =>
    if existing.attachmentID ≠ req.attachmentID ∨ existing.generation ≠ req.generation ∨
        existing.operation ≠ "write" then
      throw .idempotencyConflict
    match existing.resultState with
    | .committed =>
      match Table.get? (·.operationID) (writeMutationOperationID req.idempotencyKey)
          m.operations with
      | some operation =>
        if operation.state ≠ .committed then
          throw .intentPending
        return (.replay existing, m)
      | none => return (.replay existing, m)
    | .pending =>
      let plan ← planRequest m req
      beginRecoverablePendingWriteWithPlan m state req plan
    | .failed =>
      let plan ← planRequest m req
      beginNewWriteWithPlan { cfg with allowMissingWriteIntent := false } m state req plan
  | none =>
    let plan ← planRequest m req
    beginNewWriteWithPlan { cfg with allowMissingWriteIntent := false } m state req plan

def beginWriteWithState (m : Repository) (state : VolumeState) (req : WriteRequest) :
    Except Err (BeginWriteResult × Repository) := do
  if cfg.allowMissingWriteIntent then
    let plan ← planRequest m req
    if !writePlanIsZeroNoop plan req && cfg.canUseMissingWriteIntent plan then
      return ← beginNewWriteWithPlan cfg m state req plan
  beginWriteFromRecord cfg m state req

def beginWrite (m : Repository) (req : WriteRequest) :
    Except Err (BeginWriteResult × Repository) := do
  let state ← m.getVolumeState
  beginWriteWithState cfg m state req

/-! ## Preparing and committing -/

/-- This edition writes no encryption headers. -/
def noEncryptionHeaders (_ : Nat) : Option PayloadEncryptionHeader := none

/-- The pages that the commit will store, the ids it retires and the chunks it touches. -/
def prepareAllocationCommit (exec : WriteExecution) (req : WriteRequest) :
    Except Err AllocationCommit :=
  if invalidGeometry req.pageBytes req.chunkSizeBytes then .ok ⟨[], [], []⟩
  else do
    let (states, ranges) ← exec.extents.foldlM
      (fun acc extent => prepareCommitExtent req acc extent.plan noEncryptionHeaders) ([], [])
    return {
      pages := states.map (·.toRecord)
      retiredPhysicalChunkIDs :=
        uniqueSortedUint64s (states.flatMap (·.retiredPhysicalChunkIDs))
      affectedPageChunkRanges := mergeAllocationCommitPageChunkRanges ranges }

def extentIDsForAllocationBackedCommit (exec : WriteExecution) : List Nat :=
  Table.putAll id ((exec.extents.filter fun extent =>
    !extent.plan.allocationPages.isEmpty).map (·.plan.extent.extentID)) []

def normalizeExtentIDsForAllocationBackedCommit (exec : WriteExecution) : List Nat :=
  Table.putAll id ((exec.extents.filter fun extent =>
    !extent.plan.allocationPages.isEmpty && extent.plan.extent.chunkID != 0).map
      (·.plan.extent.extentID)) []

def pageNosForAllocationCommit (pages : List AllocationPageRecord) : List Nat :=
  Table.putAll id (pages.map (·.pageNo)) []

/-- What the commit changes besides the state. -/
def effectsRequest (exec : WriteExecution) (alloc : AllocationCommit) (committedRevision : Nat)
    (mutationOperation : Option MutationOperationRecord) : ApplyCommittedWriteEffectsRequest :=
  { committedRevision := committedRevision
    allocationPages := alloc.pages
    normalizeExtentMappings := normalizeExtentIDsForAllocationBackedCommit exec
    mutationOperationID := writeMutationOperationID exec.idempotencyKey
    expectedMutationState := .running
    affectedExtentIDs := extentIDsForAllocationBackedCommit exec
    affectedPageNos := pageNosForAllocationCommit alloc.pages
    affectedPageChunkRanges := alloc.affectedPageChunkRanges
    retiredPhysicalChunkIDs := alloc.retiredPhysicalChunkIDs
    mutationOperation := mutationOperation }

/-- The epoch and revision a commit expects; an execution without one takes the current one. -/
def commitExpectation (m : Repository) (exec : WriteExecution) : Except Err (Nat × Nat) :=
  if exec.metadataEpoch = 0 ∨ exec.metadataRevision = 0 then do
    let state ← m.getVolumeState
    return (if exec.metadataEpoch = 0 then state.epoch else exec.metadataEpoch,
      if exec.metadataRevision = 0 then state.revision else exec.metadataRevision)
  else .ok (exec.metadataEpoch, exec.metadataRevision)

/-- The request of the commit, with what it expects of the volume. -/
def commitRequest (m : Repository) (exec : WriteExecution) (alloc : AllocationCommit) :
    Except Err CommitWriteMetadataRequest := do
  let (expectedEpoch, expectedRevision) ← commitExpectation m exec
  return {
    stateCommitRequest := {
      expectedEpoch := expectedEpoch
      expectedRevision := expectedRevision
      idempotencyKey := exec.idempotencyKey
      expectedIdempotencyState := .pending
      committedRevision := expectedRevision + 1
      attachmentID := exec.attachmentID
      generation := exec.generation
      allowMissingWriteIntent := exec.allowMissingWriteIntent }
    effectsApplyRequest :=
      effectsRequest exec alloc (expectedRevision + 1) exec.mutationOperation }

/-- What a commit leaves behind: the stored state and the effects put off. -/
structure CommitOutcome where
  repository : Repository
  deferred : List ApplyCommittedWriteEffectsRequest := []

/-- A transaction that failed leaves the state as it was. -/
def inTransaction {α : Type} (m : Repository) (result : Except Err (α × Repository)) :
    Except Err α × CommitOutcome :=
  match result with
  | .ok (a, m) => (.ok a, { repository := m })
  | .error err => (.error err, { repository := m })

/-- Apply the effects of a state commit, now or later. A failure leaves the state
half committed. -/
def applyEffectsAfter (req : CommitWriteMetadataRequest) (m : Repository)
    (result : Except Err (IdempotencyRecord × Repository)) :
    Except Err IdempotencyRecord × CommitOutcome :=
  match result with
  | .error err => (.error err, { repository := m })
  | .ok (record, m) =>
    let effects := { req.effectsApplyRequest with
      committedRevision := if record.revision ≠ 0 then record.revision
        else req.stateCommitRequest.committedRevision }
    if cfg.asyncWriteEffects then (.ok record, { repository := m, deferred := [effects] })
    else
      match m.applyCommittedWriteEffects effects with
      | .error err => (.error err, { repository := m })
      | .ok m => (.ok record, { repository := m })

/-- Commits in the mode that the configuration and the pages ask for. -/
def runCommit (now : Nat) (m : Repository) (req : CommitWriteMetadataRequest) :
    Except Err IdempotencyRecord × CommitOutcome :=
  let pages := req.effectsApplyRequest.allocationPages
  if cfg.useAppendOnlyServiceWriteEffects pages then
    inTransaction m (m.commitAppendOnlyWriteStateAndQueueEffects now req)
  else if cfg.useRangeLocalWriteState pages then
    applyEffectsAfter cfg req m (m.commitRangeLocalWriteState req)
  else if cfg.usePageScopedWriteMetadata pages then
    inTransaction m (m.commitPageScopedWriteMetadata req)
  else if cfg.splitCommitter then
    applyEffectsAfter cfg req m (m.commitWriteState req.stateCommitRequest)
  else
    inTransaction m (m.commitWriteMetadata req)

/-- After a lost race: the record may be committed already, by this execution or
by another one of the same key. -/
def recoverCommittedWriteAfterCAS (m : Repository) (exec : WriteExecution)
    (alloc : AllocationCommit) : Except Err (Option Nat) × Repository :=
  match Table.get? (·.idempotencyKey) exec.idempotencyKey m.idempotency with
  | none => (.ok none, m)
  | some record =>
    if record.attachmentID ≠ exec.attachmentID ∨ record.generation ≠ exec.generation ∨
        record.operation ≠ "write" then (.ok none, m)
    else if record.resultState ≠ .committed then (.ok none, m)
    else
      match Table.get? (·.operationID) (writeMutationOperationID exec.idempotencyKey)
          m.operations with
      | none => (.ok (some record.revision), m)
      | some operation =>
        if operation.state = .committed then (.ok (some record.revision), m)
        else if cfg.effectsApplier = false then (.ok none, m)
        else
          match m.applyCommittedWriteEffects (effectsRequest exec alloc record.revision none) with
          | .error err => (.error err, m)
          | .ok m => (.ok (some record.revision), m)

/-- `Executor.CommitMetadata`: the committed revision, or the error. -/
def commitMetadata (now : Nat) (m : Repository) (exec : WriteExecution) (alloc : AllocationCommit) :
    Except Err Nat × CommitOutcome :=
  if exec.canCommitMetadata = false then
    (.error (.other "write execution is not ready for metadata commit"), { repository := m })
  else
    match commitRequest m exec alloc with
    | .error err => (.error err, { repository := m })
    | .ok req =>
      match runCommit cfg now m req with
      | (.ok record, outcome) => (.ok record.revision, outcome)
      | (.error .casConflict, outcome) =>
        match recoverCommittedWriteAfterCAS cfg outcome.repository exec alloc with
        | (.error err, m) => (.error err, { outcome with repository := m })
        | (.ok (some revision), m) => (.ok revision, { outcome with repository := m })
        | (.ok none, m) => (.error .casConflict, { outcome with repository := m })
      | (.error err, outcome) => (.error err, outcome)

/-- `Executor.MarkFailed`: the record and the operation are overwritten. -/
def markFailed (m : Repository) (exec : WriteExecution) (message : String) : Repository :=
  match m.volume with
  | none => m
  | some state =>
    (m.putIdempotencyRecord {
      idempotencyKey := exec.idempotencyKey
      attachmentID := exec.attachmentID
      generation := exec.generation
      epoch := state.epoch
      revision := state.revision
      operation := "write"
      resultState := .failed }).putMutationOperation {
        operationID := writeMutationOperationID exec.idempotencyKey
        kind := "write"
        state := .failed
        allocationRevision := state.revision
        writerFencingEpoch := state.epoch
        idempotencyKey := exec.idempotencyKey
        errorMessage := message }

/-! ## Rebasing after a lost race -/

/-- Take the latest extent and pages into one extent's plan, keeping its ids,
targets and acknowledgements. -/
def rebaseExtent (req : WriteRequest) (latestPlan : List ExtentWritePlan)
    (status : ExtentWriteStatus) : Except Err ExtentWriteStatus :=
  match latestPlan.reverse.find? fun latest =>
      latest.extent.extentID = status.plan.extent.extentID with
  | none => .ok status
  | some latest => do
    let pages ← mergedRetryAllocationPages status.plan latest req noEncryptionHeaders
    return { status with plan := { status.plan with
      extent := latest.extent
      chunkSizeBytes := latest.chunkSizeBytes
      allocationPages := pages } }

/-- `Executor.rebaseWritePlanForRetry`. The second argument is the volume state the
rebase adopts, the first the metadata its plan reads. -/
def rebaseWithState (m : Repository) (state : VolumeState) (exec : WriteExecution)
    (req : WriteRequest) : Except Err WriteExecution := do
  let latestPlan ← planRequest m req
  let extents ← exec.extents.mapM (rebaseExtent req latestPlan)
  return { exec with
    metadataEpoch := state.epoch
    metadataRevision := state.revision
    extents := extents }

/-- After a lost race: plans again on the current pages, and keeps the chunk ids and the payload. -/
def rebaseWritePlanForRetry (m : Repository) (exec : WriteExecution) (req : WriteRequest) :
    Except Err WriteExecution :=
  if exec.extents = [] then .ok exec
  else do
    let state ← m.getVolumeState
    rebaseWithState m state exec req

end Namrbd
