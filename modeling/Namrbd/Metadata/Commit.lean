import Namrbd.Metadata.ChunkRanges
import Namrbd.Metadata.Repository

/-!
# Committing write metadata

A commit has a state half (volume revision and idempotency record) and an effects half
(allocation pages, extent mappings, mutation operation). The volume-scoped and
append-only commits do both in one transaction, the range-local commit leaves the
effects to `applyCommittedWriteEffects`, and the page-scoped commit checks page
revisions and replaces whole pages.
-/

namespace Namrbd

/-- What a commit expects of the volume and of the intent, and what it sets. -/
structure CommitWriteStateRequest where
  expectedEpoch : Nat
  expectedRevision : Nat
  idempotencyKey : String
  expectedIdempotencyState : IdempotencyResultState
  committedRevision : Nat
  attachmentID : String
  generation : Nat
  allowMissingWriteIntent : Bool
  deriving DecidableEq

/-- The effects half of a commit. `mutationOperation` is the writer's own copy
of its running operation, if it sends one. -/
structure ApplyCommittedWriteEffectsRequest where
  committedRevision : Nat
  allocationPages : List AllocationPageRecord
  normalizeExtentMappings : List Nat
  mutationOperationID : String
  expectedMutationState : MutationOperationState
  affectedExtentIDs : List Nat
  affectedPageNos : List Nat
  affectedPageChunkRanges : List AllocationPageChunkRangeRecord
  retiredPhysicalChunkIDs : List Nat
  mutationOperation : Option MutationOperationRecord
  deriving DecidableEq

/-- A commit and its effects on the allocation. -/
structure CommitWriteMetadataRequest where
  stateCommitRequest : CommitWriteStateRequest
  effectsApplyRequest : ApplyCommittedWriteEffectsRequest
  deriving DecidableEq

/-! ## Merging a page -/

/-- What a touched chunk becomes: the incoming chunk if it is mapped, zero if
the current chunk is zero or retired by this write, otherwise unchanged. -/
def mergeEntry (retired : List Nat) (current incoming : ChunkEntry) : ChunkEntry :=
  if incoming.physicalChunkID ≠ 0 then incoming
  else if current.physicalChunkID = 0 then .zero
  else if current.physicalChunkID ∈ retired then .zero
  else current

/-- Merges the chunks of a range and leaves the others. -/
def mergeEntriesInRange (retired : List Nat) (incoming current : List ChunkEntry)
    (rng : AllocationPageChunkRangeRecord) : List ChunkEntry :=
  let stop := min rng.endChunk (min current.length incoming.length)
  (List.range' rng.startChunk (stop - rng.startChunk)).foldl
    (fun current i => current.set i
      (mergeEntry retired (current[i]?.getD .zero) (incoming[i]?.getD .zero)))
    current

/-- The ranges of a page that the write reports, checked against the page;
`none` when it reports none for this page. -/
def affectedAllocationPageChunkRanges (records : List AllocationPageChunkRangeRecord)
    (page : AllocationPageRecord) : Except Err (Option (List AllocationPageChunkRangeRecord)) := do
  let records := records.filter fun record => record.pageNo = page.pageNo
  records.forM fun record => do
    if record.endChunk ≤ record.startChunk then
      throw (.other s!"invalid affected page chunk range: page_no={record.pageNo} start_chunk={record.startChunk} end_chunk={record.endChunk}")
    if page.chunksPerPage < record.endChunk then
      throw (.other s!"affected page chunk range out of bounds: page_no={record.pageNo} start_chunk={record.startChunk} end_chunk={record.endChunk} chunks_per_page={page.chunksPerPage}")
  if records = [] then
    return none
  return some (normalizeAllocationPageChunkRanges records)

/-- The part of a page that a mapping covers, if any. -/
def extentPageChunkRange (page : AllocationPageRecord) (mapping : ExtentMappingRecord) :
    Option AllocationPageChunkRangeRecord :=
  let pageStart := page.pageNo * page.pageBytes
  let pageEnd := pageStart + page.pageBytes
  let overlapStart := max mapping.logicalOffset pageStart
  let overlapEnd := min mapping.endOffset pageEnd
  if mapping.endOffset ≤ pageStart ∨ pageEnd ≤ mapping.logicalOffset then none
  else if overlapEnd ≤ overlapStart then none
  else
    let start := (overlapStart - pageStart) / page.chunkSizeBytes
    let stop := min ((overlapEnd - pageStart + page.chunkSizeBytes - 1) / page.chunkSizeBytes)
      page.chunksPerPage
    if start < stop then some { pageNo := page.pageNo, startChunk := start, endChunk := stop }
    else none

namespace Repository

/-- The chunks of a page a commit may change: the reported ranges, else those of
the normalized extents; no range stands for the whole page. -/
def touchedAllocationPageChunkRanges (m : Repository) (req : ApplyCommittedWriteEffectsRequest)
    (page : AllocationPageRecord) : Except Err (List AllocationPageChunkRangeRecord) := do
  if invalidGeometry page.pageBytes page.chunkSizeBytes then
    throw (invalidPageGeometry page)
  match ← affectedAllocationPageChunkRanges req.affectedPageChunkRanges page with
  | some ranges => return ranges
  | none =>
    let mappings ← req.normalizeExtentMappings.mapM m.getExtentMapping
    return normalizeAllocationPageChunkRanges (mappings.filterMap (extentPageChunkRange page))

/-- Merges a page of a commit into the stored page, chunk by chunk, in the ranges that the commit
has touched. The page takes the revision of the commit. -/
def mergeCommittedAllocationPage (m : Repository) (req : ApplyCommittedWriteEffectsRequest)
    (page : AllocationPageRecord) : Except Err AllocationPageRecord := do
  let current := (Table.get? (·.pageNo) page.pageNo m.pages).getD
    (zeroAllocationPage page.pageNo page.pageBytes page.chunkSizeBytes)
  let currentEntries ← expandAllocationChunkMappingsWithHeaders current
  if current.pageBytes ≠ page.pageBytes ∨ current.chunkSizeBytes ≠ page.chunkSizeBytes then
    throw (.other s!"allocation page geometry mismatch: page_no={page.pageNo} current_page_bytes={current.pageBytes} current_chunk_size_bytes={current.chunkSizeBytes} page_bytes={page.pageBytes} chunk_size_bytes={page.chunkSizeBytes}")
  let incomingEntries ← expandAllocationChunkMappingsWithHeaders page
  let ranges ← m.touchedAllocationPageChunkRanges req page
  let ranges := if ranges = [] then
      [{ pageNo := page.pageNo, startChunk := 0, endChunk := incomingEntries.length }]
    else ranges
  let merged := ranges.foldl (mergeEntriesInRange req.retiredPhysicalChunkIDs incomingEntries)
    currentEntries
  return { page with
    revision := req.committedRevision
    extents := compressAllocationChunkMappingsWithHeaders page.startChunk merged }

/-- Merges and stores the pages of a commit in their order. -/
def persistCommittedAllocationPages (m : Repository) (req : ApplyCommittedWriteEffectsRequest) :
    Except Err Repository :=
  req.allocationPages.foldlM
    (fun m page => do
      let merged ← m.mergeCommittedAllocationPage req page
      return m.putAllocationPage merged)
    m

/-- A mapping whose chunks are in pages now owns no ids any more. -/
def normalizeCommittedExtentMappings (m : Repository) (req : ApplyCommittedWriteEffectsRequest) :
    Except Err Repository :=
  req.normalizeExtentMappings.foldlM
    (fun m extentID => do
      let mapping ← m.getExtentMapping extentID
      return m.putExtentMapping { mapping with
        chunkID := 0, revision := max mapping.revision req.committedRevision })
    m

end Repository

/-! ## The mutation operation -/

/-- The operation says that these effects are applied already. -/
def ApplyCommittedWriteEffectsRequest.matchesCommittedMutationOperation
    (req : ApplyCommittedWriteEffectsRequest) (operation : MutationOperationRecord) : Bool :=
  operation.state == .committed &&
    operation.allocationRevision == req.committedRevision &&
    operation.affectedExtentIDs == req.affectedExtentIDs &&
    operation.affectedPageNos == req.affectedPageNos &&
    operation.retiredPhysicalChunkIDs == req.retiredPhysicalChunkIDs

/-- The operation of a commit, and whether its effects are applied. -/
structure CommittedWriteMutationSnapshot where
  operation : MutationOperationRecord
  committed : Bool
  deriving DecidableEq

/-- The writer's own copy of the operation, used in place of a read when it fits. -/
def committedWriteMutationSnapshotFromRequest (req : ApplyCommittedWriteEffectsRequest) :
    Option CommittedWriteMutationSnapshot :=
  match req.mutationOperation with
  | none => none
  | some operation =>
    let committed := req.matchesCommittedMutationOperation operation
    if operation.operationID ≠ req.mutationOperationID then none
    else if operation.state ≠ req.expectedMutationState ∧ committed = false then none
    else some { operation, committed }

namespace Repository

variable (m : Repository) (req : ApplyCommittedWriteEffectsRequest)

/-- `none` when the commit names no operation or no such operation is stored. -/
def readCommittedWriteMutationSnapshot : Option CommittedWriteMutationSnapshot :=
  if req.mutationOperationID = "" then none
  else
    match committedWriteMutationSnapshotFromRequest req with
    | some snapshot => some snapshot
    | none =>
      (Table.get? (·.operationID) req.mutationOperationID m.operations).map fun operation =>
        { operation, committed := req.matchesCommittedMutationOperation operation }

/-- Marks the operation as committed. -/
def finalizeWriteMutationOperationFromSnapshot (mutation : Option CommittedWriteMutationSnapshot) :
    Except Err Repository :=
  if req.mutationOperationID = "" then .ok m
  else
    match mutation with
    | none => .error .notFound
    | some mutation =>
      if mutation.committed then .ok m
      else if mutation.operation.state ≠ req.expectedMutationState then .error .casConflict
      else .ok (m.putMutationOperation { mutation.operation with
        state := .committed
        allocationRevision := req.committedRevision
        affectedExtentIDs := req.affectedExtentIDs
        affectedPageNos := req.affectedPageNos
        retiredPhysicalChunkIDs := req.retiredPhysicalChunkIDs })

def finalizeWriteMutationOperation : Except Err Repository :=
  m.finalizeWriteMutationOperationFromSnapshot req (m.readCommittedWriteMutationSnapshot req)

/-! ## The state half -/

/-- The checks of a volume-scoped commit: epoch, revision and intent. -/
def readAndValidateWriteCommitState (req : CommitWriteStateRequest) :
    Except Err (VolumeState × IdempotencyRecord) := do
  let state ← m.getVolumeState
  if state.epoch ≠ req.expectedEpoch ∨ state.revision ≠ req.expectedRevision then
    throw .casConflict
  let record ← m.getIdempotencyRecord req.idempotencyKey
  if record.resultState ≠ req.expectedIdempotencyState then
    throw .casConflict
  return ({ state with revision := req.committedRevision },
    { record with revision := req.committedRevision, resultState := .committed })

/-- The checks of a page-scoped commit, which leaves the volume's revision alone. -/
def readAndValidatePageScopedWriteCommitState (req : CommitWriteStateRequest) :
    Except Err (VolumeState × IdempotencyRecord) := do
  let state ← m.getVolumeState
  if state.epoch ≠ req.expectedEpoch then
    throw .casConflict
  let record ← m.getIdempotencyRecord req.idempotencyKey
  if record.resultState ≠ req.expectedIdempotencyState then
    throw .casConflict
  return (state, record)

/-- Check epoch and intent of an append-only commit, which may make up a missing
intent. -/
def readAndValidateAppendOnlyWriteCommitState (req : CommitWriteStateRequest) :
    Except Err (VolumeState × IdempotencyRecord) := do
  let state ← m.getVolumeState
  match Table.get? (·.idempotencyKey) req.idempotencyKey m.idempotency with
  | some record =>
    if state.epoch ≠ req.expectedEpoch then
      throw .casConflict
    if record.resultState ≠ req.expectedIdempotencyState then
      throw .casConflict
    return (state, record)
  | none =>
    if req.allowMissingWriteIntent = false then
      throw .notFound
    if req.expectedIdempotencyState ≠ .pending then
      throw .casConflict
    if state.epoch ≠ req.expectedEpoch then
      throw .casConflict
    return (state,
      { idempotencyKey := req.idempotencyKey
        attachmentID := req.attachmentID
        generation := req.generation
        epoch := state.epoch
        revision := state.revision
        operation := "write"
        resultState := .pending })

/-- The same check in a batch, which reads all its records at once. The conflict with a
stored intent goes to a shadowed error and is lost: the request passes with empty
records, of no volume. -/
def readAndValidateAppendOnlyWriteCommitSnapshot (req : CommitWriteStateRequest) :
    Except Err (Option (VolumeState × IdempotencyRecord)) := do
  let state ← m.getVolumeState
  match Table.get? (·.idempotencyKey) req.idempotencyKey m.idempotency with
  | some record =>
    if state.epoch ≠ req.expectedEpoch ∨ record.resultState ≠ req.expectedIdempotencyState then
      return none
    return some (state, record)
  | none => some <$> m.readAndValidateAppendOnlyWriteCommitState req

/-- Stores what the checks have returned. -/
def persistCommittedWriteState (state : VolumeState) (record : IdempotencyRecord) : Repository :=
  { m with volume := some state }.putIdempotencyRecord record

def commitWriteState (req : CommitWriteStateRequest) :
    Except Err (IdempotencyRecord × Repository) := do
  let (state, record) ← m.readAndValidateWriteCommitState req
  return (record, m.persistCommittedWriteState state record)

/-! ## Bootstrap of a volume without native pages -/

/-- The pages that are made of the mappings when the first page is stored, and the mappings that
hand over their ids. -/
def prepareLegacyAllocationBootstrap (pages : List AllocationPageRecord) :
    Except Err (List AllocationPageRecord × List Nat) :=
  match pages with
  | [] => .ok ([], [])
  | first :: _ =>
    if m.pages ≠ [] then .ok ([], [])
    else if invalidGeometry first.pageBytes first.chunkSizeBytes then
      .error (.other s!"invalid allocation geometry for legacy bootstrap: page_bytes={first.pageBytes} chunk_size_bytes={first.chunkSizeBytes}")
    else do
      let bootstrap ← m.listCompatibleAllocationPages first.pageBytes first.chunkSizeBytes
      return (bootstrap, m.extents.map (·.extentID))

/-- A page of the overlay replaces the one of the base. -/
def mergeAllocationPagesByPageNo (base overlay : List AllocationPageRecord) :
    List AllocationPageRecord :=
  Table.putAll (·.pageNo) overlay (Table.putAll (·.pageNo) base [])

def mergeExtentIDs (base overlay : List Nat) : List Nat :=
  Table.putAll id overlay (Table.putAll id base [])

/-- Read before the transaction of a commit, which gets the result as it is. -/
def withLegacyBootstrap : Except Err ApplyCommittedWriteEffectsRequest := do
  let (bootstrapPages, bootstrapExtentIDs) ←
    m.prepareLegacyAllocationBootstrap req.allocationPages
  return { req with
    allocationPages := mergeAllocationPagesByPageNo bootstrapPages req.allocationPages
    normalizeExtentMappings := mergeExtentIDs bootstrapExtentIDs req.normalizeExtentMappings }

/-! ## The commits -/

/-- The transaction of a volume-scoped commit, with effects that hold the bootstrap. -/
def commitWriteMetadataWithStore (req : CommitWriteMetadataRequest)
    (effects : ApplyCommittedWriteEffectsRequest) :
    Except Err (IdempotencyRecord × Repository) := do
  let (state, record) ← m.readAndValidateWriteCommitState req.stateCommitRequest
  let m := m.persistCommittedWriteState state record
  let m ← m.persistCommittedAllocationPages effects
  let m ← m.normalizeCommittedExtentMappings effects
  let m ← m.finalizeWriteMutationOperation effects
  return (record, m)

/-- A volume-scoped commit. The bootstrap is read before the transaction. -/
def commitWriteMetadata (req : CommitWriteMetadataRequest) :
    Except Err (IdempotencyRecord × Repository) := do
  m.commitWriteMetadataWithStore req (← m.withLegacyBootstrap req.effectsApplyRequest)

/-- The transaction that applies effects, unless their operation is committed. -/
def applyCommittedWriteEffectsWithStore : Except Err Repository := do
  let mutation := m.readCommittedWriteMutationSnapshot req
  if mutation.any (·.committed) then
    return m
  let m ← m.persistCommittedAllocationPages req
  let m ← m.normalizeCommittedExtentMappings req
  m.finalizeWriteMutationOperationFromSnapshot req mutation

def applyCommittedWriteEffects : Except Err Repository := do
  m.applyCommittedWriteEffectsWithStore (← m.withLegacyBootstrap req)

/-- Check that no page moved since it was read, and give each its next revision. -/
def preparePageScopedCommittedAllocationPages (pages : List AllocationPageRecord) :
    Except Err (List AllocationPageRecord) :=
  pages.mapM fun page =>
    let current := (Table.get? (·.pageNo) page.pageNo m.pages).getD
      (zeroAllocationPage page.pageNo page.pageBytes page.chunkSizeBytes)
    if current.pageBytes ≠ page.pageBytes ∨ current.chunkSizeBytes ≠ page.chunkSizeBytes then
      .error .casConflict
    else if current.revision ≠ page.revision then .error .casConflict
    else .ok { page with revision := current.revision + 1 }

/-- The transaction of a page-scoped commit, which replaces whole pages under their revisions. -/
def commitPageScopedWriteMetadataWithStore (req : CommitWriteMetadataRequest)
    (effects : ApplyCommittedWriteEffectsRequest) :
    Except Err (IdempotencyRecord × Repository) := do
  if effects.allocationPages = [] then
    throw (.other "page-scoped write commit requires allocation pages")
  let (_, record) ← m.readAndValidatePageScopedWriteCommitState req.stateCommitRequest
  let pages ← m.preparePageScopedCommittedAllocationPages effects.allocationPages
  let maxRevision := (pages.map (·.revision)).foldl max 0
  let committedRevision :=
    if maxRevision = 0 then req.stateCommitRequest.committedRevision else maxRevision
  let record := { record with revision := committedRevision, resultState := .committed }
  let m := m.putIdempotencyRecord record
  let effects := { effects with committedRevision := committedRevision, allocationPages := pages }
  let m := { m with pages := Table.putAll (·.pageNo) pages m.pages }
  let m ← m.normalizeCommittedExtentMappings effects
  let m ← m.finalizeWriteMutationOperation effects
  return (record, m)

def commitPageScopedWriteMetadata (req : CommitWriteMetadataRequest) :
    Except Err (IdempotencyRecord × Repository) := do
  m.commitPageScopedWriteMetadataWithStore req (← m.withLegacyBootstrap req.effectsApplyRequest)

/-- The next value of a page's write-state counter, which starts at the page's revision. -/
def nextRangeLocalRevision (page : AllocationPageRecord) : Nat :=
  ((Table.get? (·.pageNo) page.pageNo m.rangeLocalWriteStates).map (·.revision)).getD
    page.revision + 1

/-- Advance the write-state counter of every page; the result is the largest. -/
def advanceRangeLocalWriteState (idempotencyKey : String) (pages : List AllocationPageRecord) :
    Nat × Repository :=
  pages.foldl
    (fun (maxRevision, m) page =>
      let revision := m.nextRangeLocalRevision page
      let next : RangeLocalWriteStateRecord := ⟨page.pageNo, revision, idempotencyKey⟩
      (max maxRevision revision,
        { m with rangeLocalWriteStates := Table.put (·.pageNo) next m.rangeLocalWriteStates }))
    (0, m)

/-- The transaction of a range-local commit. It counts up the touched pages and stores no page. -/
def commitRangeLocalWriteStateWithStore (req : CommitWriteMetadataRequest)
    (effects : ApplyCommittedWriteEffectsRequest) :
    Except Err (IdempotencyRecord × Repository) := do
  if effects.allocationPages = [] then
    throw (.other "range-local write state commit requires allocation pages")
  let (_, record) ← m.readAndValidatePageScopedWriteCommitState req.stateCommitRequest
  let (committedRevision, m) :=
    m.advanceRangeLocalWriteState req.stateCommitRequest.idempotencyKey effects.allocationPages
  let record := { record with revision := committedRevision, resultState := .committed }
  return (record, m.putIdempotencyRecord record)

def commitRangeLocalWriteState (req : CommitWriteMetadataRequest) :
    Except Err (IdempotencyRecord × Repository) := do
  m.commitRangeLocalWriteStateWithStore req (← m.withLegacyBootstrap req.effectsApplyRequest)

/-- The next append-only revision: the clock, but never below the floor or the
last one handed out. -/
def nextAppendOnlyWriteRevision (now floor : Nat) : Nat :=
  let next := max now floor
  if next ≤ m.lastAppendOnlyRevision then m.lastAppendOnlyRevision + 1 else next

/-- Commits the intent under the next append-only revision. -/
def writeAppendOnlyRecord (now floor : Nat) (record : IdempotencyRecord) :
    IdempotencyRecord × Repository :=
  let revision := m.nextAppendOnlyWriteRevision now floor
  let record := { record with revision := revision, resultState := .committed }
  (record, { m with lastAppendOnlyRevision := revision }.putIdempotencyRecord record)

/-- Publish what a batch has checked. An empty record is stored under the empty volume id,
outside this volume. -/
def writeAppendOnlySnapshot (now floor : Nat) :
    Option (VolumeState × IdempotencyRecord) → IdempotencyRecord × Repository
  | some (_, record) => m.writeAppendOnlyRecord now floor record
  | none =>
    let revision := m.nextAppendOnlyWriteRevision now floor
    ({ idempotencyKey := "", attachmentID := "", generation := 0, epoch := 0, revision := revision
       operation := "", resultState := .committed }, { m with lastAppendOnlyRevision := revision })

/-- One transaction that commits the state half, a batch of one, and applies the effects. -/
def commitAppendOnlyWriteMetadataBatchWithStore (now : Nat) (req : CommitWriteMetadataRequest)
    (effects : ApplyCommittedWriteEffectsRequest) :
    Except Err (IdempotencyRecord × Repository) := do
  let snapshot ← m.readAndValidateAppendOnlyWriteCommitSnapshot req.stateCommitRequest
  let (record, m) :=
    m.writeAppendOnlySnapshot now req.stateCommitRequest.committedRevision snapshot
  let effects := { effects with
    committedRevision := if record.revision ≠ 0 then record.revision else effects.committedRevision }
  let mutation := m.readCommittedWriteMutationSnapshot effects
  if mutation.any (·.committed) then
    return (record, m)
  let m ← m.persistCommittedAllocationPages effects
  let m ← m.normalizeCommittedExtentMappings effects
  let m ← m.finalizeWriteMutationOperationFromSnapshot effects mutation
  return (record, m)

/-- An append-only commit with its effects. -/
def commitAppendOnlyWriteStateAndQueueEffects (now : Nat) (req : CommitWriteMetadataRequest) :
    Except Err (IdempotencyRecord × Repository) := do
  m.commitAppendOnlyWriteMetadataBatchWithStore now req
    (← m.withLegacyBootstrap req.effectsApplyRequest)

end Repository

/-! ## Primary failover -/

/-- The replica set of a failover, and what is expected of it and of the volume. -/
structure CommitPrimaryFailoverRequest where
  replicaSetID : String
  expectedVolumeEpoch : Nat
  expectedReplicaSetEpoch : Nat
  expectedPrimaryReplicaID : String
  newPrimaryReplicaID : String
  deriving DecidableEq

/-- The replica set with the new primary, its roles and its next epoch. -/
def applyPrimaryFailover (replicaSet : ReplicaSetState) (req : CommitPrimaryFailoverRequest) :
    ReplicaSetState :=
  { replicaSet with
    epoch := replicaSet.epoch + 1
    primaryReplicaID := req.newPrimaryReplicaID
    replicas := replicaSet.replicas.map fun replica =>
      if replica.replicaID = req.newPrimaryReplicaID then { replica with role := .primary }
      else if replica.replicaID = req.expectedPrimaryReplicaID then
        { replica with role := .secondary }
      else replica }

/-- Moves the primary under a new epoch, unless the epochs or the primary have changed. -/
def Repository.commitPrimaryFailover (m : Repository) (req : CommitPrimaryFailoverRequest) :
    Except Err Repository := do
  let state ← m.getVolumeState
  if state.epoch ≠ req.expectedVolumeEpoch then
    throw .casConflict
  let replicaSet ← m.getReplicaSet req.replicaSetID
  if replicaSet.epoch ≠ req.expectedReplicaSetEpoch ∨
      replicaSet.primaryReplicaID ≠ req.expectedPrimaryReplicaID then
    throw .casConflict
  if replicaSet.replicas.all fun replica => replica.replicaID ≠ req.newPrimaryReplicaID then
    throw (.other s!"new primary replica \"{req.newPrimaryReplicaID}\" not found in replica set")
  let state := { state with epoch := state.epoch + 1 }
  return { m with volume := some state }.putReplicaSet (applyPrimaryFailover replicaSet req)

end Namrbd
