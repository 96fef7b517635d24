import Namrbd.Metadata.Commit

/-!
# Batched commits

A batch reads every mutation operation first, merges the pages of all its requests page
by page, and then normalizes and finalizes request after request. A batch that names an
operation twice is committed request by request.

`RepositoryClient` is a repository value: the store, its options, and whether it has
met native pages of the volume, which lets a commit skip normalized extent mappings.
-/

namespace Namrbd

structure CommittedAllocationPageBatchUpdate where
  req : ApplyCommittedWriteEffectsRequest
  page : AllocationPageRecord

/-- A request of a batch whose operation is not committed yet. -/
structure CommittedWriteEffectsBatchItem where
  req : ApplyCommittedWriteEffectsRequest
  mutation : Option CommittedWriteMutationSnapshot

namespace Repository

/-! ## Merging the pages of a batch -/

variable (m : Repository)

/-- Merges one page of a batch into the chunks that the updates before it have left. -/
def mergeCommittedAllocationPageUpdateIntoChunks (currentEntries : List ChunkEntry)
    (current : AllocationPageRecord) (req : ApplyCommittedWriteEffectsRequest)
    (page : AllocationPageRecord) : Except Err (List ChunkEntry × AllocationPageRecord) := do
  if current.pageBytes ≠ page.pageBytes ∨ current.chunkSizeBytes ≠ page.chunkSizeBytes then
    throw (.other s!"allocation page geometry mismatch: page_no={page.pageNo} current_page_bytes={current.pageBytes} current_chunk_size_bytes={current.chunkSizeBytes} page_bytes={page.pageBytes} chunk_size_bytes={page.chunkSizeBytes}")
  let incomingEntries ← expandAllocationChunkMappingsWithHeaders page
  let ranges ← m.touchedAllocationPageChunkRanges req page
  let ranges := if ranges = [] then
      [{ pageNo := page.pageNo, startChunk := 0, endChunk := incomingEntries.length }]
    else ranges
  let merged := ranges.foldl (mergeEntriesInRange req.retiredPhysicalChunkIDs incomingEntries)
    currentEntries
  return (merged, { page with
    revision := req.committedRevision
    extents := compressAllocationChunkMappingsWithHeaders page.startChunk merged })

/-- Merges all updates of one page and compresses once. -/
def mergeCommittedAllocationPageBatch (first : CommittedAllocationPageBatchUpdate)
    (rest : List CommittedAllocationPageBatchUpdate) : Except Err AllocationPageRecord := do
  let current := (Table.get? (·.pageNo) first.page.pageNo m.pages).getD
    (zeroAllocationPage first.page.pageNo first.page.pageBytes first.page.chunkSizeBytes)
  let currentEntries ← expandAllocationChunkMappingsWithHeaders current
  let (currentEntries, finalPage) ← (first :: rest).foldlM
    (fun (currentEntries, current) update =>
      m.mergeCommittedAllocationPageUpdateIntoChunks currentEntries current update.req update.page)
    (currentEntries, current)
  return { finalPage with
    extents := compressAllocationChunkMappingsWithHeaders finalPage.startChunk currentEntries }

def batchUpdates (items : List CommittedWriteEffectsBatchItem) :
    List CommittedAllocationPageBatchUpdate :=
  items.flatMap fun item => item.req.allocationPages.map fun page => { req := item.req, page }

/-- The updates of a batch, grouped by page. -/
def persistCommittedAllocationPagesForBatch (items : List CommittedWriteEffectsBatchItem) :
    Except Err Repository :=
  (Result.groups (fun update => update.page.pageNo) (batchUpdates items)).foldlM
    (fun m updates =>
      match updates with
      | [] => .ok m
      | first :: rest => do
        let finalPage ← m.mergeCommittedAllocationPageBatch first rest
        return m.putAllocationPage finalPage)
    m

/-- With the fast path an extent that is normalized already is left as it is. -/
def normalizeCommittedExtentMappingsWith (fastPath : Bool) (m : Repository)
    (req : ApplyCommittedWriteEffectsRequest) : Except Err Repository :=
  req.normalizeExtentMappings.foldlM
    (fun m extentID => do
      let mapping ← m.getExtentMapping extentID
      if fastPath && mapping.chunkID == 0 then
        return m
      return m.putExtentMapping { mapping with
        chunkID := 0, revision := max mapping.revision req.committedRevision })
    m

/-! ## The state half of an append-only commit -/

/-- An append-only commit of the state alone. -/
def commitAppendOnlyWriteState (now : Nat) (req : CommitWriteStateRequest) :
    Except Err (IdempotencyRecord × Repository) := do
  let (_, record) ← m.readAndValidateAppendOnlyWriteCommitState req
  return m.writeAppendOnlyRecord now req.committedRevision record

/-- The check of a batch, without and with a `kvBatchReader` store. -/
def readAndValidateAppendOnlyWriteCommitStatesBatch (batchReader : Bool)
    (volumes : String → Repository) (reqs : List (String × CommitWriteStateRequest)) :
    Except Err (List (Option (VolumeState × IdempotencyRecord))) :=
  reqs.mapM fun (volumeID, req) =>
    if batchReader then (volumes volumeID).readAndValidateAppendOnlyWriteCommitSnapshot req
    else some <$> (volumes volumeID).readAndValidateAppendOnlyWriteCommitState req

/-- Check and commit request after request, with what each check has given. -/
def commitAppendOnlyWriteStatesInTurn (volumes : String → Repository)
    (reqs : List (Nat × String × CommitWriteStateRequest)) :
    Except Err (List (VolumeState × IdempotencyRecord) × (String → Repository)) :=
  Result.mapAccumM
    (fun volumes (now, volumeID, req) => do
      let m := volumes volumeID
      let checked ← m.readAndValidateAppendOnlyWriteCommitState req
      let (_, m) ← m.commitAppendOnlyWriteState now req
      return (checked, Function.update volumes volumeID m))
    volumes reqs

end Repository

/-! ## Batches of effects -/

/-- A repository value. `asyncFinalizeReqs` are the finalizations it has left to the
background. -/
structure RepositoryClient where
  store : Repository
  nativeAllocationFastPath : Bool := false
  asyncWriteMutationFinalize : Bool := false
  observedNativeAllocation : Bool := false
  asyncFinalizeReqs : List ApplyCommittedWriteEffectsRequest := []

/-- Some operation is named twice; commits without an operation do not count. -/
def hasDuplicateMutationOperationIDs (reqs : List ApplyCommittedWriteEffectsRequest) : Bool :=
  ¬ ((reqs.map (·.mutationOperationID)).filter (· ≠ "")).Nodup

/-- The check that stands in for a finalization left to the background. -/
def validateWriteMutationSnapshotForFinalize (req : ApplyCommittedWriteEffectsRequest)
    (mutation : Option CommittedWriteMutationSnapshot) : Except Err Unit :=
  if req.mutationOperationID = "" then .ok ()
  else
    match mutation with
    | none => .error .notFound
    | some mutation =>
      if mutation.committed then .ok ()
      else if mutation.operation.state ≠ req.expectedMutationState then .error .casConflict
      else .ok ()

namespace RepositoryClient

variable (r : RepositoryClient)

def canUseNativeAllocationFastPath : Bool :=
  r.nativeAllocationFastPath && r.observedNativeAllocation

/-- A client that has seen a page does not look for the bootstrap again. -/
def rememberNativeAllocation (pages : List AllocationPageRecord) : RepositoryClient :=
  { r with observedNativeAllocation := r.observedNativeAllocation || !pages.isEmpty }

/-- As for the repository, with what the client has observed. -/
def prepareLegacyAllocationBootstrap (pages : List AllocationPageRecord) :
    Except Err ((List AllocationPageRecord × List Nat) × RepositoryClient) :=
  if pages = [] then .ok (([], []), r)
  else if r.observedNativeAllocation then .ok (([], []), r)
  else if r.store.pages ≠ [] then .ok (([], []), { r with observedNativeAllocation := true })
  else do
    let bootstrap ← r.store.prepareLegacyAllocationBootstrap pages
    return (bootstrap, r)

def withLegacyBootstrap (req : ApplyCommittedWriteEffectsRequest) :
    Except Err (ApplyCommittedWriteEffectsRequest × RepositoryClient) := do
  let ((bootstrapPages, bootstrapExtentIDs), r) ←
    r.prepareLegacyAllocationBootstrap req.allocationPages
  return ({ req with
    allocationPages :=
      Repository.mergeAllocationPagesByPageNo bootstrapPages req.allocationPages
    normalizeExtentMappings :=
      Repository.mergeExtentIDs bootstrapExtentIDs req.normalizeExtentMappings }, r)

def applyCommittedWriteEffectsWithStore (req : ApplyCommittedWriteEffectsRequest) :
    Except Err RepositoryClient := do
  let mutation := r.store.readCommittedWriteMutationSnapshot req
  if mutation.any (·.committed) then
    return r
  let store ← r.store.persistCommittedAllocationPages req
  let r := r.rememberNativeAllocation req.allocationPages
  let store ← store.normalizeCommittedExtentMappingsWith r.canUseNativeAllocationFastPath req
  let store ← store.finalizeWriteMutationOperationFromSnapshot req mutation
  return { r with store }

def applyCommittedWriteEffects (req : ApplyCommittedWriteEffectsRequest) :
    Except Err RepositoryClient := do
  let (req, r) ← r.withLegacyBootstrap req
  r.applyCommittedWriteEffectsWithStore req

variable (reqs : List ApplyCommittedWriteEffectsRequest)

/-- The requests whose effects are not applied yet. -/
def activeItems : List CommittedWriteEffectsBatchItem :=
  reqs.filterMap fun req =>
    let mutation := r.store.readCommittedWriteMutationSnapshot req
    if mutation.any (·.committed) then none else some { req, mutation }

/-- The extent mappings and the operation of one request, after the pages of the batch. -/
def finishBatchItem (item : CommittedWriteEffectsBatchItem) : Except Err RepositoryClient := do
  let store ←
    r.store.normalizeCommittedExtentMappingsWith r.canUseNativeAllocationFastPath item.req
  if r.asyncWriteMutationFinalize then
    validateWriteMutationSnapshotForFinalize item.req item.mutation
    if item.req.mutationOperationID ≠ "" then
      return { r with store, asyncFinalizeReqs := r.asyncFinalizeReqs ++ [item.req] }
    return { r with store }
  let store ← store.finalizeWriteMutationOperationFromSnapshot item.req item.mutation
  return { r with store }

/-- The transaction of a batch. Requests of one operation are applied one after the other. -/
def applyCommittedWriteEffectsBatchWithStore : Except Err RepositoryClient := do
  if hasDuplicateMutationOperationIDs reqs then
    reqs.foldlM applyCommittedWriteEffectsWithStore r
  else
    let active := r.activeItems reqs
    let store ← r.store.persistCommittedAllocationPagesForBatch active
    let r := { r with store }.rememberNativeAllocation
      (active.flatMap fun (item : CommittedWriteEffectsBatchItem) => item.req.allocationPages)
    active.foldlM finishBatchItem r

/-- A batch. Each request gets its bootstrap before the transaction. -/
def applyCommittedWriteEffectsBatch : Except Err RepositoryClient := do
  let (prepared, r) ← Result.mapAccumM withLegacyBootstrap r reqs
  r.applyCommittedWriteEffectsBatchWithStore prepared

end RepositoryClient

end Namrbd
