import Namrbd.Lib.Process
import Namrbd.Replication.WriteService

/-!
# The payload garbage collector

`sweepVolume` takes its targets from the volume's pending payload GC operation, scans
the roots (live pages, captured snapshot pages, clone deltas), lists candidate objects
batch by batch and replica by replica, and deletes those the scan did not find. Every
read of the metadata, listing and deletion is an access of its own and may fail.
-/

namespace Namrbd

/-- The key of a payload object. Keys of other forms are no candidates and left out. -/
structure PayloadKey where
  replicaID : String
  volumeID : String
  extentID : Nat
  chunkID : Nat
  deriving DecidableEq

/-- The accesses of the collector to the metadata and to the object stores. -/
inductive GCAccess where
  | getVolumeState
  | getMutationOperation (operationID : String)
  | putMutationOperation (record : MutationOperationRecord)
  | listMutationOperations
  | listExtentMappings
  | listAllocationPages
  | listSnapshotRecords
  | listSnapshotAllocationPages (snapshotID : String)
  | listCloneRecords
  | listCloneDeltaAllocationPages (cloneID : String)
  | listObjects (replicaID volumeID : String)
  | hasObject (key : PayloadKey)
  | deleteObject (key : PayloadKey)
  deriving DecidableEq

/-- What an access returns when it does not fail. -/
abbrev GCAccess.Value : GCAccess → Type
  | .getVolumeState => VolumeState
  | .getMutationOperation _ => MutationOperationRecord
  | .putMutationOperation _ => Unit
  | .listMutationOperations => List MutationOperationRecord
  | .listExtentMappings => List ExtentMappingRecord
  | .listAllocationPages => List AllocationPageRecord
  | .listSnapshotRecords => List SnapshotRecord
  | .listSnapshotAllocationPages _ => List AllocationPageRecord
  | .listCloneRecords => List CloneRecord
  | .listCloneDeltaAllocationPages _ => List AllocationPageRecord
  | .listObjects _ _ => List PayloadKey
  | .hasObject _ => Bool
  | .deleteObject _ => Unit

abbrev GCProcess := Process GCAccess fun act => Except Err act.Value

/-- A part of the sweep: its accesses, and an error that ends it. -/
abbrev GC := ExceptT Err GCProcess

def GC.access (act : GCAccess) : GC act.Value := ExceptT.mk (Process.call act)

/-- An access whose error the sweep looks at. -/
def GC.attempt (act : GCAccess) : GCProcess (Except Err act.Value) := Process.call act

/-! ## Mutation operations -/

variable (volumeID : String)

def payloadGCMutationOperationID : String := "payload-gc-" ++ volumeID

/-- `%06d`. -/
def padded6 (n : Nat) : String :=
  let digits := toString n
  String.ofList (List.replicate (6 - digits.length) '0') ++ digits

def payloadGCBatchMutationOperationID (batchIndex : Nat) : String :=
  payloadGCMutationOperationID volumeID ++ "-batch-" ++ padded6 batchIndex

def payloadGCBatchIndex (operationID : String) : Option Nat :=
  let base := payloadGCMutationOperationID volumeID ++ "-batch-"
  if base.toList.isPrefixOf operationID.toList then
    (String.ofList (operationID.toList.drop base.length)).toNat?
  else none

/-- A read, changed and put operation; `none` when it is not tracked. -/
def trackOperation (record : MutationOperationRecord) :
    GCProcess (Option MutationOperationRecord) := do
  match ← GC.attempt (.putMutationOperation record) with
  | .error _ => return none
  | .ok () => return some record

/-- The volume's payload GC operation, set running; `none` when it can not be tracked. -/
def beginSweepMutationOperation : GCProcess (Option MutationOperationRecord) := do
  match ← GC.attempt .getVolumeState with
  | .error _ => return none
  | .ok state =>
    let operationID := payloadGCMutationOperationID volumeID
    match ← GC.attempt (.getMutationOperation operationID) with
    | .ok operation =>
      trackOperation { operation with
        operationID := operationID
        kind := "payload_gc"
        state := .running
        allocationRevision := state.revision
        writerFencingEpoch := state.epoch
        idempotencyKey := volumeID
        errorMessage := "" }
    | .error .notFound =>
      trackOperation {
        operationID := operationID
        kind := "payload_gc"
        state := .running
        allocationRevision := state.revision
        writerFencingEpoch := state.epoch
        idempotencyKey := volumeID }
    | .error _ => return none

variable (operation : Option MutationOperationRecord)

/-- Record the failure of a tracked operation; an error of the put is dropped. -/
def failOperation (err : Err) : GCProcess Unit := do
  match operation with
  | none => return ()
  | some operation =>
    let _ ← GC.attempt (.putMutationOperation
      { operation with state := .failed, errorMessage := err.message })
    return ()

/-- `EnsurePendingPayloadGCMutationOperation`: add retired chunks to the volume's payload GC
operation. The lists of an operation that is neither pending nor running are replaced. -/
def ensurePendingPayloadGCMutationOperation
    (affectedExtentIDs affectedPageNos retiredPhysicalChunkIDs : List Nat) : GC Unit := do
  let affectedExtentIDs := uniqueSortedUint64s affectedExtentIDs
  let affectedPageNos := Table.putAll id affectedPageNos []
  let retiredPhysicalChunkIDs := uniqueSortedUint64s retiredPhysicalChunkIDs
  if retiredPhysicalChunkIDs = [] then
    return ()
  let state ← GC.access .getVolumeState
  let operationID := payloadGCMutationOperationID volumeID
  match ← ExceptT.lift (GC.attempt (.getMutationOperation operationID)) with
  | .ok operation =>
    let operation := { operation with
      operationID := operationID
      kind := "payload_gc"
      allocationRevision := state.revision
      writerFencingEpoch := state.epoch
      idempotencyKey := volumeID }
    if operation.state = .pending ∨ operation.state = .running then
      GC.access (.putMutationOperation { operation with
        affectedExtentIDs :=
          uniqueSortedUint64s (operation.affectedExtentIDs ++ affectedExtentIDs)
        affectedPageNos := Table.putAll id (operation.affectedPageNos ++ affectedPageNos) []
        retiredPhysicalChunkIDs :=
          uniqueSortedUint64s (operation.retiredPhysicalChunkIDs ++ retiredPhysicalChunkIDs) })
    else
      GC.access (.putMutationOperation { operation with
        state := .pending
        errorMessage := ""
        affectedExtentIDs := affectedExtentIDs
        affectedPageNos := affectedPageNos
        retiredPhysicalChunkIDs := retiredPhysicalChunkIDs })
  | .error .notFound =>
    GC.access (.putMutationOperation {
      operationID := operationID
      kind := "payload_gc"
      state := .pending
      allocationRevision := state.revision
      writerFencingEpoch := state.epoch
      idempotencyKey := volumeID
      affectedExtentIDs := affectedExtentIDs
      affectedPageNos := affectedPageNos
      retiredPhysicalChunkIDs := retiredPhysicalChunkIDs })
  | .error err => throw err

/-! ## Targets -/

/-- The extents that the target pages reach into. -/
def targetExtentIDsFromPages (mappings : List ExtentMappingRecord)
    (pages : List AllocationPageRecord) (targetPageNos : List Nat) : List Nat :=
  match pages with
  | [] => []
  | first :: _ =>
    if first.pageBytes = 0 ∨ first.chunkSizeBytes = 0 then []
    else
      let chunksPerPage := first.pageBytes / first.chunkSizeBytes
      if chunksPerPage = 0 then []
      else
        Table.putAll id ((mappings.filter fun mapping =>
          let startChunk := mapping.logicalOffset / first.chunkSizeBytes
          let endChunk := (mapping.logicalOffset + mapping.lengthBytes - 1) / first.chunkSizeBytes
          let startPage := startChunk / chunksPerPage
          let endPage := endChunk / chunksPerPage
          decide (mapping.lengthBytes ≠ 0) &&
            (List.range' startPage (endPage + 1 - startPage)).any fun pageNo =>
              decide (pageNo ∈ targetPageNos)).map (·.extentID)) []

/-- The extents of the pending operation, or those of its pages. None of them means all. -/
def sweepTargetExtentIDs : GC (List Nat) := do
  let targetExtentIDs := uniqueSortedUint64s ((operation.map (·.affectedExtentIDs)).getD [])
  let targetPageNos := (operation.map (·.affectedPageNos)).getD []
  if targetExtentIDs = [] ∧ targetPageNos ≠ [] then
    let mappings ← GC.access .listExtentMappings
    let pages ← GC.access .listAllocationPages
    return targetExtentIDsFromPages mappings pages targetPageNos
  return targetExtentIDs

/-! ## The reference scan -/

def isTarget (targetExtentIDs : List Nat) (extentID : Nat) : Bool :=
  targetExtentIDs.isEmpty || decide (extentID ∈ targetExtentIDs)

/-- All pages of a root have the geometry of the first one. -/
def checkUniformGeometry (pages : List AllocationPageRecord) : Except Err Unit :=
  match pages with
  | [] => .ok ()
  | first :: _ => pages.forM fun page =>
    if invalidGeometry page.pageBytes page.chunkSizeBytes then .error (invalidPageGeometry page)
    else if page.pageBytes ≠ first.pageBytes ∨ page.chunkSizeBytes ≠ first.chunkSizeBytes then
      .error (.other s!"mixed allocation page geometry: page_no={page.pageNo} page_bytes={page.pageBytes} chunk_size_bytes={page.chunkSizeBytes} expected_page_bytes={first.pageBytes} expected_chunk_size_bytes={first.chunkSizeBytes}")
    else .ok ()

def resolvedAllocationPagesFromRecords (pages : List AllocationPageRecord) :
    Except Err (List ResolvedAllocationPage) := do
  checkUniformGeometry pages
  return (pages.map fun page =>
    { page := page
      rangeStartChunk := page.startChunk
      rangeEndChunk := page.startChunk + page.chunksPerPage }).insertionSort fun a b =>
        a.rangeStartChunk ≤ b.rangeStartChunk

/-- The objects that a root maps, under every replica and the id as the caller spells it. -/
def markReferencedPayloadKeysFromAllocationPages (replicaIDs : List String) (volumeID : String)
    (mappings : List ExtentMappingRecord) (targetExtentIDs : List Nat)
    (pages : List AllocationPageRecord) : Except Err (List PayloadKey) := do
  let resolvedPages ← resolvedAllocationPagesFromRecords pages
  match resolvedPages with
  | [] => return []
  | first :: _ =>
    let chunkSize := first.page.chunkSizeBytes
    return (mappings.filter fun mapping =>
        isTarget targetExtentIDs mapping.extentID && mapping.lengthBytes != 0).flatMap fun mapping =>
      (touchedChunks chunkSize mapping.logicalOffset mapping.lengthBytes).flatMap fun chunk =>
        match logicalChunkAllocationRecord resolvedPages chunk with
        | none => []
        | some allocation =>
          if allocation.zero || allocation.physicalChunkID == 0 then []
          else replicaIDs.map fun replicaID =>
            { replicaID, volumeID, extentID := mapping.extentID,
              chunkID := allocation.physicalChunkID }

/-- What the roots together refer to. -/
structure ReferenceScan where
  referenced : List PayloadKey
  activeExtentIDs : List Nat
  nativeAllocation : Bool
  deriving DecidableEq

/-- Adds a root with a page to the scan. -/
def ReferenceScan.addRoot (replicaIDs : List String) (volumeID : String)
    (mappings : List ExtentMappingRecord) (targetExtentIDs : List Nat) (scan : ReferenceScan)
    (pages : List AllocationPageRecord) : Except Err ReferenceScan := do
  if pages = [] then
    return scan
  let keys ← markReferencedPayloadKeysFromAllocationPages replicaIDs volumeID mappings
    targetExtentIDs pages
  return { scan with referenced := scan.referenced ++ keys, nativeAllocation := true }

/-- The clones whose own pages are taken for a root. -/
def cloneDeltaScanned (clone : CloneRecord) : Bool :=
  clone.state == .available || clone.state == .materializing

/-- Scans the live pages, the captured pages and the pages of clones. -/
def referencedPayloadKeys (replicaIDs : List String) (volumeID : String)
    (targetExtentIDs : List Nat) : GC ReferenceScan := do
  let mappings ← GC.access .listExtentMappings
  let addRoot := ReferenceScan.addRoot replicaIDs volumeID mappings targetExtentIDs
  let activeExtentIDs := (mappings.filter fun mapping =>
    isTarget targetExtentIDs mapping.extentID).map (·.extentID)
  let pages ← GC.access .listAllocationPages
  let scan ← ExceptT.mk (pure (addRoot ⟨[], activeExtentIDs, false⟩ pages))
  let snapshots ← GC.access .listSnapshotRecords
  let scan ← snapshots.foldlM
    (fun scan snapshot => do
      let pages ← GC.access (.listSnapshotAllocationPages snapshot.snapshotID)
      ExceptT.mk (pure (addRoot scan pages)))
    scan
  let clones ← GC.access .listCloneRecords
  (clones.filter cloneDeltaScanned).foldlM
    (fun scan clone => do
      let pages ← GC.access (.listCloneDeltaAllocationPages clone.cloneID)
      ExceptT.mk (pure (addRoot scan pages)))
    scan

/-! ## Candidates -/

/-- The retired ids of committed writes and transitions; their objects are deleted first. -/
def retiredPayloadHintChunkIDs (operations : List MutationOperationRecord) : List Nat :=
  (operations.filter fun operation =>
    operation.state == .committed && (operation.kind == "write" || operation.kind == "transition")
    ).flatMap (·.retiredPhysicalChunkIDs)

/-- The objects of the target chunks: found by listing, or under their exact keys where
the extents are known. -/
def listExactChunkCandidateKeys (replicaID volumeID : String)
    (targetExtentIDs targetChunkIDs : List Nat) : GC (List PayloadKey) :=
  if targetExtentIDs = [] then
    targetChunkIDs.foldlM
      (fun keys chunkID => do
        let found ← GC.access (.listObjects replicaID volumeID)
        return keys ++ found.filter fun key =>
          key.volumeID == volumeID && key.chunkID == chunkID)
      []
  else
    (targetChunkIDs.flatMap fun chunkID => targetExtentIDs.map fun extentID =>
        (⟨replicaID, volumeID, extentID, chunkID⟩ : PayloadKey)).foldlM
      (fun keys key => do
        let found : Bool ← GC.access (.hasObject key)
        return if found then keys ++ [key] else keys)
      []

/-- The objects that may be deleted: of the target chunks, or whatever is stored. -/
def listCandidatePayloadKeys (replicaID volumeID : String)
    (targetExtentIDs targetChunkIDs : List Nat) : GC (List PayloadKey) :=
  if targetChunkIDs ≠ [] then
    listExactChunkCandidateKeys replicaID volumeID targetExtentIDs targetChunkIDs
  else if targetExtentIDs = [] then GC.access (.listObjects replicaID volumeID)
  else
    targetExtentIDs.foldlM
      (fun keys extentID => do
        let found ← GC.access (.listObjects replicaID volumeID)
        return keys ++ found.filter fun key => key.extentID == extentID)
      []

/-- Hinted keys first, then in key order. -/
def candidateLE (hintedChunkIDs : List Nat) (a b : PayloadKey) : Bool :=
  let hinted (key : PayloadKey) := decide (key.chunkID ∈ hintedChunkIDs)
  if hinted a ≠ hinted b then hinted a
  else decide (a.extentID < b.extentID ∨ (a.extentID = b.extentID ∧ a.chunkID ≤ b.chunkID))

/-! ## Batches -/

/-- A batch of target chunks; no chunks stand for all of them. -/
structure PayloadGCChunkBatch where
  batchIndex : Nat
  chunkIDs : List Nat
  deriving DecidableEq

/-- The batches earlier sweeps have recorded, as far as they hold targets, in order. -/
def recordedChunkBatches (operations : List MutationOperationRecord) (targetChunkIDs : List Nat) :
    List PayloadGCChunkBatch :=
  (operations.filterMap fun operation =>
    if operation.kind ≠ "payload_gc_batch" ∨
        operation.idempotencyKey ≠ payloadGCMutationOperationID volumeID then none
    else
      match payloadGCBatchIndex volumeID operation.operationID with
      | none => none
      | some batchIndex =>
        let chunkIDs := uniqueSortedUint64s (operation.retiredPhysicalChunkIDs.filter fun chunkID =>
          decide (chunkID ∈ targetChunkIDs))
        if chunkIDs = [] then none else some { batchIndex, chunkIDs }).insertionSort
      fun a b => a.batchIndex ≤ b.batchIndex

/-- The rest of the targets, in batches of at most `batchSize` from an index on. -/
def remainingChunkBatches (batchSize : Nat) : Nat → Nat → List Nat → List PayloadGCChunkBatch
  | 0, _, _ => []
  | _, _, [] => []
  | fuel + 1, batchIndex, chunkIDs =>
    { batchIndex, chunkIDs := chunkIDs.take batchSize } ::
      remainingChunkBatches batchSize fuel (batchIndex + 1) (chunkIDs.drop batchSize)

/-- The target chunks in batches; an unreadable list of operations counts as empty. -/
def buildChunkBatches (chunkBatchSize : Nat) (volumeID : String)
    (operations : Except Err (List MutationOperationRecord)) (targetChunkIDs : List Nat) :
    List PayloadGCChunkBatch :=
  if targetChunkIDs = [] then [{ batchIndex := 0, chunkIDs := [] }]
  else
    let recorded := match operations with
      | .ok operations => recordedChunkBatches volumeID operations targetChunkIDs
      | .error _ => []
    let remaining := targetChunkIDs.filter fun chunkID =>
      !recorded.any fun batch => decide (chunkID ∈ batch.chunkIDs)
    let batchSize := if chunkBatchSize = 0 then 64 else chunkBatchSize
    let nextBatchIndex := (recorded.map (·.batchIndex + 1)).foldl max 0
    recorded ++ remainingChunkBatches batchSize remaining.length nextBatchIndex remaining

/-- The operation of a batch, set running; `none` when it is committed already or can
not be tracked. -/
def beginSweepBatchMutationOperation (parent : Option MutationOperationRecord)
    (batch : PayloadGCChunkBatch) : GCProcess (Option MutationOperationRecord) := do
  if batch.chunkIDs = [] then
    return none
  let operationID := payloadGCBatchMutationOperationID volumeID batch.batchIndex
  let record (operation : MutationOperationRecord) : MutationOperationRecord :=
    { operation with
      operationID := operationID
      kind := "payload_gc_batch"
      state := .running
      placementRevision := (parent.map (·.placementRevision)).getD 0
      allocationRevision := (parent.map (·.allocationRevision)).getD 0
      writerFencingEpoch := (parent.map (·.writerFencingEpoch)).getD 0
      idempotencyKey := (parent.map (·.operationID)).getD ""
      affectedExtentIDs := (parent.map (·.affectedExtentIDs)).getD []
      affectedPageNos := (parent.map (·.affectedPageNos)).getD []
      retiredPhysicalChunkIDs := batch.chunkIDs
      errorMessage := "" }
  match ← GC.attempt (.getMutationOperation operationID) with
  | .ok operation =>
    if operation.state = .committed then return none
    else trackOperation (record operation)
  | .error .notFound =>
    trackOperation
      (record { operationID := operationID, kind := "payload_gc_batch", state := .running })
  | .error _ => return none

/-! ## The sweep -/

structure LocalPayloadSweepResult where
  replicaID : String
  candidateCount : Nat := 0
  deletedCount : Nat := 0
  retainedCount : Nat := 0
  deriving DecidableEq

/-- What the sweep has counted and deleted so far. -/
structure SweepProgress where
  results : List LocalPayloadSweepResult
  deletedChunkIDs : List Nat
  deriving DecidableEq

def SweepProgress.count (progress : SweepProgress) (replicaID : String)
    (f : LocalPayloadSweepResult → LocalPayloadSweepResult) : SweepProgress :=
  { progress with results := progress.results.map fun result =>
      if result.replicaID = replicaID then f result else result }

/-- A candidate the scan protects: referenced, or of an active extent when no page is
native. -/
def ReferenceScan.keeps (scan : ReferenceScan) (key : PayloadKey) : Bool :=
  if scan.nativeAllocation then decide (key ∈ scan.referenced)
  else decide (key.extentID ∈ scan.activeExtentIDs)

/-- Deletes a candidate unless the scan has found a reference to it. -/
def sweepCandidate (replicaID : String) (scan : ReferenceScan) (progress : SweepProgress)
    (key : PayloadKey) : GC SweepProgress :=
  if key.volumeID ≠ volumeID then pure progress
  else if scan.keeps key then
    pure (progress.count replicaID fun r => { r with retainedCount := r.retainedCount + 1 })
  else do
    let _ ← GC.access (.deleteObject key)
    let progress := progress.count replicaID fun r => { r with deletedCount := r.deletedCount + 1 }
    if key.chunkID = 0 then return progress
    else return { progress with deletedChunkIDs := progress.deletedChunkIDs ++ [key.chunkID] }

/-- Sweeps one replica for a batch of chunks. -/
def sweepReplica (targetExtentIDs hintedChunkIDs : List Nat) (scan : ReferenceScan)
    (batch : PayloadGCChunkBatch) (progress : SweepProgress) (replicaID : String) :
    GC SweepProgress := do
  let keys ← listCandidatePayloadKeys replicaID volumeID targetExtentIDs batch.chunkIDs
  let keys := keys.dedup.insertionSort fun a b => candidateLE hintedChunkIDs a b = true
  let progress := progress.count replicaID fun r =>
    { r with candidateCount := r.candidateCount + keys.length }
  keys.foldlM (sweepCandidate volumeID replicaID scan) progress

/-- Sweeps all replicas for a batch, under an operation of the batch's own. -/
def sweepBatch (replicaIDs : List String) (operation : Option MutationOperationRecord)
    (targetExtentIDs hintedChunkIDs : List Nat) (scan : ReferenceScan) (progress : SweepProgress)
    (batch : PayloadGCChunkBatch) : GC SweepProgress := do
  let batchOperation ← ExceptT.lift (beginSweepBatchMutationOperation volumeID operation batch)
  let swept : GCProcess (Except Err SweepProgress) := (replicaIDs.foldlM
    (sweepReplica volumeID targetExtentIDs hintedChunkIDs scan batch) progress : GC SweepProgress)
  match ← ExceptT.lift swept with
  | .error err =>
    ExceptT.lift (failOperation batchOperation err)
    throw err
  | .ok progress =>
    match batchOperation with
    | none => return progress
    | some batchOperation =>
      let _ ← ExceptT.lift (GC.attempt (.putMutationOperation { batchOperation with
        state := .committed, errorMessage := "", retiredPhysicalChunkIDs := batch.chunkIDs }))
      return progress

/-- Everything between the begin and the end of a tracked sweep. The keys that the scan finds
have the id as the caller spells it, the candidates have the canonical one. -/
def sweepTargets (chunkBatchSize : Nat) (replicaIDs : List String)
    (volumeID canonicalVolumeID : String) (operation : Option MutationOperationRecord) :
    GC SweepProgress := do
  let targetExtentIDs ← sweepTargetExtentIDs operation
  let targetChunkIDs :=
    uniqueSortedUint64s ((operation.map (·.retiredPhysicalChunkIDs)).getD [])
  let scan ← referencedPayloadKeys replicaIDs volumeID targetExtentIDs
  let hinted ← GC.access .listMutationOperations
  let hintedChunkIDs := retiredPayloadHintChunkIDs hinted
  let batches ← if targetChunkIDs = [] then
      pure (buildChunkBatches chunkBatchSize canonicalVolumeID (.ok []) [])
    else do
      let operations ← ExceptT.lift (GC.attempt .listMutationOperations)
      pure (buildChunkBatches chunkBatchSize canonicalVolumeID operations targetChunkIDs)
  batches.foldlM
    (sweepBatch canonicalVolumeID replicaIDs operation targetExtentIDs hintedChunkIDs scan)
    { results := replicaIDs.map fun replicaID => { replicaID }, deletedChunkIDs := [] }

/-- The end of a sweep: the operation is failed, or committed with the ids that were
deleted. -/
def endSweep :
    Except Err SweepProgress → GCProcess (Except Err (List LocalPayloadSweepResult))
  | .error err => do
    failOperation operation err
    return .error err
  | .ok progress =>
    match operation with
    | none => return .ok progress.results
    | some operation => do
      match ← GC.attempt (.putMutationOperation { operation with
          state := .committed
          retiredPhysicalChunkIDs := uniqueSortedUint64s progress.deletedChunkIDs
          errorMessage := "" }) with
      | .error err => return .error err
      | .ok () => return .ok progress.results

/-- `LocalPayloadGarbageCollector.SweepVolume` over the stores of `replicaIDs`. An id without a
canonical form is its own. -/
def sweepVolume (chunkBatchSize : Nat) (replicaIDs : List String)
    (volumeID canonicalVolumeID : String) :
    GCProcess (Except Err (List LocalPayloadSweepResult)) := do
  let operation ← beginSweepMutationOperation canonicalVolumeID
  let swept ← (sweepTargets chunkBatchSize replicaIDs volumeID canonicalVolumeID operation).run
  endSweep operation swept

/-! ## The stores -/

/-- The metadata and the objects that the sweep works on. -/
structure GCStore where
  repository : Repository
  objects : List PayloadKey

/-- What an access answers when it does not fail, and the store after it. -/
def GCStore.handle (s : GCStore) : (act : GCAccess) → Except Err act.Value × GCStore
  | .getVolumeState => (s.repository.getVolumeState, s)
  | .getMutationOperation operationID => (s.repository.getMutationOperation operationID, s)
  | .putMutationOperation record =>
    (.ok (), { s with repository := s.repository.putMutationOperation record })
  | .listMutationOperations => (.ok s.repository.operations, s)
  | .listExtentMappings => (.ok s.repository.extents, s)
  | .listAllocationPages => (.ok s.repository.pages, s)
  | .listSnapshotRecords => (.ok s.repository.listSnapshotRecords, s)
  | .listSnapshotAllocationPages snapshotID => (.ok (s.repository.snapshotPages snapshotID), s)
  | .listCloneRecords => (.ok s.repository.listCloneRecords, s)
  | .listCloneDeltaAllocationPages cloneID => (.ok (s.repository.cloneDeltaPages cloneID), s)
  | .listObjects replicaID volumeID =>
    (.ok (s.objects.filter fun key => key.replicaID == replicaID && key.volumeID == volumeID), s)
  | .hasObject key => (.ok (decide (key ∈ s.objects)), s)
  | .deleteObject key => (.ok (), { s with objects := s.objects.filter (· ≠ key) })

/-- What an access may answer and do: any access may fail, before or after it took effect. -/
def GCStore.Answers (act : GCAccess) (s : GCStore) (ans : Except Err act.Value) (t : GCStore) :
    Prop :=
  s.handle act = (ans, t) ∨ ∃ err, ans = .error err ∧ (t = s ∨ t = (s.handle act).2)

end Namrbd
