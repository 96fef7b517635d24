import Namrbd.Lib.Table
import Namrbd.Metadata.AllocationPage

/-!
# The metadata repository

The metadata of one volume as the repository stores it, with the single-record
reads and writes, the chunk id sequence, and the compatibility view of the
allocation pages: native pages once any exists, otherwise pages synthesized
from the extent mappings. A transaction is a function from the stored state,
and a failed one leaves the state as it was.
-/

namespace Namrbd

/-- The last range-local commit of a page. -/
structure RangeLocalWriteStateRecord where
  pageNo : Nat
  revision : Nat
  idempotencyKey : String
  deriving DecidableEq

/-- The stored metadata of one volume; listings are in key order. A chunk id
sequence of 0 stands for a missing one. -/
structure Repository where
  volume : Option VolumeState := none
  spec : Option VolumeSpecRecord := none
  extents : List ExtentMappingRecord := []
  replicaSets : List ReplicaSetState := []
  nodes : List NodeMembershipRecord := []
  pages : List AllocationPageRecord := []
  nextChunkID : Nat := 0
  idempotency : List IdempotencyRecord := []
  operations : List MutationOperationRecord := []
  rangeLocalWriteStates : List RangeLocalWriteStateRecord := []
  lastAppendOnlyRevision : Nat := 0
  snapshots : List SnapshotRecord := []
  snapshotPages : String → List AllocationPageRecord := fun _ => []
  clones : List CloneRecord := []
  cloneDeltaPages : String → List AllocationPageRecord := fun _ => []

/-- A record that may be missing from the store. -/
def orNotFound {α : Type} : Option α → Except Err α
  | some a => .ok a
  | none => .error .notFound

@[simp] theorem orNotFound_some {α : Type} (a : α) : orNotFound (some a) = .ok a := rfl

theorem orNotFound_eq_ok {α : Type} {o : Option α} {a : α} : orNotFound o = .ok a ↔ o = some a := by
  cases o with
  | none | some b => simp [orNotFound]

namespace Repository

/-! ## Single records -/

variable (m : Repository)

def getVolumeState : Except Err VolumeState := orNotFound m.volume

def putVolumeState (record : VolumeState) : Repository :=
  { m with volume := some record }

def getVolumeSpec : Except Err VolumeSpecRecord := orNotFound m.spec

def getExtentMapping (extentID : Nat) : Except Err ExtentMappingRecord :=
  orNotFound (Table.get? (·.extentID) extentID m.extents)

def putExtentMapping (record : ExtentMappingRecord) : Repository :=
  { m with extents := Table.put (·.extentID) record m.extents }

def getReplicaSet (replicaSetID : String) : Except Err ReplicaSetState :=
  orNotFound (Table.get? (·.replicaSetID) replicaSetID m.replicaSets)

def putReplicaSet (record : ReplicaSetState) : Repository :=
  { m with replicaSets := Table.put (·.replicaSetID) record m.replicaSets }

def getIdempotencyRecord (key : String) : Except Err IdempotencyRecord :=
  orNotFound (Table.get? (·.idempotencyKey) key m.idempotency)

def putIdempotencyRecord (record : IdempotencyRecord) : Repository :=
  { m with idempotency := Table.put (·.idempotencyKey) record m.idempotency }

def getMutationOperation (operationID : String) : Except Err MutationOperationRecord :=
  orNotFound (Table.get? (·.operationID) operationID m.operations)

def putMutationOperation (record : MutationOperationRecord) : Repository :=
  { m with operations := Table.put (·.operationID) record m.operations }

/-- The intent and its operation, in one transaction. -/
def putWriteIntent (record : IdempotencyRecord) (operation : MutationOperationRecord) :
    Repository :=
  (m.putIdempotencyRecord record).putMutationOperation operation

def putAllocationPage (page : AllocationPageRecord) : Repository :=
  { m with pages := Table.put (·.pageNo) page m.pages }

/-! ## The chunk id sequence -/

/-- A sequence that was never stored starts at 1. -/
def getNextChunkID : Nat := if m.nextChunkID = 0 then 1 else m.nextChunkID

/-- The next ids of the sequence, which starts at 1 whatever ids the mappings own. -/
def allocateChunkIDs (count : Nat) : Except Err (Nat × Repository) := do
  if count = 0 then
    return (0, m)
  let _ ← m.getVolumeState
  let startID := m.getNextChunkID
  return (startID, { m with nextChunkID := startID + count })

theorem getNextChunkID_pos : 0 < m.getNextChunkID := by
  unfold getNextChunkID
  split
  · exact Nat.one_pos
  · next h => exact Nat.pos_of_ne_zero h

theorem getNextChunkID_advance (count : Nat) :
    getNextChunkID { m with nextChunkID := m.getNextChunkID + count } =
      m.getNextChunkID + count := by
  have hpos := m.getNextChunkID_pos
  exact if_neg (show ¬m.getNextChunkID + count = 0 by omega)

/-! ## The compatibility view of the allocation pages -/

/-- Lays the ids that a mapping owns over the chunks of a page. -/
def synthesizeMapping (chunkSizeBytes pageStartChunk pageEndChunk : Nat) (ids : List Nat)
    (mapping : ExtentMappingRecord) : List Nat :=
  if mapping.lengthBytes = 0 then ids
  else
    let extentStartChunk := mapping.logicalOffset / chunkSizeBytes
    let extentEndChunk :=
      (mapping.logicalOffset + mapping.lengthBytes + chunkSizeBytes - 1) / chunkSizeBytes
    if extentEndChunk ≤ pageStartChunk ∨ pageEndChunk ≤ extentStartChunk then ids
    else
      let overlapStart := max extentStartChunk pageStartChunk
      let overlapEnd := min extentEndChunk pageEndChunk
      (List.range' overlapStart (overlapEnd - overlapStart)).foldl
        (fun ids logicalChunk => ids.set (logicalChunk - pageStartChunk)
          (if mapping.chunkID = 0 then 0 else mapping.chunkID + (logicalChunk - extentStartChunk)))
        ids

/-- A page as the extent mappings describe it; later mappings overwrite earlier ones. -/
def synthesizeAllocationPageFromMappings (pageNo pageBytes chunkSizeBytes : Nat)
    (mappings : List ExtentMappingRecord) : AllocationPageRecord :=
  let chunksPerPage := pageBytes / chunkSizeBytes
  let pageStartChunk := pageNo * chunksPerPage
  let physicalChunkIDs := mappings.foldl
    (synthesizeMapping chunkSizeBytes pageStartChunk (pageStartChunk + chunksPerPage))
    (List.replicate chunksPerPage 0)
  { pageNo := pageNo, pageBytes := pageBytes, chunkSizeBytes := chunkSizeBytes,
    extents := compressAllocationChunkMappingsWithHeaders pageStartChunk
      (physicalChunkIDs.map fun id => ⟨id, none⟩) }

def invalidAllocationGeometry (pageBytes chunkSizeBytes : Nat) : Err :=
  .other s!"invalid allocation geometry: page_bytes={pageBytes} chunk_size_bytes={chunkSizeBytes}"

/-- The stored page, or a page made of the mappings as long as none is stored. -/
def getCompatibleAllocationPage (pageNo pageBytes chunkSizeBytes : Nat) :
    Except Err AllocationPageRecord :=
  if invalidGeometry pageBytes chunkSizeBytes then
    .error (invalidAllocationGeometry pageBytes chunkSizeBytes)
  else
    match Table.get? (·.pageNo) pageNo m.pages with
    | some page => .ok page
    | none =>
      if m.pages = [] then
        .ok (synthesizeAllocationPageFromMappings pageNo pageBytes chunkSizeBytes m.extents)
      else
        .ok (zeroAllocationPage pageNo pageBytes chunkSizeBytes)

/-- The pages that a mapping reaches into, each once. -/
def mappedPageNos (pageBytes chunkSizeBytes : Nat) (mappings : List ExtentMappingRecord) :
    List Nat :=
  mappings.foldl
    (fun pageNos mapping =>
      if mapping.lengthBytes = 0 then pageNos
      else
        let startChunk := mapping.logicalOffset / chunkSizeBytes
        let endChunk := (mapping.logicalOffset + mapping.lengthBytes - 1) / chunkSizeBytes
        let startPage := startChunk / (pageBytes / chunkSizeBytes)
        let endPage := endChunk / (pageBytes / chunkSizeBytes)
        Table.putAll id (List.range' startPage (endPage + 1 - startPage)) pageNos)
    []

/-- The stored pages, or those made of the mappings as long as none is stored. -/
def listCompatibleAllocationPages (pageBytes chunkSizeBytes : Nat) :
    Except Err (List AllocationPageRecord) :=
  if invalidGeometry pageBytes chunkSizeBytes then
    .error (invalidAllocationGeometry pageBytes chunkSizeBytes)
  else if m.pages ≠ [] then .ok m.pages
  else
    .ok ((mappedPageNos pageBytes chunkSizeBytes m.extents).map fun pageNo =>
      synthesizeAllocationPageFromMappings pageNo pageBytes chunkSizeBytes m.extents)

/-! ## Snapshots -/

/-- An id is used once. -/
def createSnapshotRecord (record : SnapshotRecord) : Except Err Repository :=
  match Table.get? (·.snapshotID) record.snapshotID m.snapshots with
  | some _ => .error .casConflict
  | none => .ok { m with snapshots := Table.put (·.snapshotID) record m.snapshots }

def getSnapshotRecord (snapshotID : String) : Except Err SnapshotRecord :=
  orNotFound (Table.get? (·.snapshotID) snapshotID m.snapshots)

/-- A deleted snapshot stays as a record and is not listed. -/
def listSnapshotRecords : List SnapshotRecord :=
  m.snapshots.filter fun record => record.state ≠ .deleted

def markSnapshotState (snapshotID : String) (state : SnapshotState) (errorMessage : String) :
    Except Err Repository := do
  let record ← m.getSnapshotRecord snapshotID
  return { m with
    snapshots := Table.put (·.snapshotID) { record with state, errorMessage } m.snapshots }

/-- Puts pages under the snapshot, over those captured before. -/
def captureSnapshotAllocationPages (snapshotID : String) (pages : List AllocationPageRecord) :
    Repository :=
  { m with
    snapshotPages := fun id =>
      if id = snapshotID then Table.putAll (·.pageNo) pages (m.snapshotPages id)
      else m.snapshotPages id }

/-! ## Clones -/

def listCloneRecords : List CloneRecord :=
  m.clones.filter fun record => record.state ≠ .deleted

/-- Create a clone record over an available snapshot; a clone id is used once. -/
def createCloneRecord (record : CloneRecord) : Except Err Repository := do
  let source ← m.getSnapshotRecord record.sourceSnapshotID
  if source.state ≠ .available then
    throw (.other s!"source snapshot \"{record.sourceSnapshotID}\" is not available: state={source.state.name}")
  let sizeBytes := if record.sizeBytes = 0 then source.sourceSizeBytes else record.sizeBytes
  if sizeBytes < source.sourceSizeBytes then
    throw (.other s!"clone size_bytes {sizeBytes} is smaller than source snapshot size_bytes {source.sourceSizeBytes}")
  let record := { record with
    cloneBaseRootID := source.snapshotID
    allocationChunkSizeBytes := source.allocationChunkSizeBytes
    allocationPageSizeBytes := source.allocationPageSizeBytes
    sizeBytes := sizeBytes }
  match Table.get? (·.cloneID) record.cloneID m.clones with
  | some _ => throw .casConflict
  | none =>
    return { m with
      clones := Table.put (·.cloneID) record m.clones
      snapshots := Table.put (·.snapshotID)
        { source with cloneReferenceCount := source.cloneReferenceCount + 1 } m.snapshots }

def getCloneRecord (cloneID : String) : Except Err CloneRecord :=
  orNotFound (Table.get? (·.cloneID) cloneID m.clones)

def markCloneState (cloneID : String) (state : CloneState) (errorMessage : String) :
    Except Err Repository := do
  let record ← m.getCloneRecord cloneID
  return { m with clones := Table.put (·.cloneID) { record with state, errorMessage } m.clones }

/-- Mark a clone as copied into a volume; the snapshot is then one reference short. -/
def markCloneMaterialized (cloneID materializedVolumeID : String) : Except Err Repository := do
  let record ← m.getCloneRecord cloneID
  if record.state = .deleted then
    throw (.other s!"clone \"{cloneID}\" is deleted")
  if record.state = .failed then
    throw (.other s!"clone \"{cloneID}\" is failed: {record.errorMessage}")
  if record.state = .materialized then
    if record.materializedVolumeID ≠ materializedVolumeID then throw .casConflict else return m
  else
    let source ← m.getSnapshotRecord record.sourceSnapshotID
    return { m with
      clones := Table.put (·.cloneID)
        { record with state := .materialized, materializedVolumeID, errorMessage := "" } m.clones
      snapshots := Table.put (·.snapshotID)
        { source with cloneReferenceCount := source.cloneReferenceCount - 1 } m.snapshots }

/-- Delete a clone; one that is materialized holds no reference to its snapshot. -/
def deleteCloneRecord (cloneID : String) : Except Err Repository := do
  let record ← m.getCloneRecord cloneID
  if record.state = .deleted then return m
  else
    let source ← m.getSnapshotRecord record.sourceSnapshotID
    return { m with
      clones := Table.put (·.cloneID)
        { record with state := .deleted, errorMessage := "" } m.clones
      snapshots := Table.put (·.snapshotID)
        { source with
          cloneReferenceCount :=
            if record.state ≠ .materialized then source.cloneReferenceCount - 1
            else source.cloneReferenceCount } m.snapshots }

/-- One object for each run that is mapped. -/
def countAllocationPageObjects (page : AllocationPageRecord) : Nat :=
  (page.extents.filter fun extent => extent.kind == .data || extent.kind == .shared).length

/-- The delta of a clone while pages are put into it. -/
structure CloneDelta where
  clone : CloneRecord
  seen : List Nat := []
  pages : List AllocationPageRecord

/-- Put one page into a clone's delta and count its objects. The page replaces the one stored
under its number. -/
def putCloneDeltaAllocationPage (delta : CloneDelta) (page : AllocationPageRecord) :
    Except Err CloneDelta := do
  if page.pageNo ∈ delta.seen then
    throw (.other s!"duplicate clone delta allocation page: clone_id={delta.clone.cloneID} page_no={page.pageNo}")
  if page.pageBytes ≠ delta.clone.allocationPageSizeBytes ∨
      page.chunkSizeBytes ≠ delta.clone.allocationChunkSizeBytes then
    throw (.other s!"clone delta allocation page geometry mismatch: clone_id={delta.clone.cloneID} page_no={page.pageNo} page_bytes={page.pageBytes} chunk_size_bytes={page.chunkSizeBytes} expected_page_bytes={delta.clone.allocationPageSizeBytes} expected_chunk_size_bytes={delta.clone.allocationChunkSizeBytes}")
  let existing := Table.get? (·.pageNo) page.pageNo delta.pages
  let existingObjectCount := (existing.map countAllocationPageObjects).getD 0
  return {
    clone := { delta.clone with
      deltaPageCount := delta.clone.deltaPageCount + if existing.isSome then 0 else 1
      deltaObjectCount :=
        delta.clone.deltaObjectCount - existingObjectCount + countAllocationPageObjects page }
    seen := page.pageNo :: delta.seen
    pages := Table.put (·.pageNo) page delta.pages }

/-- Checks and stores pages of the clone's own, all or none. -/
def putCloneDeltaAllocationPages (cloneID : String) (pages : List AllocationPageRecord) :
    Except Err Repository :=
  if pages = [] then .ok m
  else do
    let clone ← m.getCloneRecord cloneID
    if clone.state ≠ .available then
      throw (.other s!"clone \"{cloneID}\" is not available: state={clone.state.name}")
    let delta ← pages.foldlM putCloneDeltaAllocationPage
      { clone, pages := m.cloneDeltaPages cloneID }
    return { m with
      clones := Table.put (·.cloneID) delta.clone m.clones
      cloneDeltaPages := fun id => if id = cloneID then delta.pages else m.cloneDeltaPages id }

end Repository

end Namrbd
