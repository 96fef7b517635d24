import Namrbd.Metadata.ChunkRanges
import Namrbd.Replication.Coordinator

/-!
# Allocation of physical chunks to a write

Before its payload is written, a write plan gives every touched chunk that is
zero or must be copied a fresh physical id. After the payload is written, the
same walk over the touched chunks prepares the pages the commit publishes. When
a commit loses a race the plan is rebased: the latest pages are taken and the
ids of the plan are put into them.
-/

namespace Namrbd

/-- A write of the service, with the geometry that the caller takes the volume to have. -/
structure WriteRequest where
  attachmentID : String
  generation : Nat
  idempotencyKey : String
  offsetBytes : Nat
  lengthBytes : Nat
  data : List Byte
  pageBytes : Nat
  chunkSizeBytes : Nat
  zeroSemantic : Bool := false
  allowZeroNoop : Bool := false
  unsafeZeroNoopSkipIdempotency : Bool := false
  deriving DecidableEq

/-- The part of a request that lies in an extent. -/
def overlapRange (extent : ExtentMappingRecord) (reqOffset reqLength : Nat) :
    Except Err (Nat × Nat) :=
  let reqEnd := reqOffset + reqLength
  if extent.endOffset ≤ reqOffset ∨ reqEnd ≤ extent.logicalOffset then
    .error (.other "request does not overlap extent")
  else
    let start := max reqOffset extent.logicalOffset
    .ok (start, min reqEnd extent.endOffset - start)

/-- The chunks that a range meets. -/
def touchedChunks (chunkSizeBytes start length : Nat) : List Nat :=
  let startChunk := start / chunkSizeBytes
  let endChunk := (start + length - 1) / chunkSizeBytes
  List.range' startChunk (endChunk + 1 - startChunk)

/-- The range covers the chunk as a whole. -/
def coversChunk (chunkSizeBytes start length chunk : Nat) : Bool :=
  decide (start ≤ chunk * chunkSizeBytes ∧ chunk * chunkSizeBytes + chunkSizeBytes ≤ start + length)

/-! ## Looking up a chunk in resolved pages -/

/-- What the pages say of a chunk. -/
structure ChunkAllocation where
  zero : Bool
  physicalChunkID : Nat
  encryption : Option PayloadEncryptionHeader
  deriving DecidableEq

/-- A shared chunk is not zero and has no id. -/
def AllocationExtentRecord.allocation (extent : AllocationExtentRecord) (chunk : Nat) :
    ChunkAllocation :=
  match extent.kind with
  | .zero => { zero := true, physicalChunkID := 0, encryption := none }
  | .data =>
    { zero := false
      physicalChunkID := extent.physicalChunkStart + (chunk - extent.logicalChunkStart)
      encryption := extent.encryption }
  | .shared => { zero := false, physicalChunkID := 0, encryption := none }

/-- The first page with the chunk decides. -/
def logicalChunkAllocationRecord (pages : List ResolvedAllocationPage) (chunk : Nat) :
    Option ChunkAllocation :=
  match pages.find? (·.containsChunk chunk) with
  | none => none
  | some page =>
    (page.page.extents.find? fun extent => decide (extent.logicalChunkStart ≤ chunk ∧
      chunk < extent.logicalChunkStart + extent.chunkCount)).map (·.allocation chunk)

def resolvedAllocationPagesChunkIsZero (pages : List ResolvedAllocationPage) (chunk : Nat) : Bool :=
  match pages.find? (·.containsChunk chunk) with
  | none => false
  | some page =>
    match page.page.extents.find? fun extent => decide (extent.logicalChunkStart ≤ chunk ∧
        chunk < extent.logicalChunkStart + extent.chunkCount) with
    | none => false
    | some extent => extent.kind == .zero

/-- The id a commit publishes for a chunk: the plan's, else the extent's own. -/
def physicalChunkIDForCommittedWrite (plan : ExtentWritePlan) (chunk : Nat) : Option Nat :=
  let planned :=
    if 0 < plan.chunkSizeBytes ∧ plan.allocationPages ≠ [] then
      ((logicalChunkAllocationRecord plan.allocationPages chunk).map (·.physicalChunkID)).getD 0
    else 0
  if planned ≠ 0 then some planned
  else if plan.extent.chunkID = 0 ∨ plan.chunkSizeBytes = 0 then none
  else
    let extentStartChunk := plan.extent.logicalOffset / plan.chunkSizeBytes
    if chunk < extentStartChunk then none
    else some (plan.extent.chunkID + (chunk - extentStartChunk))

/-! ## Page states -/

/-- A page that a commit is about to store, chunk by chunk. -/
structure AllocationCommitPageState where
  pageNo : Nat
  pageBytes : Nat
  chunkSizeBytes : Nat
  revision : Nat
  originalChunkIDs : List Nat
  entries : List ChunkEntry
  deriving DecidableEq

namespace AllocationCommitPageState

def pageStartChunk (s : AllocationCommitPageState) : Nat :=
  s.pageNo * (s.pageBytes / s.chunkSizeBytes)

end AllocationCommitPageState

def newAllocationCommitPageState (page : AllocationPageRecord) :
    Except Err AllocationCommitPageState := do
  if invalidGeometry page.pageBytes page.chunkSizeBytes then
    throw (invalidPageGeometry page)
  let entries ← expandAllocationPageChunkMappings page
  return {
    pageNo := page.pageNo
    pageBytes := page.pageBytes
    chunkSizeBytes := page.chunkSizeBytes
    revision := page.revision
    originalChunkIDs := entries.map (·.physicalChunkID)
    entries := entries }

namespace AllocationCommitPageState

def toRecord (s : AllocationCommitPageState) : AllocationPageRecord :=
  { pageNo := s.pageNo, pageBytes := s.pageBytes, chunkSizeBytes := s.chunkSizeBytes,
    revision := s.revision,
    extents := compressAllocationCommitChunkMappings s.pageStartChunk s.entries }

/-- Maps a touched chunk, or unmaps one that is covered with zeros. -/
def applyWriteChunk (plan : ExtentWritePlan) (zeroSemantic : Bool) (writeStart writeLength : Nat)
    (encryptionHeaders : Nat → Option PayloadEncryptionHeader) (s : AllocationCommitPageState)
    (chunk : Nat) : Except Err AllocationCommitPageState :=
  if chunk < s.pageStartChunk ∨ s.pageStartChunk + s.entries.length ≤ chunk then .ok s
  else if zeroSemantic && coversChunk s.chunkSizeBytes writeStart writeLength chunk then
    .ok { s with entries := s.entries.set (chunk - s.pageStartChunk) .zero }
  else
    match physicalChunkIDForCommittedWrite plan chunk with
    | none =>
      .error (.other s!"PE {plan.extent.extentID} logical AC {chunk} has no resolvable physical AC id for allocation commit")
    | some physicalChunkID =>
      let entry : ChunkEntry := ⟨physicalChunkID, encryptionHeaders chunk⟩
      .ok { s with entries := s.entries.set (chunk - s.pageStartChunk) entry }

def applyWrite (s : AllocationCommitPageState) (plan : ExtentWritePlan) (zeroSemantic : Bool)
    (writeStart writeLength : Nat) (encryptionHeaders : Nat → Option PayloadEncryptionHeader) :
    Except Err AllocationCommitPageState :=
  if writeLength = 0 then .ok s
  else (touchedChunks s.chunkSizeBytes writeStart writeLength).foldlM
    (applyWriteChunk plan zeroSemantic writeStart writeLength encryptionHeaders) s

/-- The ids that the page no longer maps. -/
def retiredPhysicalChunkIDs (s : AllocationCommitPageState) : List Nat :=
  if s.originalChunkIDs.length ≠ s.entries.length then []
  else ((s.originalChunkIDs.zip s.entries).filterMap fun (original, entry) =>
    if original = 0 ∨ original = entry.physicalChunkID then none else some original).dedup

end AllocationCommitPageState

/-! ## Planning the allocation -/

def addPageStates (pages : List ResolvedAllocationPage) (states : List AllocationCommitPageState) :
    Except Err (List AllocationCommitPageState) :=
  pages.foldlM
    (fun states resolved => do
      match Table.get? (·.pageNo) resolved.page.pageNo states with
      | some _ => return states
      | none =>
        let state ← newAllocationCommitPageState resolved.page
        return Table.put (·.pageNo) state states)
    states

variable (states : List AllocationCommitPageState)

def allocationPlanStateForLogicalChunk (pages : List ResolvedAllocationPage) (chunk : Nat) :
    Option AllocationCommitPageState := do
  let page ← pages.find? (·.containsChunk chunk)
  let state ← Table.get? (·.pageNo) page.page.pageNo states
  if chunk < state.pageStartChunk ∨ state.pageStartChunk + state.entries.length ≤ chunk then
    none
  else
    some state

/-- The touched chunks that need an id: zero ones, and those to be copied. -/
def pendingChunks (extent : ExtentWritePlan) (zeroSemantic : Bool) (writeStart writeLength : Nat) :
    List (Nat × Nat) :=
  (touchedChunks extent.chunkSizeBytes writeStart writeLength).filterMap fun chunk =>
    if zeroSemantic && coversChunk extent.chunkSizeBytes writeStart writeLength chunk then none
    else
      match allocationPlanStateForLogicalChunk states extent.allocationPages chunk with
      | none => none
      | some state =>
        let entry := state.entries[chunk - state.pageStartChunk]?.getD .zero
        if entry.physicalChunkID ≠ 0 ∧ extent.copyOnWrite = false then none
        else some (state.pageNo, chunk)

/-- Collects the pages and the pending chunks of an extent. -/
def collectExtent (req : WriteRequest)
    (acc : List AllocationCommitPageState × List (Nat × Nat)) (extent : ExtentWritePlan) :
    Except Err (List AllocationCommitPageState × List (Nat × Nat)) :=
  if extent.chunkSizeBytes = 0 ∨ extent.allocationPages = [] then .ok acc
  else
    match overlapRange extent.extent req.offsetBytes req.lengthBytes with
    | .error _ => .ok acc
    | .ok (writeStart, writeLength) =>
      if writeLength = 0 then .ok acc
      else do
        let states ← addPageStates extent.allocationPages acc.1
        let pending := pendingChunks states extent req.zeroSemantic writeStart writeLength
        return (states, acc.2 ++ pending)

/-- Gives a pending chunk its id. -/
def assignChunkID (pageNo chunk physicalChunkID : Nat) : List AllocationCommitPageState :=
  match Table.get? (·.pageNo) pageNo states with
  | none => states
  | some state =>
    let entries := state.entries.modify (chunk - state.pageStartChunk) fun entry =>
      { entry with physicalChunkID := physicalChunkID }
    Table.put (·.pageNo) { state with entries := entries } states

/-- The plan with the pages that hold its new ids. -/
def withPageStates (extent : ExtentWritePlan) : ExtentWritePlan :=
  { extent with
    allocationPages := extent.allocationPages.map fun resolved =>
      match Table.get? (·.pageNo) resolved.page.pageNo states with
      | none => resolved
      | some state => { resolved with page := state.toRecord } }

/-- Give every touched chunk that is zero or must be copied a fresh physical id. -/
def prepareWritePlanAllocations (m : Repository) (plan : List ExtentWritePlan)
    (req : WriteRequest) : Except Err (List ExtentWritePlan × Repository) := do
  let (states, pending) ← plan.foldlM (collectExtent req) ([], [])
  if pending = [] then
    return (plan, m)
  let (startChunkID, m) ← m.allocateChunkIDs pending.length
  let states := pending.zipIdx.foldl
    (fun states ((pageNo, chunk), i) => assignChunkID states pageNo chunk (startChunkID + i))
    states
  return (plan.map (withPageStates states), m)

/-! ## Preparing the commit -/

/-- The chunks of a page that a write touches. -/
def allocationCommitAffectedPageChunkRange (page : AllocationPageRecord)
    (writeStart writeLength : Nat) : Except Err (Option AllocationPageChunkRangeRecord) :=
  let pageStart := page.pageNo * page.pageBytes
  let pageEnd := pageStart + page.pageBytes
  let writeEnd := writeStart + writeLength
  if writeLength = 0 then .ok none
  else if invalidGeometry page.pageBytes page.chunkSizeBytes then
    .error (invalidPageGeometry page)
  else if writeEnd ≤ pageStart ∨ pageEnd ≤ writeStart then .ok none
  else
    .ok (some {
      pageNo := page.pageNo
      startChunk := (max writeStart pageStart - pageStart) / page.chunkSizeBytes
      endChunk := (min writeEnd pageEnd - pageStart + page.chunkSizeBytes - 1) /
        page.chunkSizeBytes })

/-- What a commit stores of the allocation. -/
structure AllocationCommit where
  pages : List AllocationPageRecord
  retiredPhysicalChunkIDs : List Nat
  affectedPageChunkRanges : List AllocationPageChunkRangeRecord
  deriving DecidableEq

/-- Applies a write to one of its pages. -/
def prepareCommitPage (req : WriteRequest) (plan : ExtentWritePlan)
    (encryptionHeaders : Nat → Option PayloadEncryptionHeader) (writeStart writeLength : Nat)
    (acc : List AllocationCommitPageState × List AllocationPageChunkRangeRecord)
    (resolved : ResolvedAllocationPage) :
    Except Err (List AllocationCommitPageState × List AllocationPageChunkRangeRecord) := do
  let state ← match Table.get? (·.pageNo) resolved.page.pageNo acc.1 with
    | some state => pure state
    | none => newAllocationCommitPageState resolved.page
  let range ← allocationCommitAffectedPageChunkRange resolved.page writeStart writeLength
  let state ← state.applyWrite plan req.zeroSemantic writeStart writeLength encryptionHeaders
  return (Table.put (·.pageNo) state acc.1, acc.2 ++ range.toList)

def prepareCommitExtent (req : WriteRequest)
    (acc : List AllocationCommitPageState × List AllocationPageChunkRangeRecord)
    (plan : ExtentWritePlan) (encryptionHeaders : Nat → Option PayloadEncryptionHeader) :
    Except Err (List AllocationCommitPageState × List AllocationPageChunkRangeRecord) :=
  if plan.chunkSizeBytes = 0 ∨ plan.allocationPages = [] then .ok acc
  else
    match overlapRange plan.extent req.offsetBytes req.lengthBytes with
    | .error _ => .ok acc
    | .ok (writeStart, writeLength) =>
      if writeLength = 0 then .ok acc
      else if plan.chunkSizeBytes ≠ req.chunkSizeBytes then
        .error (.other s!"extent {plan.extent.extentID} chunk size mismatch: plan={plan.chunkSizeBytes} req={req.chunkSizeBytes}")
      else plan.allocationPages.foldlM
        (prepareCommitPage req plan encryptionHeaders writeStart writeLength) acc

def uniqueSortedUint64s (values : List Nat) : List Nat :=
  Table.putAll id (values.filter (· ≠ 0)) []

@[simp] theorem mem_uniqueSortedUint64s {values : List Nat} {id : Nat} :
    id ∈ uniqueSortedUint64s values ↔ id ≠ 0 ∧ id ∈ values := by
  rw [uniqueSortedUint64s, Table.mem_putAll_id, List.mem_filter]
  simp [and_comm]

/-! ## Rebasing -/

/-- The pages of the new plan, with the write applied to them under its old ids. -/
def mergedRetryAllocationPages (current latest : ExtentWritePlan) (req : WriteRequest)
    (encryptionHeaders : Nat → Option PayloadEncryptionHeader) :
    Except Err (List ResolvedAllocationPage) :=
  if latest.allocationPages = [] then .ok []
  else if current.allocationPages = [] ∨ current.chunkSizeBytes = 0 then .ok latest.allocationPages
  else
    match overlapRange current.extent req.offsetBytes req.lengthBytes with
    | .error _ => .ok latest.allocationPages
    | .ok (writeStart, writeLength) =>
      if writeLength = 0 then .ok latest.allocationPages
      else latest.allocationPages.mapM fun resolved => do
        let state ← newAllocationCommitPageState resolved.page
        let state ← state.applyWrite current req.zeroSemantic writeStart writeLength
          encryptionHeaders
        return { resolved with page := state.toRecord }

end Namrbd
