import Namrbd.Metadata.Repository

/-!
# Resolving byte ranges

The metadata service turns a byte range of the volume into the extents it
touches, with their replica sets, and into the allocation pages it touches,
each with the part of the page the range covers. Snapshot ranges resolve to the
pages captured for the snapshot, clone ranges to the clone's own pages over them.
-/

namespace Namrbd

/-- A mapping with the replicas that hold it. -/
structure ResolvedExtentPlacement where
  extentMapping : ExtentMappingRecord
  replicaSet : ReplicaSetState
  nodes : List NodeMembershipRecord
  deriving DecidableEq

/-- A page and the chunks of it that a request asks for. -/
structure ResolvedAllocationPage where
  page : AllocationPageRecord
  rangeStartChunk : Nat
  rangeEndChunk : Nat
  deriving DecidableEq

def ResolvedAllocationPage.containsChunk (page : ResolvedAllocationPage) (chunk : Nat) : Bool :=
  decide (page.rangeStartChunk ≤ chunk ∧ chunk < page.rangeEndChunk)

/-- The sums are in the naturals. For those of the source see `overlaps64`. -/
def ExtentMappingRecord.overlaps (extent : ExtentMappingRecord) (offsetBytes lengthBytes : Nat) :
    Bool :=
  decide (offsetBytes < extent.endOffset ∧ extent.logicalOffset < offsetBytes + lengthBytes)

/-- The pages at or above which a request reads the page list at once. -/
def resolveAllocationPagesListThreshold : Nat := 8

/-- Cuts the chunks of a page to those from `startChunk` up to `endChunk`. -/
def resolvedAllocationPage (startChunk endChunk chunksPerPage : Nat)
    (page : AllocationPageRecord) : ResolvedAllocationPage :=
  let pageStartChunk := page.pageNo * chunksPerPage
  let pageEndChunk := pageStartChunk + chunksPerPage
  { page := page
    rangeStartChunk := max startChunk pageStartChunk
    rangeEndChunk := min (endChunk + 1) pageEndChunk }

namespace Repository

variable (m : Repository)

/-- The replica set of a placement; of several, the last listed. -/
def replicaSetForPlacement (placementRef : String) : Option ReplicaSetState :=
  m.replicaSets.reverse.find? fun replicaSet => replicaSet.placementRef = placementRef

def resolvedExtentPlacement (extent : ExtentMappingRecord) : Except Err ResolvedExtentPlacement :=
  match m.replicaSetForPlacement extent.placementRef with
  | none => .error (.other s!"placement_ref \"{extent.placementRef}\" has no replica set")
  | some replicaSet => .ok { extentMapping := extent, replicaSet, nodes := m.nodes }

/-- The mappings that a range meets, in the order they are listed. -/
def resolveExtentPlacements (offsetBytes lengthBytes : Nat) :
    Except Err (List ResolvedExtentPlacement) :=
  if lengthBytes = 0 then .ok []
  else (m.extents.filter fun extent => extent.overlaps offsetBytes lengthBytes).mapM
    m.resolvedExtentPlacement

/-- The live pages of a range. -/
def resolveAllocationPages (offsetBytes lengthBytes pageBytes chunkSizeBytes : Nat) :
    Except Err (List ResolvedAllocationPage) :=
  if lengthBytes = 0 then .ok []
  else if invalidGeometry pageBytes chunkSizeBytes then
    .error (invalidAllocationGeometry pageBytes chunkSizeBytes)
  else do
    let chunksPerPage := pageBytes / chunkSizeBytes
    let startChunk := offsetBytes / chunkSizeBytes
    let endChunk := (offsetBytes + lengthBytes - 1) / chunkSizeBytes
    let startPage := startChunk / chunksPerPage
    let endPage := endChunk / chunksPerPage
    let pageNos := List.range' startPage (endPage + 1 - startPage)
    let listed ← if resolveAllocationPagesListThreshold ≤ pageNos.length then
        m.listCompatibleAllocationPages pageBytes chunkSizeBytes
      else pure []
    let pages ← if listed ≠ [] then
        pure (pageNos.map fun pageNo => (Table.get? (·.pageNo) pageNo listed).getD
          (zeroAllocationPage pageNo pageBytes chunkSizeBytes))
      else
        pageNos.mapM fun pageNo => m.getCompatibleAllocationPage pageNo pageBytes chunkSizeBytes
    return pages.map (resolvedAllocationPage startChunk endChunk chunksPerPage)

/-- A page of a snapshot. One that was not captured has no mapped chunk. -/
def capturedAllocationPage (rootID : String) (pageNo pageBytes chunkSizeBytes : Nat) :
    Except Err AllocationPageRecord := do
  let page ← match Table.get? (·.pageNo) pageNo (m.snapshotPages rootID) with
    | some page => pure page
    | none => do
      let _ ← m.getSnapshotRecord rootID
      pure (zeroAllocationPage pageNo pageBytes chunkSizeBytes)
  if page.pageBytes ≠ pageBytes ∨ page.chunkSizeBytes ≠ chunkSizeBytes then
    throw (.other s!"captured allocation page geometry mismatch: root_id={rootID} page_no={pageNo} page_bytes={page.pageBytes} chunk_size_bytes={page.chunkSizeBytes} expected_page_bytes={pageBytes} expected_chunk_size_bytes={chunkSizeBytes}")
  return page

/-- The captured pages of a range. -/
def resolveSnapshotAllocationPages (snapshotID : String)
    (offsetBytes lengthBytes pageBytes chunkSizeBytes : Nat) :
    Except Err (List ResolvedAllocationPage) :=
  if lengthBytes = 0 then .ok []
  else if invalidGeometry pageBytes chunkSizeBytes then
    .error (invalidAllocationGeometry pageBytes chunkSizeBytes)
  else do
    let chunksPerPage := pageBytes / chunkSizeBytes
    let startChunk := offsetBytes / chunkSizeBytes
    let endChunk := (offsetBytes + lengthBytes - 1) / chunkSizeBytes
    let startPage := startChunk / chunksPerPage
    let endPage := endChunk / chunksPerPage
    let pages ← (List.range' startPage (endPage + 1 - startPage)).mapM fun pageNo =>
      m.capturedAllocationPage snapshotID pageNo pageBytes chunkSizeBytes
    return pages.map (resolvedAllocationPage startChunk endChunk chunksPerPage)

/-- The captured page of the clone's snapshot, or one without a mapped chunk. -/
def cloneBasePage (clone : CloneRecord) (pageNo pageBytes chunkSizeBytes : Nat) :
    Except Err AllocationPageRecord :=
  let page := (Table.get? (·.pageNo) pageNo (m.snapshotPages clone.cloneBaseRootID)).getD
    (zeroAllocationPage pageNo pageBytes chunkSizeBytes)
  if page.pageBytes ≠ pageBytes ∨ page.chunkSizeBytes ≠ chunkSizeBytes then
    .error (.other s!"captured allocation page geometry mismatch: root_id={clone.cloneBaseRootID} page_no={pageNo} page_bytes={page.pageBytes} chunk_size_bytes={page.chunkSizeBytes} expected_page_bytes={pageBytes} expected_chunk_size_bytes={chunkSizeBytes}")
  else .ok page

/-- The clone's own page in place of the one of its base, if it has one. -/
def cloneOverlayPage (cloneID : String) (pageBytes chunkSizeBytes : Nat)
    (base : AllocationPageRecord) : Except Err AllocationPageRecord :=
  match Table.get? (·.pageNo) base.pageNo (m.cloneDeltaPages cloneID) with
  | none => .ok base
  | some delta =>
    if delta.pageBytes ≠ pageBytes ∨ delta.chunkSizeBytes ≠ chunkSizeBytes then
      .error (.other s!"clone delta allocation page geometry mismatch: clone_id={cloneID} page_no={delta.pageNo} page_bytes={delta.pageBytes} chunk_size_bytes={delta.chunkSizeBytes} expected_page_bytes={pageBytes} expected_chunk_size_bytes={chunkSizeBytes}")
    else .ok delta

/-- The pages of a clone: its delta over the captured pages of its snapshot, over zeros. -/
def resolveCloneAllocationPages (cloneID : String)
    (offsetBytes lengthBytes pageBytes chunkSizeBytes : Nat) :
    Except Err (List ResolvedAllocationPage) :=
  if lengthBytes = 0 then .ok []
  else if invalidGeometry pageBytes chunkSizeBytes then
    .error (invalidAllocationGeometry pageBytes chunkSizeBytes)
  else do
    let clone ← m.getCloneRecord cloneID
    if clone.state ≠ .available ∧ clone.state ≠ .materializing then
      throw (.other s!"clone \"{cloneID}\" is not available: state={clone.state.name}")
    if clone.allocationPageSizeBytes ≠ pageBytes ∨
        clone.allocationChunkSizeBytes ≠ chunkSizeBytes then
      throw (.other s!"clone allocation page geometry mismatch: clone_id={cloneID} page_bytes={pageBytes} chunk_size_bytes={chunkSizeBytes} expected_page_bytes={clone.allocationPageSizeBytes} expected_chunk_size_bytes={clone.allocationChunkSizeBytes}")
    let chunksPerPage := pageBytes / chunkSizeBytes
    let startChunk := offsetBytes / chunkSizeBytes
    let endChunk := (offsetBytes + lengthBytes - 1) / chunkSizeBytes
    let startPage := startChunk / chunksPerPage
    let endPage := endChunk / chunksPerPage
    let basePages ← (List.range' startPage (endPage + 1 - startPage)).mapM fun pageNo =>
      m.cloneBasePage clone pageNo pageBytes chunkSizeBytes
    let pages ← basePages.mapM (m.cloneOverlayPage cloneID pageBytes chunkSizeBytes)
    return pages.map (resolvedAllocationPage startChunk endChunk chunksPerPage)

end Repository

end Namrbd
