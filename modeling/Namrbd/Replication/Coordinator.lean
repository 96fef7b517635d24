import Namrbd.Metadata.Resolve

/-!
# Planning reads and writes

The coordinator plans one extent at a time: which replicas take part, which
acknowledgements are needed, and which allocation pages the request touches.
While a snapshot of the volume exists, writes copy on write and remember the
pages they were planned from as their base; writes to a clone always do.
-/

namespace Namrbd

structure ReplicaTarget where
  nodeID : String
  replicaID : String
  role : ReplicaRole
  failureDomain : String
  deriving DecidableEq

/-- What a write does with an extent: its pages, its replicas and the acknowledgements it needs. -/
structure ExtentWritePlan where
  extent : ExtentMappingRecord
  replicaSetID : String
  primary : ReplicaTarget
  writeTargets : List ReplicaTarget
  requiredAcks : Nat
  replicaSetEpoch : Nat
  allocationPages : List ResolvedAllocationPage
  chunkSizeBytes : Nat
  copyOnWrite : Bool := false
  baseAllocations : List ResolvedAllocationPage := []
  deriving DecidableEq

/-- Where an extent is read, the first replica to be asked and those after it. -/
structure ExtentReadPlan where
  extent : ExtentMappingRecord
  replicaSetID : String
  preferred : ReplicaTarget
  fallbacks : List ReplicaTarget
  allocationPages : List ResolvedAllocationPage
  chunkSizeBytes : Nat
  deriving DecidableEq

/-! ## Replica targets -/

def toTarget (replica : ReplicaDescriptor) : ReplicaTarget :=
  { nodeID := replica.nodeID, replicaID := replica.replicaID, role := replica.role,
    failureDomain := replica.failureDomain }

/-- A suspect node is still used. -/
def healthy (node : NodeMembershipRecord) : Bool :=
  node.healthState == .unset || node.healthState == .healthy || node.healthState == .suspect

/-- A replica on an unknown node counts as writable. -/
def replicaWritable (nodes : List NodeMembershipRecord) (replica : ReplicaDescriptor) : Bool :=
  match Table.get? (·.nodeID) replica.nodeID nodes with
  | none => true
  | some node =>
    (node.lifecycleState == .unset || node.lifecycleState == .active) && healthy node

/-- A replica on an unknown node counts as readable. -/
def replicaReadable (nodes : List NodeMembershipRecord) (replica : ReplicaDescriptor) : Bool :=
  match Table.get? (·.nodeID) replica.nodeID nodes with
  | none => true
  | some node =>
    !(node.lifecycleState == .removed || node.lifecycleState == .joining) && healthy node

/-- The first replica that is the recorded primary or has the primary's role. -/
def findPrimary (primaryReplicaID : String) (replicas : List ReplicaDescriptor) :
    Option ReplicaTarget :=
  if primaryReplicaID = "" then none
  else (replicas.find? fun replica =>
    decide (replica.replicaID = primaryReplicaID ∨ replica.role = .primary)).map toTarget

/-- The replicas that can be written, if they are enough for a quorum with the primary. -/
def buildWriteTargets (replicaSet : ReplicaSetState) (nodes : List NodeMembershipRecord) :
    Except Err (ReplicaTarget × List ReplicaTarget) :=
  if replicaSet.replicas = [] then
    .error (.other s!"replica set \"{replicaSet.replicaSetID}\" has no replicas")
  else
    match replicaSet.replicas.filter (replicaWritable nodes) with
    | [] => .error (.other s!"replica set \"{replicaSet.replicaSetID}\" has no writable replicas")
    | candidate :: candidates =>
      let primary := (findPrimary replicaSet.primaryReplicaID (candidate :: candidates)).getD
        (toTarget candidate)
      let others := (candidate :: candidates).filter fun replica =>
        replica.replicaID ≠ primary.replicaID
      .ok (primary, primary :: others.map toTarget)

/-- The replicas that can be read, the primary first. -/
def buildReadTargets (replicaSet : ReplicaSetState) (nodes : List NodeMembershipRecord) :
    Except Err (ReplicaTarget × List ReplicaTarget) :=
  match replicaSet.replicas.filter (replicaReadable nodes) with
  | [] => .error (.other s!"replica set \"{replicaSet.replicaSetID}\" has no readable replicas")
  | candidate :: candidates => do
    let (primary, targets) ←
      buildWriteTargets { replicaSet with replicas := candidate :: candidates } []
    return (primary, targets.tail)

/-! ## Plans -/

/-- The pages of a plan that an extent reaches into. -/
def overlapAllocationPagesForExtent (pages : List ResolvedAllocationPage)
    (extent : ExtentMappingRecord) : List ResolvedAllocationPage :=
  if extent.lengthBytes = 0 then []
  else pages.filter fun page =>
    decide (extent.logicalOffset < page.rangeEndChunk * page.page.chunkSizeBytes ∧
      page.rangeStartChunk * page.page.chunkSizeBytes < extent.endOffset)

variable (m : Repository)

/-- Some snapshot of the volume still needs the chunks it captured. -/
def sourceWriteRequiresCopyOnWrite : Bool :=
  m.listSnapshotRecords.any fun record =>
    record.state == .creating || record.state == .available || record.state == .deleting

/-- The resolved pages of a request; a request without geometry has none. -/
def resolvePagesForPlan (offsetBytes lengthBytes pageBytes chunkSizeBytes : Nat) :
    Except Err (List ResolvedAllocationPage) :=
  if 0 < pageBytes ∧ 0 < chunkSizeBytes then
    m.resolveAllocationPages offsetBytes lengthBytes pageBytes chunkSizeBytes
  else .ok []

def forExtent {α : Type} (extentID : Nat) : Except Err α → Except Err α
  | .error (.other message) => .error (.other s!"extent {extentID}: {message}")
  | result => result

def planExtentWrite (pages : List ResolvedAllocationPage) (chunkSizeBytes : Nat)
    (copyOnWrite : Bool) (placement : ResolvedExtentPlacement) : Except Err ExtentWritePlan := do
  let extent := placement.extentMapping
  let (primary, targets) ←
    forExtent extent.extentID (buildWriteTargets placement.replicaSet placement.nodes)
  if targets.length < placement.replicaSet.writeQuorum then
    throw (.other s!"extent {extent.extentID}: insufficient replicas for write quorum")
  let extentPages := overlapAllocationPagesForExtent pages extent
  return {
    extent := extent
    replicaSetID := placement.replicaSet.replicaSetID
    primary := primary
    writeTargets := targets
    requiredAcks := placement.replicaSet.writeQuorum
    replicaSetEpoch := placement.replicaSet.epoch
    allocationPages := extentPages
    chunkSizeBytes := chunkSizeBytes
    copyOnWrite := copyOnWrite
    baseAllocations := if copyOnWrite then extentPages else [] }

/-- Plans the write of a range, extent by extent. -/
def planWrite (offsetBytes lengthBytes pageBytes chunkSizeBytes : Nat) :
    Except Err (List ExtentWritePlan) := do
  let resolved ← m.resolveExtentPlacements offsetBytes lengthBytes
  let pages ← resolvePagesForPlan m offsetBytes lengthBytes pageBytes chunkSizeBytes
  resolved.mapM (planExtentWrite pages chunkSizeBytes (sourceWriteRequiresCopyOnWrite m))

def planExtentRead (pages : List ResolvedAllocationPage) (chunkSizeBytes : Nat)
    (placement : ResolvedExtentPlacement) : Except Err ExtentReadPlan := do
  let extent := placement.extentMapping
  let (primary, fallbacks) ←
    forExtent extent.extentID (buildReadTargets placement.replicaSet placement.nodes)
  return {
    extent := extent
    replicaSetID := placement.replicaSet.replicaSetID
    preferred := primary
    fallbacks := fallbacks
    allocationPages := overlapAllocationPagesForExtent pages extent
    chunkSizeBytes := chunkSizeBytes }

/-- Plans the read of a range of the volume. -/
def planRead (offsetBytes lengthBytes pageBytes chunkSizeBytes : Nat) :
    Except Err (List ExtentReadPlan) := do
  let resolved ← m.resolveExtentPlacements offsetBytes lengthBytes
  let pages ← resolvePagesForPlan m offsetBytes lengthBytes pageBytes chunkSizeBytes
  resolved.mapM (planExtentRead pages chunkSizeBytes)

def planSnapshotRead (snapshotID : String)
    (offsetBytes lengthBytes pageBytes chunkSizeBytes : Nat) :
    Except Err (List ExtentReadPlan) := do
  let resolved ← m.resolveExtentPlacements offsetBytes lengthBytes
  let pages ← if 0 < pageBytes ∧ 0 < chunkSizeBytes then
      m.resolveSnapshotAllocationPages snapshotID offsetBytes lengthBytes pageBytes chunkSizeBytes
    else pure []
  resolved.mapM (planExtentRead pages chunkSizeBytes)

/-- A request without geometry gets no pages. -/
def resolveClonePagesForPlan (cloneID : String)
    (offsetBytes lengthBytes pageBytes chunkSizeBytes : Nat) :
    Except Err (List ResolvedAllocationPage) :=
  if 0 < pageBytes ∧ 0 < chunkSizeBytes then
    m.resolveCloneAllocationPages cloneID offsetBytes lengthBytes pageBytes chunkSizeBytes
  else .ok []

/-- A write to a clone always copies, and starts from the pages of the clone. -/
def planCloneWrite (cloneID : String) (offsetBytes lengthBytes pageBytes chunkSizeBytes : Nat) :
    Except Err (List ExtentWritePlan) := do
  let resolved ← m.resolveExtentPlacements offsetBytes lengthBytes
  let pages ← resolveClonePagesForPlan m cloneID offsetBytes lengthBytes pageBytes chunkSizeBytes
  resolved.mapM (planExtentWrite pages chunkSizeBytes true)

def planCloneRead (cloneID : String) (offsetBytes lengthBytes pageBytes chunkSizeBytes : Nat) :
    Except Err (List ExtentReadPlan) := do
  let resolved ← m.resolveExtentPlacements offsetBytes lengthBytes
  let pages ← resolveClonePagesForPlan m cloneID offsetBytes lengthBytes pageBytes chunkSizeBytes
  resolved.mapM (planExtentRead pages chunkSizeBytes)

end Namrbd
