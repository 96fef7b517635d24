import Namrbd.Replication.Executor

/-!
# The writers of the volume record

Failover, expansion and the write commits update the volume record inside one
transaction. `ReconcileVolumeStatus`, `raiseAffectedVolumeStatus` and `ApplyTransition`
read the whole record, work for a while and put their copy back. `taskStep` takes such a
task from one store access to the next. The status an evaluation arrives at is left
open: the actions carry it.
-/

namespace Namrbd

/-! ## Transactions -/

variable (m : Repository)

def Repository.expandVolume (targetSizeBytes : Nat) : Except Err Repository := do
  if targetSizeBytes = 0 then
    throw (.other "target_size_bytes is required")
  let state ← m.getVolumeState
  let spec ← m.getVolumeSpec
  if spec.blockSize = 0 then
    throw (.other "volume has invalid block_size=0")
  if targetSizeBytes % spec.blockSize ≠ 0 then
    throw (.other "target_size_bytes must be aligned to block_size")
  if targetSizeBytes < spec.sizeBytes then
    throw (.other "target_size_bytes must be greater than current size_bytes")
  if targetSizeBytes = spec.sizeBytes then
    return m
  return { m with spec := some { spec with sizeBytes := targetSizeBytes } }.putVolumeState
    { state with revision := state.revision + 1 }

structure PlacementApplyRequest where
  committedRevision : Nat
  allocationPages : List AllocationPageRecord
  normalizeExtentIDs : List Nat
  retiredPhysicalChunkIDs : List Nat := []
  deriving DecidableEq

/-- The effects a placement change applies; it belongs to no mutation operation. -/
def PlacementApplyRequest.effects (req : PlacementApplyRequest) :
    ApplyCommittedWriteEffectsRequest :=
  { committedRevision := req.committedRevision
    allocationPages := req.allocationPages
    normalizeExtentMappings := req.normalizeExtentIDs
    mutationOperationID := ""
    expectedMutationState := .pending
    affectedExtentIDs := []
    affectedPageNos := []
    affectedPageChunkRanges := []
    retiredPhysicalChunkIDs := req.retiredPhysicalChunkIDs
    mutationOperation := none }

def Repository.applyPlacementChanges (req : PlacementApplyRequest) : Except Err Repository := do
  let m ← m.persistCommittedAllocationPages req.effects
  m.normalizeCommittedExtentMappings req.effects

/-- `Service.raiseAffectedVolumeStatus`: `volume` is the copy the caller has read. -/
def raiseAffectedVolumeStatus (volume : VolumeState) (next : VolumeStatus) : Repository :=
  if volume.status = .blocked ∨ volume.status = next then m
  else if next = .degraded ∧ volume.status ≠ .healthy then m
  else m.putVolumeState { volume with status := next }

/-! ## Tasks -/

inductive VolumeTask where
  | idle
  /-- `ReconcileVolumeStatus` has read the record and evaluates the extents. -/
  | reconciling (held : VolumeState)
  /-- `ReconcileNodePlacementHealth` has loaded its context, the record included. -/
  | evaluating (held : VolumeState)
  /-- `ApplyTransition` copies payload and publishes extent mappings. -/
  | applying
  /-- `ApplyTransition` has read the record again and is about to raise its revision. -/
  | publishing (held : VolumeState)
  deriving DecidableEq

inductive VolumeAction where
  | beginReconcile
  | putReconciled (status : VolumeStatus)
  | loadContext
  /-- The failover `ReconcileNodePlacementHealth` commits under the epoch it holds. -/
  | contextFailover (replicaSetID : String) (expectedReplicaSetEpoch : Nat)
      (expectedPrimaryReplicaID newPrimaryReplicaID : String)
  | raise (next : VolumeStatus)
  | beginTransition
  | putMapping (mapping : ExtentMappingRecord)
  | beginPublish
  | materialize (pages : List AllocationPageRecord) (normalizeExtentIDs : List Nat)
  | publish
  | failover (req : CommitPrimaryFailoverRequest)
  | expand (targetSizeBytes : Nat)
  | commit (cfg : ExecutorConfig) (now : Nat) (exec : WriteExecution) (alloc : AllocationCommit)
  | applyEffects (req : ApplyCommittedWriteEffectsRequest)
  | abandon

def Repository.orUnchanged : Except Err Repository → Repository
  | .ok m' => m'
  | .error _ => m

def readVolume (next : VolumeState → VolumeTask) : Repository × VolumeTask :=
  match m.volume with
  | none => (m, .idle)
  | some state => (m, next state)

/-- One store access of a task; `none` where the task is not ready for it. -/
def taskStep : VolumeAction → VolumeTask → Option (Repository × VolumeTask)
  | .beginReconcile, .idle => some (readVolume m .reconciling)
  | .putReconciled status, .reconciling held =>
    some (m.putVolumeState { held with status }, .idle)
  | .loadContext, .idle => some (readVolume m .evaluating)
  | .contextFailover replicaSetID epoch expectedPrimary newPrimary, .evaluating held =>
    match m.commitPrimaryFailover
        ⟨replicaSetID, held.epoch, epoch, expectedPrimary, newPrimary⟩ with
    | .error _ => some (m, .idle)
    | .ok m => some (readVolume m .evaluating)
  | .raise next, .evaluating held => some (raiseAffectedVolumeStatus m held next, .idle)
  | .beginTransition, .idle => some (m, .applying)
  | .putMapping mapping, .applying => some (m.putExtentMapping mapping, .applying)
  | .beginPublish, .applying => some (readVolume m .publishing)
  | .materialize pages normalizeExtentIDs, .publishing held =>
    match m.applyPlacementChanges ⟨held.revision + 1, pages, normalizeExtentIDs, []⟩ with
    | .error _ => some (m, .idle)
    | .ok m => some (m, .publishing held)
  | .publish, .publishing held =>
    some (m.putVolumeState { held with revision := held.revision + 1 }, .idle)
  | .failover req, .idle => some (m.orUnchanged (m.commitPrimaryFailover req), .idle)
  | .expand targetSizeBytes, .idle =>
    some (m.orUnchanged (m.expandVolume targetSizeBytes), .idle)
  | .commit cfg now exec alloc, .idle =>
    some ((commitMetadata cfg now m exec alloc).2.repository, .idle)
  | .applyEffects req, .idle => some (m.orUnchanged (m.applyCommittedWriteEffects req), .idle)
  | .abandon, _ => some (m, .idle)
  | _, _ => none

/-- Tasks that run over one repository. -/
structure VolumeTasks (ι : Type) where
  repository : Repository
  task : ι → VolumeTask

/-- One access of a task. -/
def VolumeTasks.step {ι : Type} [DecidableEq ι] (s : VolumeTasks ι) (i : ι) (a : VolumeAction) :
    Option (VolumeTasks ι) :=
  (taskStep s.repository a (s.task i)).map fun (repository, task) =>
    { repository, task := Function.update s.task i task }

def VolumeTasks.steps {ι : Type} [DecidableEq ι] (s : VolumeTasks ι) :
    List (ι × VolumeAction) → Option (VolumeTasks ι)
  | [] => some s
  | (i, a) :: rest => (s.step i a).bind fun s => s.steps rest

end Namrbd
