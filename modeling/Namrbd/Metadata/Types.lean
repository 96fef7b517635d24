import Mathlib.Data.String.Basic
import Mathlib.Order.Defs.LinearOrder

/-!
# Metadata records

The records of the cluster metadata store for one volume. Every key of the
store carries the volume id, so the volume id itself is not a field here; the
unsigned integers are natural numbers.
-/

namespace Namrbd

/-- The sentinel errors callers test for, and the remaining errors by their text. -/
inductive Err where
  | notFound
  | casConflict
  | idempotencyConflict
  | intentPending
  | other (message : String)
  deriving DecidableEq

/-- The text of an error as callers print it. -/
def Err.message : Err → String
  | .notFound => "not found"
  | .casConflict => "cas conflict"
  | .idempotencyConflict => "idempotency record conflicts with current writer context"
  | .intentPending => "idempotency intent is already pending"
  | .other message => message

abbrev Byte := UInt8

/-! ## Enumerations -/

inductive ReplicaRole where
  | primary
  | secondary
  deriving DecidableEq

inductive IdempotencyResultState where
  | pending
  | committed
  | failed
  deriving DecidableEq

/-- `unset` is the empty string, which counts as active. -/
inductive NodeLifecycleState where
  | unset
  | joining
  | active
  | draining
  | removed
  deriving DecidableEq

/-- `unset` is the empty string, which counts as healthy. -/
inductive NodeHealthState where
  | unset
  | healthy
  | suspect
  | down
  deriving DecidableEq

inductive PlacementTransitionState where
  | queued
  | running
  | paused
  | completed
  | failed
  deriving DecidableEq

/-- What an extent of an allocation page says of its chunks. -/
inductive AllocationKind where
  | zero
  | data
  | shared
  deriving DecidableEq

inductive MutationOperationState where
  | pending
  | running
  | committed
  | failed
  | rolledBack
  deriving DecidableEq

inductive SnapshotState where
  | creating
  | available
  | deleting
  | deleted
  | failed
  deriving DecidableEq

/-- The text a state is stored under. -/
def SnapshotState.name : SnapshotState → String
  | .creating => "creating"
  | .available => "available"
  | .deleting => "deleting"
  | .deleted => "deleted"
  | .failed => "failed"

inductive CloneState where
  | creating
  | available
  | materializing
  | materialized
  | deleting
  | deleted
  | failed
  deriving DecidableEq

def CloneState.name : CloneState → String
  | .creating => "creating"
  | .available => "available"
  | .materializing => "materializing"
  | .materialized => "materialized"
  | .deleting => "deleting"
  | .deleted => "deleted"
  | .failed => "failed"

/-- The declared statuses, and any other text, for a record may hold one. -/
inductive VolumeStatus where
  | healthy
  | degraded
  | repairing
  | rebalancing
  | blocked
  | other (text : String)
  deriving DecidableEq

/-! ## Volume, placement and membership records -/

/-- The record that fences writers: every commit compares the epoch or the revision. -/
structure VolumeState where
  epoch : Nat
  revision : Nat
  status : VolumeStatus := .healthy
  deriving DecidableEq

/-- The size of a volume and the geometry of its allocation. -/
structure VolumeSpecRecord where
  sizeBytes : Nat
  blockSize : Nat
  extentPageBytes : Nat := 0
  chunkSizeBytes : Nat := 0
  deriving DecidableEq

/-- A range of the volume, where it is placed, and the first chunk id it owns (none if it is 0). -/
structure ExtentMappingRecord where
  extentID : Nat
  logicalOffset : Nat
  lengthBytes : Nat
  chunkID : Nat
  placementRef : String
  revision : Nat
  deriving DecidableEq

def ExtentMappingRecord.endOffset (extent : ExtentMappingRecord) : Nat :=
  extent.logicalOffset + extent.lengthBytes

structure ReplicaDescriptor where
  nodeID : String
  replicaID : String
  role : ReplicaRole
  failureDomain : String
  deriving DecidableEq

/-- The replicas of a placement and the acknowledgements that a write needs. -/
structure ReplicaSetState where
  replicaSetID : String
  placementRef : String
  epoch : Nat
  replicas : List ReplicaDescriptor
  primaryReplicaID : String
  writeQuorum : Nat
  deriving DecidableEq

structure NodeMembershipRecord where
  nodeID : String
  lifecycleState : NodeLifecycleState
  healthState : NodeHealthState
  deriving DecidableEq

/-! ## Allocation pages -/

/-- The encryption metadata that a stored header and its message have alike. -/
structure PayloadEncryptionFields where
  (cipherSuite encryptionScope securityPolicyID keyProviderID dataKeyID keyID objectID : String)
  (backendType nonceHex nonceSource aadDigest stripeID authTagHex : String)
  (policyGeneration keyVersion keyGeneration logicalOffset plaintextLength ciphertextLength : Nat)
  deriving DecidableEq

structure PayloadEncryptionHeader extends PayloadEncryptionFields where
  headerVersion : Int
  shardID : Nat
  shardIDPresent : Bool
  authTagBytes : Int
  deriving DecidableEq

/-- A run of chunks of a page. The ids of a data run go up by one from chunk to chunk. -/
structure AllocationExtentRecord where
  logicalChunkStart : Nat
  chunkCount : Nat
  kind : AllocationKind
  physicalChunkStart : Nat := 0
  encryption : Option PayloadEncryptionHeader := none
  deriving DecidableEq

/-- A part of the chunk map. The revision is what a page-scoped commit compares. -/
structure AllocationPageRecord where
  pageNo : Nat
  pageBytes : Nat
  chunkSizeBytes : Nat
  revision : Nat := 0
  extents : List AllocationExtentRecord
  deriving DecidableEq

/-- The chunks of a page, counted from its first one, that a write has touched. -/
structure AllocationPageChunkRangeRecord where
  pageNo : Nat
  startChunk : Nat
  endChunk : Nat
  deriving DecidableEq

/-! ## Intents, operations, snapshots and transitions -/

/-- The intent of a write until it commits, and its result afterwards. -/
structure IdempotencyRecord where
  idempotencyKey : String
  attachmentID : String
  generation : Nat
  epoch : Nat
  revision : Nat
  operation : String
  resultState : IdempotencyResultState
  deriving DecidableEq

structure MutationPageWindowRecord where
  extentID : Nat
  startPageNo : Nat
  endPageNo : Nat
  dataBytes : Nat
  dataChunks : Nat
  deriving DecidableEq

/-- What a write or a sweep has under way, for whoever takes it up after a crash. -/
structure MutationOperationRecord where
  operationID : String
  kind : String
  state : MutationOperationState
  placementRevision : Nat := 0
  allocationRevision : Nat := 0
  writerFencingEpoch : Nat := 0
  idempotencyKey : String := ""
  affectedExtentIDs : List Nat := []
  affectedPageNos : List Nat := []
  completedPageNos : List Nat := []
  retryPageWindows : List MutationPageWindowRecord := []
  retiredPhysicalChunkIDs : List Nat := []
  errorMessage : String := ""
  deriving DecidableEq

/-- A snapshot. Its captured pages are kept apart. -/
structure SnapshotRecord where
  snapshotID : String
  state : SnapshotState
  cutVolumeRevision : Nat
  allocationChunkSizeBytes : Nat
  allocationPageSizeBytes : Nat
  errorMessage : String := ""
  sourceSizeBytes : Nat := 0
  cloneReferenceCount : Nat := 0
  deriving DecidableEq

/-- A clone: the snapshot whose pages it starts from, and its own pages on top. -/
structure CloneRecord where
  cloneID : String
  sourceSnapshotID : String
  cloneBaseRootID : String
  state : CloneState
  allocationChunkSizeBytes : Nat
  allocationPageSizeBytes : Nat
  sizeBytes : Nat := 0
  deltaPageCount : Nat := 0
  deltaObjectCount : Nat := 0
  materializedVolumeID : String := ""
  errorMessage : String := ""
  deriving DecidableEq

/-- The volume id is a field here: maintenance work is kept across volumes. -/
structure PlacementTransitionRecord where
  volumeID : String
  placementRef : String
  state : PlacementTransitionState
  reason : String
  currentReplicaSetID : String
  targetReplicaSetID : String
  startedAtUnix : Int := 0
  attempt : Nat := 0
  deriving DecidableEq

end Namrbd
