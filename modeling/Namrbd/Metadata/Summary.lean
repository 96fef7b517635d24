import Namrbd.Gateway.VolumeRecords
import Namrbd.Metadata.Membership
import Mathlib.Algebra.Group.Pi.Basic
import Mathlib.Algebra.GroupWithZero.Nat
import Mathlib.Data.Fintype.Pi

/-!
# The cluster summary

Counters over all nodes, volumes, placement transitions and admin operations, in
sixty-four shards. Every transaction that changes one of these records also moves the
counters of its subject's shard. Until a rebuild has been promoted the counters are
left alone. Left out are the fields that no authority record contributes to, and the
digests and timestamps.
-/

namespace Namrbd

open Text (trimSpace)

/-! ## Counters -/

inductive SummaryField where
  | knownNodes
  | activeNodes
  | drainingNodes
  | removedNodes
  | healthyNodes
  | suspectNodes
  | downNodes
  | volumeCount
  | totalBytes
  | allocatedChunks
  | healthyVolumes
  | degradedVolumes
  | repairingVolumes
  | rebalancingVolumes
  | blockedVolumes
  | repairBacklog
  | rebalanceBacklog
  | drainBacklog
  | operationCount
  | pendingOperations
  | runningOperations
  | completedOperations
  | failedOperations
  | canceledOperations
  deriving DecidableEq

/-- The order of `summaryCounterValues`. -/
def summaryFields : List SummaryField :=
  [.knownNodes, .activeNodes, .drainingNodes, .removedNodes, .healthyNodes, .suspectNodes,
    .downNodes, .volumeCount, .totalBytes, .allocatedChunks, .healthyVolumes, .degradedVolumes,
    .repairingVolumes, .rebalancingVolumes, .blockedVolumes, .repairBacklog, .rebalanceBacklog,
    .drainBacklog, .operationCount, .pendingOperations, .runningOperations, .completedOperations,
    .failedOperations, .canceledOperations]

theorem mem_summaryFields (field : SummaryField) : field ∈ summaryFields := by
  cases field <;> decide

instance : Fintype SummaryField := Fintype.ofList summaryFields mem_summaryFields

abbrev SummaryCounters : Type := SummaryField → Nat

/-- One record in the field and nothing else. -/
def countOne (field : SummaryField) : SummaryCounters := Pi.single field 1

inductive SummaryErr where
  | aggregateState
  | subjectIdentity
  | stateCount
  | nodeContribution
  | volumeContribution
  | operationContribution
  | multipleSubjects
  | bytesWithoutVolume
  | counterUnderflow (field : SummaryField)
  | counterOverflow (field : SummaryField)
  deriving DecidableEq

/-- The fields of which one subject counts at most once. -/
def summaryStateFields : List SummaryField :=
  [.activeNodes, .drainingNodes, .removedNodes, .healthyNodes, .suspectNodes, .downNodes,
    .healthyVolumes, .degradedVolumes, .repairingVolumes, .rebalancingVolumes, .blockedVolumes,
    .pendingOperations, .runningOperations, .completedOperations, .failedOperations,
    .canceledOperations]

/-- What the contribution of one record is checked for: a known node has one lifecycle and one
health state, a volume has one status, an operation has one state. -/
def validateSummaryContribution (c : SummaryCounters) : Except SummaryErr Unit := do
  if ∃ field ∈ summaryStateFields, 1 < c field then throw .stateCount
  let lifecycleStates := c .activeNodes + c .drainingNodes + c .removedNodes
  let healthStates := c .healthyNodes + c .suspectNodes + c .downNodes
  if lifecycleStates ≠ c .knownNodes ∨ healthStates ≠ c .knownNodes ∨ 1 < c .knownNodes then
    throw .nodeContribution
  let volumeStates := c .healthyVolumes + c .degradedVolumes + c .repairingVolumes +
    c .rebalancingVolumes + c .blockedVolumes
  if volumeStates ≠ c .volumeCount ∨ 1 < c .volumeCount then throw .volumeContribution
  let operationStates := c .pendingOperations + c .runningOperations + c .completedOperations +
    c .failedOperations + c .canceledOperations
  if operationStates ≠ c .operationCount ∨ 1 < c .operationCount then
    throw .operationContribution
  if 1 < c .knownNodes + c .volumeCount + c .operationCount then throw .multipleSubjects
  if c .volumeCount = 0 ∧ (c .totalBytes ≠ 0 ∨ c .allocatedChunks ≠ 0) then
    throw .bytesWithoutVolume

/-- One field of the loop of `applySummaryCounterDelta`. -/
def applySummaryCounterField (current before after acc : SummaryCounters) (field : SummaryField) :
    Except SummaryErr SummaryCounters :=
  if current field < before field then throw (.counterUnderflow field)
  else
    let base := current field - before field
    if counterBound - 1 - base < after field then throw (.counterOverflow field)
    else return Function.update acc field (base + after field)

/-- Takes `before` out of the counters and puts `after` in, field by field. -/
def applySummaryCounterDelta (current before after : SummaryCounters) :
    Except SummaryErr SummaryCounters :=
  summaryFields.foldlM (applySummaryCounterField current before after) current

/-! ## Contributions -/

/-- A joining node is counted as known and under no lifecycle state. -/
def nodeLifecycleCount : NodeLifecycleState → SummaryCounters
  | .active => countOne .activeNodes
  | .draining => countOne .drainingNodes
  | .removed => countOne .removedNodes
  | _ => 0

def nodeHealthCount : NodeHealthState → SummaryCounters
  | .healthy => countOne .healthyNodes
  | .suspect => countOne .suspectNodes
  | .down => countOne .downNodes
  | _ => 0

/-- What a node adds to the counters. -/
def summaryMembershipContribution : Option MembershipRecord → SummaryCounters
  | none => 0
  | some record =>
    countOne .knownNodes + nodeLifecycleCount record.lifecycleState +
      nodeHealthCount record.healthState

/-- A status other than the declared ones is not counted. -/
def volumeStatusCount : VolumeStatus → SummaryCounters
  | .healthy => countOne .healthyVolumes
  | .degraded => countOne .degradedVolumes
  | .repairing => countOne .repairingVolumes
  | .rebalancing => countOne .rebalancingVolumes
  | .blocked => countOne .blockedVolumes
  | .other _ => 0

/-- The chunks of a volume, the last one counted even when it is not full. -/
def specAllocatedChunks (spec : VolumeSpecRecord) : Nat :=
  if spec.chunkSizeBytes = 0 then 0
  else
    spec.sizeBytes / spec.chunkSizeBytes +
      if spec.sizeBytes % spec.chunkSizeBytes ≠ 0 then 1 else 0

/-- What a volume adds to the counters, by its state and its specification. -/
def summaryVolumeContribution (state : Option VolumeState) (spec : Option VolumeSpecRecord) :
    SummaryCounters :=
  match state with
  | none => 0
  | some state =>
    countOne .volumeCount + volumeStatusCount state.status +
      match spec with
      | none => 0
      | some spec =>
        Pi.single .totalBytes spec.sizeBytes +
          Pi.single .allocatedChunks (specAllocatedChunks spec)

def transitionReasonCount (reason : String) : SummaryCounters :=
  if reason = "repair" then countOne .repairBacklog
  else if reason = "rebalance" then countOne .rebalanceBacklog
  else if reason = "drain" then countOne .drainBacklog
  else 0

/-- A transition that is not finished is backlog. -/
def summaryTransitionContribution : Option PlacementTransitionRecord → SummaryCounters
  | none => 0
  | some record =>
    if record.state = .queued ∨ record.state = .running ∨ record.state = .paused then
      transitionReasonCount (trimSpace record.reason)
    else 0

inductive OperationState where
  | unspecified
  | queued
  | running
  | completed
  | failed
  | canceled
  deriving DecidableEq

/-- The name of the proto value, under which an operation is stored. -/
def OperationState.text : OperationState → String
  | .unspecified => "OPERATION_STATE_UNSPECIFIED"
  | .queued => "OPERATION_STATE_QUEUED"
  | .running => "OPERATION_STATE_RUNNING"
  | .completed => "OPERATION_STATE_COMPLETED"
  | .failed => "OPERATION_STATE_FAILED"
  | .canceled => "OPERATION_STATE_CANCELED"

def operationStateFromString (text : String) : OperationState :=
  if text = OperationState.queued.text then .queued
  else if text = OperationState.running.text then .running
  else if text = OperationState.completed.text then .completed
  else if text = OperationState.failed.text then .failed
  else if text = OperationState.canceled.text then .canceled
  else .unspecified

/-- Knows a pending state and no queued one. -/
def operationStateCount (state : String) : SummaryCounters :=
  if state = "OPERATION_STATE_PENDING" ∨ state = "pending" then countOne .pendingOperations
  else if state = "OPERATION_STATE_RUNNING" ∨ state = "running" then countOne .runningOperations
  else if state = "OPERATION_STATE_COMPLETED" ∨ state = "completed" then
    countOne .completedOperations
  else if state = "OPERATION_STATE_FAILED" ∨ state = "failed" then countOne .failedOperations
  else if state = "OPERATION_STATE_CANCELED" ∨ state = "canceled" then
    countOne .canceledOperations
  else 0

/-- The fields of an operation that identify it and that a request can match; the state is the
text it is stored under. -/
structure StoredOperation where
  operationID : String
  kind : String
  state : String
  targetNodeID : String := ""
  targetVolumeID : String := ""
  phase : String := ""
  requestID : String := ""
  deriving DecidableEq

/-- The operation as callers see it. -/
structure OperationStatus where
  operationID : String
  kind : String
  state : OperationState
  targetNodeID : String := ""
  targetVolumeID : String := ""
  phase : String := ""
  requestID : String := ""
  deriving DecidableEq

def StoredOperation.toProto (op : StoredOperation) : OperationStatus :=
  { op with state := operationStateFromString op.state }

def storedOperationFromProto (op : OperationStatus) : StoredOperation :=
  { op with state := op.state.text }

/-- What an operation adds to the counters. -/
def adminOperationSummaryContribution : Option StoredOperation → SummaryCounters
  | none => 0
  | some op => countOne .operationCount + operationStateCount (trimSpace op.state)

/-! ## Subjects -/

def summaryIdentifierChar (c : Char) : Bool :=
  c.isAlphanum || c = '-' || c = '_' || c = '.' || c = ':'

/-- The identifiers that a change may carry. -/
def validSummaryIdentifier (value : String) : Prop :=
  value ≠ "" ∧ value.length ≤ 160 ∧ value.toList.all summaryIdentifierChar

instance (value : String) : Decidable (validSummaryIdentifier value) :=
  inferInstanceAs (Decidable (_ ∧ _ ∧ _))

/-- What the summary needs of its surroundings: the canonical form of a volume id, the first byte of
the hash of a subject and, as hexadecimal digits, the hash of the parts of a subject. -/
structure SummaryEnv where
  canonicalVolumeID : String → Option String
  hashByte : String → Nat
  subjectDigest : List String → String
  subjectDigest_length : ∀ parts, (subjectDigest parts).length = 64
  subjectDigest_digits : ∀ parts, (subjectDigest parts).toList.all summaryIdentifierChar

inductive SummarySubjectKind where
  | membership
  | volume
  | placementTransition
  | adminOperation
  deriving DecidableEq

def SummarySubjectKind.text : SummarySubjectKind → String
  | .membership => "membership"
  | .volume => "volume"
  | .placementTransition => "placement-transition"
  | .adminOperation => "admin-operation"

def summaryVirtualShardCount : Nat := 64

/-- The name of a record in the summary, with a hash of its trimmed id. -/
def summarySubject (env : SummaryEnv) (kind : SummarySubjectKind) (identity : List String) :
    String :=
  kind.text ++ ":" ++ env.subjectDigest (identity.map trimSpace)

def summaryVirtualShard (env : SummaryEnv) (subjectID : String) : Nat :=
  env.hashByte (trimSpace subjectID) % summaryVirtualShardCount

/-- What the record of a subject added before a write and adds after it. -/
structure SummaryChange where
  subjectID : String
  before : SummaryCounters
  after : SummaryCounters

/-! ## The aggregate -/

inductive SummaryAggregateStatus where
  | ready
  | other (text : String)
  deriving DecidableEq

structure SummaryAggregateState where
  state : SummaryAggregateStatus
  activeEpoch : String
  sourceRevision : Nat
  updatedAtUnix : Int
  deriving DecidableEq

/-- The aggregate is ready and names its epoch. -/
def validateSummaryAggregateState (state : SummaryAggregateState) : Except SummaryErr Unit := do
  if state.state ≠ .ready ∨ ¬validSummaryIdentifier state.activeEpoch ∨ state.sourceRevision = 0 ∨
      state.updatedAtUnix ≤ 0 then
    throw .aggregateState

/-- The aggregate state, if there is one, and the counters of each shard that has a record. -/
structure SummaryAggregate where
  state : Option SummaryAggregateState := none
  shards : Nat → Option SummaryCounters := fun _ => none

namespace SummaryAggregate

/-- The counters of a shard, none of which was written yet in the beginning. -/
def counters (aggregate : SummaryAggregate) (shard : Nat) : SummaryCounters :=
  (aggregate.shards shard).getD 0

variable (env : SummaryEnv) (aggregate : SummaryAggregate)

def validateSummaryDelta (change : SummaryChange) : Except SummaryErr Unit := do
  if ¬validSummaryIdentifier change.subjectID then throw .subjectIdentity
  validateSummaryContribution change.before
  validateSummaryContribution change.after

/-- Moves the counters of the subject's shard, if both contributions pass the checks. -/
def applySummaryAuthorityDelta (change : SummaryChange) : Except SummaryErr SummaryAggregate := do
  validateSummaryDelta change
  let shard := summaryVirtualShard env change.subjectID
  let counters ← applySummaryCounterDelta (aggregate.counters shard) change.before change.after
  return { aggregate with shards := Function.update aggregate.shards shard (some counters) }

/-- `ApplySummarySubjectMutationInTransaction`. `applySummaryRecordMutation` makes the same checks
of the change and the aggregate state once more before it. -/
def applySummarySubjectMutation (change : SummaryChange) : Except SummaryErr SummaryAggregate :=
  if change.before = change.after then return aggregate
  else
    match aggregate.state with
    | none => return aggregate
    | some state => do
      validateSummaryAggregateState state
      let change := { change with subjectID := trimSpace change.subjectID }
      aggregate.applySummaryAuthorityDelta env change

end SummaryAggregate

end Namrbd
