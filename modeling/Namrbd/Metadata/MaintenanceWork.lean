import Mathlib.Logic.Function.Basic
import Mathlib.Data.Int.Notation
import Namrbd.Metadata.Types
import Namrbd.Lib.Text
import Namrbd.Lib.Trace

/-!
# Maintenance work

Each placement transition that is queued or running has a work record, which workers
claim for a time under a lease. Ready and leased records are listed in a work index, and
every change of a part of the index counts up the list revision of that part. Every call
here is one transaction. The clock counts nanoseconds.
-/

namespace Namrbd

open Text (trimSpace)

/-! ## Records -/

inductive MaintenanceErr where
  | notFound
  | casConflict
  | indexInvalid (detail : String)
  | indexChanged (detail : String)
  | leaseHeld
  | leaseLost
  | stale
  deriving DecidableEq

inductive MaintenanceWorkState where
  | ready
  | leased
  | paused
  | failed
  | completed
  deriving DecidableEq

/-- `δ` is the type of digests. -/
structure MaintenanceWorkRecord (δ : Type) where
  schemaVersion : Nat
  workID : String
  reason : String
  state : MaintenanceWorkState
  priority : Nat
  virtualShard : Nat
  volumeID : String
  placementRef : String
  currentReplicaSetID : String
  targetReplicaSetID : String
  expectedVolumeEpoch : Nat
  expectedCurrentReplicaEpoch : Nat
  expectedTargetReplicaEpoch : Nat
  transitionDigest : δ
  workRevision : Nat
  leaseOwner : String := ""
  leaseGeneration : Nat := 0
  leaseExpiresAtUnix : Nat := 0
  startedAtUnix : Int
  updatedAtUnix : Nat
  workDigest : δ
  deriving DecidableEq

/-- The entry that lists a work record which is ready or leased. -/
structure MaintenanceWorkIndexRecord (δ : Type) where
  schemaVersion : Nat
  workID : String
  reason : String
  state : MaintenanceWorkState
  priority : Nat
  virtualShard : Nat
  volumeID : String
  placementRef : String
  workRevision : Nat
  leaseExpiresAtUnix : Nat
  workDigest : δ
  indexDigest : δ
  deriving DecidableEq

/-- Counts the changes of a part of the index, for readers of a listing. -/
structure MaintenanceWorkListRevisionState (δ : Type) where
  schemaVersion : Nat
  reason : String
  state : MaintenanceWorkState
  shard : Nat
  revision : Nat := 0
  updatedAtUnix : Nat := 0
  stateDigest : δ
  deriving DecidableEq

inductive DrainWorkState where
  | pending
  | completed
  deriving DecidableEq

/-- What the drain of a node has to move of one placement. -/
structure DrainWorkRecord (δ : Type) where
  schemaVersion : Nat
  operationID : String
  nodeID : String
  volumeID : String
  placementRef : String
  replicaSetID : String
  extentCount : Nat
  dataBytes : Nat
  state : DrainWorkState
  updatedAtUnix : Nat
  workDigest : δ
  deriving DecidableEq

/-- How far the drain of a node has come: what is enqueued, and what is left of it. -/
structure DrainProgressRecord (δ : Type) where
  schemaVersion : Nat
  nodeID : String
  operationID : String
  sourceCursor : String
  extentCursor : String
  enqueueCompleted : Bool
  totalExtents : Nat
  remainingExtents : Nat
  totalBytes : Nat
  remainingBytes : Nat
  sampleRef : String
  updatedAtUnix : Nat
  progressDigest : δ
  deriving DecidableEq

/-- What a digest is taken of. -/
inductive SummaryValue (δ : Type) where
  | transition (volumeID placementRef reason currentReplicaSetID targetReplicaSetID : String)
      (startedAtUnix : Int)
  | work (record : MaintenanceWorkRecord δ)
  | workIndex (record : MaintenanceWorkIndexRecord δ)
  | listRevision (record : MaintenanceWorkListRevisionState δ)
  | drainWork (record : DrainWorkRecord δ)
  | drainProgress (record : DrainProgressRecord δ)

/-- The volume ids and hash functions of other packages. -/
structure MaintenanceEnv (δ : Type) where
  canonicalVolumeID : String → Option String
  canonicalVolumeID_empty : canonicalVolumeID "" = none
  hashByte : String → Nat
  emptyDigest : δ
  digestSummaryValue : SummaryValue δ → δ
  digestSummaryValue_ne_empty : ∀ v, digestSummaryValue v ≠ emptyDigest

def maintenanceWorkSchemaVersion : Nat := 2

def maintenanceWorkListRevisionSchemaVersion : Nat := 2

def drainIndexSchemaVersion : Nat := 1

def maintenanceWorkIndexShardCount : Nat := 32

def maintenanceWorkLegacyShardCount : Nat := 64

def clockSecond : Nat := 1000000000

def maintenanceWorkLeaseMaximum : Nat := 3600 * clockSecond

/-- The seconds of a time in nanoseconds. -/
def unix (now : Nat) : Nat := now / clockSecond

/-- The number of values of an unsigned 64-bit counter. -/
def counterBound : Nat := 18446744073709551616

/-- Revisions are 64-bit numbers. -/
def countUp (n : Nat) : Nat := (n + 1) % counterBound

/-- A counter for which 0 means that there is none. -/
def countUpNonzero (n : Nat) : Nat :=
  if countUp n = 0 then 1 else countUp n

/-! ## Names and checks -/

def validMaintenanceWorkReason (reason : String) : Prop :=
  reason = "repair" ∨ reason = "rebalance" ∨ reason = "drain"

instance (reason : String) : Decidable (validMaintenanceWorkReason reason) :=
  inferInstanceAs (Decidable (_ ∨ _))

/-- The states that are listed. -/
def indexedMaintenanceWorkState (state : MaintenanceWorkState) : Prop :=
  state = .ready ∨ state = .leased

instance (state : MaintenanceWorkState) : Decidable (indexedMaintenanceWorkState state) :=
  inferInstanceAs (Decidable (_ ∨ _))

def maintenanceWorkStateFromTransition : PlacementTransitionState → Option MaintenanceWorkState
  | .completed => some .completed
  | .paused => some .paused
  | .failed => some .failed
  | _ => none

/-- Drains come before repairs. -/
def maintenanceWorkPriority (reason : String) : Nat :=
  if reason = "drain" then 0 else if reason = "repair" then 1 else 2

def PlacementTransitionRecord.active (transition : PlacementTransitionRecord) : Prop :=
  transition.state = .queued ∨ transition.state = .running

instance (transition : PlacementTransitionRecord) : Decidable transition.active :=
  inferInstanceAs (Decidable (_ ∨ _))

structure MaintenanceWorkIndexKey where
  reason : String
  state : MaintenanceWorkState
  virtualShard : Nat
  priority : Nat
  workID : String
  deriving DecidableEq

structure MaintenanceWorkListRevisionKey where
  reason : String
  state : MaintenanceWorkState
  shard : Nat
  deriving DecidableEq

section Env

variable {δ : Type} (env : MaintenanceEnv δ) (volumeID : String)

/-- The canonical id, or the id as it is spelled where there is none. -/
def maintenanceIndexVolumeID : String :=
  (env.canonicalVolumeID (trimSpace volumeID)).getD (trimSpace volumeID)

def mustCanonicalVolumeID : String :=
  (env.canonicalVolumeID volumeID).getD volumeID

/-- The first byte of a hash picks the shard. -/
def metadataVirtualShard (subjectID : String) (shardCount : Nat) : Nat :=
  env.hashByte (trimSpace subjectID) % shardCount

def maintenanceWorkID (placementRef : String) : String :=
  maintenanceIndexVolumeID env volumeID ++ ":" ++ trimSpace placementRef

def maintenanceWorkIndexVirtualShard (workID : String) : Nat :=
  metadataVirtualShard env (trimSpace workID) maintenanceWorkIndexShardCount

/-- The escaped work id is the key; escaping is one to one. -/
def maintenanceWorkKey (workID : String) : String :=
  trimSpace workID

def maintenanceWorkIndexKey (index : MaintenanceWorkIndexRecord δ) : MaintenanceWorkIndexKey where
  reason := index.reason
  state := index.state
  virtualShard := index.virtualShard
  priority := index.priority
  workID := trimSpace index.workID

def placementTransitionKey (placementRef : String) : String × String :=
  (mustCanonicalVolumeID env volumeID, placementRef)

def replicaSetKey (replicaSetID : String) : String × String :=
  (mustCanonicalVolumeID env volumeID, replicaSetID)

def drainWorkTransitionKey (placementRef : String) : String × String :=
  (trimSpace (maintenanceIndexVolumeID env volumeID), trimSpace placementRef)

def drainWorkKey (record : DrainWorkRecord δ) : String × String × String × String :=
  (trimSpace record.nodeID, trimSpace record.operationID, trimSpace record.volumeID,
    trimSpace record.placementRef)

def drainProgressKey (nodeID : String) : String :=
  trimSpace nodeID

def maintenanceTransitionReadyEligible (transition : PlacementTransitionRecord) : Prop :=
  maintenanceIndexVolumeID env transition.volumeID ≠ "" ∧
    trimSpace transition.placementRef ≠ "" ∧
    validMaintenanceWorkReason transition.reason ∧
    trimSpace transition.currentReplicaSetID ≠ "" ∧
    trimSpace transition.targetReplicaSetID ≠ ""

instance (transition : PlacementTransitionRecord) :
    Decidable (maintenanceTransitionReadyEligible env transition) :=
  inferInstanceAs (Decidable (_ ∧ _))

/-- The part of a transition that makes it another piece of work when it changes. -/
def digestMaintenanceWorkTransition (transition : PlacementTransitionRecord) : δ :=
  env.digestSummaryValue (.transition transition.volumeID transition.placementRef
    transition.reason transition.currentReplicaSetID transition.targetReplicaSetID
    transition.startedAtUnix)

/-- A digest is taken of the record without its digest. -/
def digestMaintenanceWorkRecord (work : MaintenanceWorkRecord δ) : δ :=
  env.digestSummaryValue (.work { work with workDigest := env.emptyDigest })

def digestMaintenanceWorkIndexRecord (index : MaintenanceWorkIndexRecord δ) : δ :=
  env.digestSummaryValue (.workIndex { index with indexDigest := env.emptyDigest })

def digestMaintenanceWorkListRevisionState (state : MaintenanceWorkListRevisionState δ) : δ :=
  env.digestSummaryValue (.listRevision { state with stateDigest := env.emptyDigest })

def digestDrainWorkRecord (record : DrainWorkRecord δ) : δ :=
  env.digestSummaryValue (.drainWork { record with workDigest := env.emptyDigest })

def digestDrainProgressRecord (record : DrainProgressRecord δ) : δ :=
  env.digestSummaryValue (.drainProgress { record with progressDigest := env.emptyDigest })

namespace MaintenanceWorkRecord

variable (work : MaintenanceWorkRecord δ)

/-- The record with its digest. -/
def sign : MaintenanceWorkRecord δ :=
  { work with workDigest := digestMaintenanceWorkRecord env work }

/-- The parts that the id and the reason determine. -/
def IdentityValid : Prop :=
  work.schemaVersion = maintenanceWorkSchemaVersion ∧ work.workID ≠ "" ∧
    validMaintenanceWorkReason work.reason ∧
    work.priority = maintenanceWorkPriority work.reason ∧
    work.virtualShard = maintenanceWorkIndexVirtualShard env work.workID ∧
    work.volumeID ≠ "" ∧ work.placementRef ≠ "" ∧ work.currentReplicaSetID ≠ "" ∧
    work.targetReplicaSetID ≠ "" ∧ work.expectedVolumeEpoch ≠ 0 ∧
    work.expectedCurrentReplicaEpoch ≠ 0 ∧ work.expectedTargetReplicaEpoch ≠ 0 ∧
    work.transitionDigest ≠ env.emptyDigest ∧ 0 < work.startedAtUnix

/-- Exactly the leased records have a lease. -/
def LeaseValid : Prop :=
  work.state ≠ .leased ∧ work.leaseOwner = "" ∧ work.leaseExpiresAtUnix = 0 ∨
    work.state = .leased ∧ work.leaseOwner ≠ "" ∧ 0 < work.leaseGeneration ∧
      0 < work.leaseExpiresAtUnix

/-- `validateMaintenanceWorkRecord` passes. -/
def Valid : Prop :=
  work.IdentityValid env ∧ work.LeaseValid ∧ work.workRevision ≠ 0 ∧ 0 < work.updatedAtUnix ∧
    work.workDigest = digestMaintenanceWorkRecord env work

instance [DecidableEq δ] (work : MaintenanceWorkRecord δ) : Decidable (work.IdentityValid env) :=
  inferInstanceAs (Decidable (_ ∧ _))

instance (work : MaintenanceWorkRecord δ) : Decidable work.LeaseValid :=
  inferInstanceAs (Decidable (_ ∨ _))

instance [DecidableEq δ] (work : MaintenanceWorkRecord δ) : Decidable (work.Valid env) :=
  inferInstanceAs (Decidable (_ ∧ _))

end MaintenanceWorkRecord

/-- The entry that lists the record. -/
def maintenanceWorkIndexRecord (work : MaintenanceWorkRecord δ) : MaintenanceWorkIndexRecord δ :=
  let index : MaintenanceWorkIndexRecord δ :=
    { schemaVersion := maintenanceWorkSchemaVersion
      workID := work.workID
      reason := work.reason
      state := work.state
      priority := work.priority
      virtualShard := work.virtualShard
      volumeID := work.volumeID
      placementRef := work.placementRef
      workRevision := work.workRevision
      leaseExpiresAtUnix := work.leaseExpiresAtUnix
      workDigest := work.workDigest
      indexDigest := env.emptyDigest }
  { index with indexDigest := digestMaintenanceWorkIndexRecord env index }

/-- `validateMaintenanceWorkIndexRecord` passes. -/
def MaintenanceWorkIndexRecord.Valid (index : MaintenanceWorkIndexRecord δ) : Prop :=
  index.schemaVersion = maintenanceWorkSchemaVersion ∧ index.workID ≠ "" ∧
    validMaintenanceWorkReason index.reason ∧ indexedMaintenanceWorkState index.state ∧
    index.priority = maintenanceWorkPriority index.reason ∧
    index.virtualShard = maintenanceWorkIndexVirtualShard env index.workID ∧
    index.volumeID ≠ "" ∧ index.placementRef ≠ "" ∧ index.workRevision ≠ 0 ∧
    index.workDigest ≠ env.emptyDigest ∧
    (index.state = .ready → index.leaseExpiresAtUnix = 0) ∧
    (index.state = .leased → 0 < index.leaseExpiresAtUnix) ∧
    index.indexDigest = digestMaintenanceWorkIndexRecord env index

instance [DecidableEq δ] (index : MaintenanceWorkIndexRecord δ) : Decidable (index.Valid env) :=
  inferInstanceAs (Decidable (_ ∧ _))

/-- `validateMaintenanceWorkListRevisionState` passes. -/
def MaintenanceWorkListRevisionState.Valid (value : MaintenanceWorkListRevisionState δ)
    (key : MaintenanceWorkListRevisionKey) : Prop :=
  value.schemaVersion = maintenanceWorkListRevisionSchemaVersion ∧ value.reason = key.reason ∧
    value.state = key.state ∧ value.shard = key.shard ∧ value.revision ≠ 0 ∧
    0 < value.updatedAtUnix ∧
    value.stateDigest = digestMaintenanceWorkListRevisionState env value

instance [DecidableEq δ] (value : MaintenanceWorkListRevisionState δ)
    (key : MaintenanceWorkListRevisionKey) : Decidable (value.Valid env key) :=
  inferInstanceAs (Decidable (_ ∧ _))

/-- `validateDrainWorkRecord` passes. -/
def DrainWorkRecord.Valid (record : DrainWorkRecord δ) : Prop :=
  record.schemaVersion = drainIndexSchemaVersion ∧ record.operationID ≠ "" ∧
    record.nodeID ≠ "" ∧ record.volumeID ≠ "" ∧ record.placementRef ≠ "" ∧
    record.replicaSetID ≠ "" ∧ record.extentCount ≠ 0 ∧ 0 < record.updatedAtUnix ∧
    record.workDigest = digestDrainWorkRecord env record

instance [DecidableEq δ] (record : DrainWorkRecord δ) : Decidable (record.Valid env) :=
  inferInstanceAs (Decidable (_ ∧ _))

/-- `validateDrainProgressRecord` passes. -/
def DrainProgressRecord.Valid (record : DrainProgressRecord δ) : Prop :=
  record.schemaVersion = drainIndexSchemaVersion ∧ record.nodeID ≠ "" ∧
    record.operationID ≠ "" ∧ record.remainingExtents ≤ record.totalExtents ∧
    record.remainingBytes ≤ record.totalBytes ∧ 0 < record.updatedAtUnix ∧
    record.progressDigest = digestDrainProgressRecord env record

instance [DecidableEq δ] (record : DrainProgressRecord δ) : Decidable (record.Valid env) :=
  inferInstanceAs (Decidable (_ ∧ _))

end Env

/-! ## The store -/

/-- The records that the calls of this module read or write, by key. -/
structure MaintenanceStore (δ : Type) where
  transitions : String × String → Option PlacementTransitionRecord := fun _ => none
  volumes : String → Option VolumeState := fun _ => none
  replicaSets : String × String → Option ReplicaSetState := fun _ => none
  works : String → Option (MaintenanceWorkRecord δ) := fun _ => none
  workIndex : MaintenanceWorkIndexKey → Option (MaintenanceWorkIndexRecord δ) := fun _ => none
  listRevisions : MaintenanceWorkListRevisionKey → Option (MaintenanceWorkListRevisionState δ) :=
    fun _ => none
  drainWorks : String × String × String × String → Option (DrainWorkRecord δ) := fun _ => none
  drainWorkTransitions : String × String → Option (DrainWorkRecord δ) := fun _ => none
  drainProgress : String → Option (DrainProgressRecord δ) := fun _ => none

namespace MaintenanceStore

def getJSONStore {α : Type} : Option α → Except MaintenanceErr α
  | none => throw .notFound
  | some record => return record

variable {δ : Type} [DecidableEq δ] (env : MaintenanceEnv δ) (s : MaintenanceStore δ) (now : Nat)

def putWork (key : String) (work : MaintenanceWorkRecord δ) : MaintenanceStore δ :=
  { s with works := Function.update s.works key (some work) }

def deleteWork (key : String) : MaintenanceStore δ :=
  { s with works := Function.update s.works key none }

/-! ### The work index -/

/-- The list revision to count up: one of the first schema starts again. -/
def listRevisionState (key : MaintenanceWorkListRevisionKey) :
    Except MaintenanceErr (MaintenanceWorkListRevisionState δ) :=
  let fresh : MaintenanceWorkListRevisionState δ :=
    { schemaVersion := maintenanceWorkListRevisionSchemaVersion, reason := key.reason,
      state := key.state, shard := key.shard, stateDigest := env.emptyDigest }
  match s.listRevisions key with
  | none => return fresh
  | some state =>
    if state.schemaVersion = 1 then return fresh
    else if state.Valid env key then return state
    else throw (.indexInvalid "")

/-- Counts up the revision of one part of the index. -/
def advanceMaintenanceWorkListRevisionShard (reason : String) (workState : MaintenanceWorkState)
    (shard : Nat) : Except MaintenanceErr (MaintenanceStore δ) := do
  if ¬validMaintenanceWorkReason reason ∨ ¬indexedMaintenanceWorkState workState ∨
      maintenanceWorkIndexShardCount ≤ shard then
    throw (.indexInvalid "maintenance work revision shard")
  let key : MaintenanceWorkListRevisionKey := { reason, state := workState, shard }
  let state ← s.listRevisionState env key
  let state :=
    { state with revision := countUpNonzero state.revision, updatedAtUnix := unix now }
  let state :=
    { state with stateDigest := digestMaintenanceWorkListRevisionState env state }
  return { s with listRevisions := Function.update s.listRevisions key (some state) }

variable (index : MaintenanceWorkIndexRecord δ)

def advanceMaintenanceWorkListRevision : Except MaintenanceErr (MaintenanceStore δ) := do
  if ¬validMaintenanceWorkReason index.reason ∨ ¬indexedMaintenanceWorkState index.state ∨
      index.workID = "" then
    throw (.indexInvalid "maintenance work revision identity")
  s.advanceMaintenanceWorkListRevisionShard env now index.reason index.state
    (maintenanceWorkIndexVirtualShard env index.workID)

variable (key : MaintenanceWorkIndexKey)

/-- Keys of the shards of the first schema are not counted. -/
def advanceMaintenanceWorkListRevisionForIndexKey :
    Except MaintenanceErr (MaintenanceStore δ) :=
  if maintenanceWorkIndexShardCount ≤ key.virtualShard ∧
      key.virtualShard < maintenanceWorkLegacyShardCount then
    return s
  else
    s.advanceMaintenanceWorkListRevisionShard env now key.reason key.state key.virtualShard

/-- Lists an entry. Its part of the index counts up. -/
def putMaintenanceWorkIndexStore : Except MaintenanceErr (MaintenanceStore δ) :=
  advanceMaintenanceWorkListRevision env
    { s with
      workIndex := Function.update s.workIndex (maintenanceWorkIndexKey index) (some index) }
    now index

/-- Takes an entry off the list. Its part of the index counts up. -/
def deleteMaintenanceWorkIndexStore : Except MaintenanceErr (MaintenanceStore δ) :=
  advanceMaintenanceWorkListRevision env
    { s with
      workIndex := Function.update s.workIndex (maintenanceWorkIndexKey index) none }
    now index

def putIndexedWork (key : String) (work : MaintenanceWorkRecord δ) :
    Except MaintenanceErr (MaintenanceStore δ) :=
  (s.putWork key work).putMaintenanceWorkIndexStore env now (maintenanceWorkIndexRecord env work)

/-! ### Building and checking work -/

def getVolume (volumeID : String) : Except MaintenanceErr VolumeState :=
  getJSONStore (s.volumes (mustCanonicalVolumeID env volumeID))

def getReplicaSet (volumeID replicaSetID : String) : Except MaintenanceErr ReplicaSetState :=
  getJSONStore (s.replicaSets (replicaSetKey env volumeID replicaSetID))

variable (transition : PlacementTransitionRecord)

/-- The record that a transition asks for when nothing of an earlier one can stay. -/
def newMaintenanceWork (before : Option (MaintenanceWorkRecord δ)) (volume : VolumeState)
    (current target : ReplicaSetState) : MaintenanceWorkRecord δ where
  schemaVersion := maintenanceWorkSchemaVersion
  workID := maintenanceWorkID env transition.volumeID transition.placementRef
  reason := transition.reason
  state := .ready
  priority := maintenanceWorkPriority transition.reason
  virtualShard := maintenanceWorkIndexVirtualShard env
    (maintenanceWorkID env transition.volumeID transition.placementRef)
  volumeID := transition.volumeID
  placementRef := transition.placementRef
  currentReplicaSetID := transition.currentReplicaSetID
  targetReplicaSetID := transition.targetReplicaSetID
  expectedVolumeEpoch := volume.epoch
  expectedCurrentReplicaEpoch := current.epoch
  expectedTargetReplicaEpoch := target.epoch
  transitionDigest := digestMaintenanceWorkTransition env transition
  workRevision := match before with
    | none => 1
    | some before => countUp before.workRevision
  leaseGeneration := match before with
    | none => 0
    | some before => before.leaseGeneration
  startedAtUnix := if transition.startedAtUnix ≤ 0 then unix now else transition.startedAtUnix
  updatedAtUnix := unix now
  workDigest := env.emptyDigest

/-- The earlier record is still the one the transition asks for. -/
def StillCurrent (before work : MaintenanceWorkRecord δ) : Prop :=
  (before.state = .ready ∨ before.state = .leased) ∧
    before.transitionDigest = work.transitionDigest ∧
    before.expectedVolumeEpoch = work.expectedVolumeEpoch ∧
    before.expectedCurrentReplicaEpoch = work.expectedCurrentReplicaEpoch ∧
    before.expectedTargetReplicaEpoch = work.expectedTargetReplicaEpoch

instance (before work : MaintenanceWorkRecord δ) : Decidable (StillCurrent before work) :=
  inferInstanceAs (Decidable (_ ∧ _))

/-- The work record of a transition, for the volume and the replica sets as they are stored now. It
goes on counting where the one before has stopped. -/
def buildMaintenanceWorkStore (before : Option (MaintenanceWorkRecord δ)) :
    Except MaintenanceErr (MaintenanceWorkRecord δ) := do
  let volume ← s.getVolume env transition.volumeID
  let current ← s.getReplicaSet env transition.volumeID transition.currentReplicaSetID
  let target ← s.getReplicaSet env transition.volumeID transition.targetReplicaSetID
  let work := newMaintenanceWork env now transition before volume current target
  match before.filter (StillCurrent · work) with
  | some before => return before
  | none =>
    if (work.sign env).Valid env then return work.sign env
    else throw (.indexInvalid "maintenance work record")

/-- What the work was made of is gone. -/
def maintenanceWorkAuthorityError : MaintenanceErr → MaintenanceErr
  | .notFound => .stale
  | err => err

def authorityRead {α : Type} (x : Except MaintenanceErr α) : Except MaintenanceErr α :=
  x.mapError maintenanceWorkAuthorityError

def getPlacementTransition (volumeID placementRef : String) :
    Except MaintenanceErr PlacementTransitionRecord :=
  getJSONStore (s.transitions (placementTransitionKey env volumeID placementRef))

variable (work : MaintenanceWorkRecord δ)

/-- The work is still that of the stored transition, volume and replica sets. -/
def validateMaintenanceWorkAuthorityStore : Except MaintenanceErr Unit := do
  let transition ← authorityRead (s.getPlacementTransition env work.volumeID work.placementRef)
  if ¬transition.active ∨
      digestMaintenanceWorkTransition env transition ≠ work.transitionDigest then
    throw .stale
  let volume ← authorityRead (s.getVolume env work.volumeID)
  let current ← authorityRead (s.getReplicaSet env work.volumeID work.currentReplicaSetID)
  let target ← authorityRead (s.getReplicaSet env work.volumeID work.targetReplicaSetID)
  -- while the transition runs the volume's epoch may move on
  if ¬(volume.epoch = work.expectedVolumeEpoch ∨
        transition.state = .running ∧ work.expectedVolumeEpoch ≤ volume.epoch) ∨
      current.epoch ≠ work.expectedCurrentReplicaEpoch ∨
      target.epoch ≠ work.expectedTargetReplicaEpoch ∨
      current.placementRef ≠ work.placementRef then
    throw .stale

/-! ### Leases -/

/-- A stored record that does not match its digest is refused. -/
def getMaintenanceWork (workID : String) :
    Except MaintenanceErr (MaintenanceWorkRecord δ) := do
  if trimSpace workID = "" then throw (.indexInvalid "maintenance work identity")
  let work ← getJSONStore (s.works (maintenanceWorkKey workID))
  if ¬work.Valid env then throw (.indexInvalid "maintenance work record")
  return work

/-- The work record still is the claim, held by the owner and not expired. -/
def HoldsLease (current claim : MaintenanceWorkRecord δ) (leaseOwner : String) : Prop :=
  current.workDigest = claim.workDigest ∧ current.state = .leased ∧
    current.leaseOwner = leaseOwner ∧ current.leaseGeneration = claim.leaseGeneration ∧
    unix now < current.leaseExpiresAtUnix

instance (current claim : MaintenanceWorkRecord δ) (leaseOwner : String) :
    Decidable (HoldsLease now current claim leaseOwner) :=
  inferInstanceAs (Decidable (_ ∧ _))

/-- The claim is still the stored one and its lease has not run out. -/
def validateMaintenanceWorkLease (claim : MaintenanceWorkRecord δ) (leaseOwner : String) :
    Except MaintenanceErr (MaintenanceWorkRecord δ) := do
  if ¬claim.Valid env ∨ trimSpace leaseOwner = "" then
    throw (.indexInvalid "maintenance work lease validation")
  let current ← s.getMaintenanceWork env claim.workID
  if ¬HoldsLease now current claim (trimSpace leaseOwner) then throw .leaseLost
  s.validateMaintenanceWorkAuthorityStore env current
  return current

def ValidLeaseDuration (leaseDuration : Nat) : Prop :=
  clockSecond ≤ leaseDuration ∧ leaseDuration ≤ maintenanceWorkLeaseMaximum

instance (leaseDuration : Nat) : Decidable (ValidLeaseDuration leaseDuration) :=
  inferInstanceAs (Decidable (_ ∧ _))

/-- The index entry that a claim starts from, if it is still there. -/
def claimedIndex : Except MaintenanceErr (MaintenanceWorkIndexRecord δ) :=
  match s.workIndex (maintenanceWorkIndexKey index) with
  | none => throw .casConflict
  | some current =>
    if current.Valid env ∧ current.indexDigest = index.indexDigest then return current
    else throw .casConflict

/-- The work record that an index entry was made from, if it is still there. -/
def indexedWork : Except MaintenanceErr (MaintenanceWorkRecord δ) :=
  match s.works (maintenanceWorkKey index.workID) with
  | none => throw (.indexChanged "")
  | some work =>
    if work.Valid env ∧ work.workDigest = index.workDigest ∧
        work.workRevision = index.workRevision ∧ work.state = index.state then
      return work
    else throw (.indexChanged "")

/-- The record under a new lease, of the next generation. -/
def leasedWork (leaseOwner : String) (leaseDuration : Nat) : MaintenanceWorkRecord δ :=
  MaintenanceWorkRecord.sign env
    { work with
      state := .leased
      leaseOwner
      leaseGeneration := countUpNonzero work.leaseGeneration
      leaseExpiresAtUnix := unix (now + leaseDuration)
      workRevision := countUp work.workRevision
      updatedAtUnix := unix now }

/-- Takes ready work, or leased work whose lease has run out. -/
def claimMaintenanceWork (leaseOwner : String) (leaseDuration : Nat) :
    Except MaintenanceErr (MaintenanceWorkRecord δ × MaintenanceStore δ) := do
  let leaseOwner := trimSpace leaseOwner
  if ¬index.Valid env ∨ leaseOwner = "" ∨ ¬ValidLeaseDuration leaseDuration then
    throw (.indexInvalid "maintenance work claim")
  let currentIndex ← s.claimedIndex env index
  let work ← s.indexedWork env index
  s.validateMaintenanceWorkAuthorityStore env work
  if work.state = .leased ∧ unix now < work.leaseExpiresAtUnix then
    if work.leaseOwner = leaseOwner then return (work, s) else throw .leaseHeld
  else
    let s ← s.deleteMaintenanceWorkIndexStore env now currentIndex
    let work := leasedWork env now work leaseOwner leaseDuration
    let s ← s.putIndexedWork env now (maintenanceWorkKey work.workID) work
    return (work, s)

/-- The record with its lease prolonged. -/
def renewedWork (leaseDuration : Nat) : MaintenanceWorkRecord δ :=
  MaintenanceWorkRecord.sign env
    { work with
      leaseExpiresAtUnix := unix (now + leaseDuration)
      workRevision := countUp work.workRevision
      updatedAtUnix := unix now }

/-- The owner of a lease prolongs it before it runs out. -/
def renewMaintenanceWorkLease (claim : MaintenanceWorkRecord δ) (leaseOwner : String)
    (leaseDuration : Nat) : Except MaintenanceErr (MaintenanceWorkRecord δ × MaintenanceStore δ) := do
  let leaseOwner := trimSpace leaseOwner
  if ¬claim.Valid env ∨ leaseOwner = "" ∨ ¬ValidLeaseDuration leaseDuration then
    throw (.indexInvalid "maintenance work lease renewal")
  match s.works (maintenanceWorkKey claim.workID) with
  | none => throw .leaseLost
  | some current =>
    if ¬current.Valid env ∨ ¬HoldsLease now current claim leaseOwner then throw .leaseLost
    s.validateMaintenanceWorkAuthorityStore env current
    let s ← s.deleteMaintenanceWorkIndexStore env now (maintenanceWorkIndexRecord env current)
    let current := renewedWork env now current leaseDuration
    let s ← s.putIndexedWork env now (maintenanceWorkKey current.workID) current
    return (current, s)

/-! ### Transitions -/

/-- The record without its lease. -/
def releasedWork (state : MaintenanceWorkState) : MaintenanceWorkRecord δ :=
  MaintenanceWorkRecord.sign env
    { work with
      state
      leaseOwner := ""
      leaseExpiresAtUnix := 0
      workRevision := countUp work.workRevision
      updatedAtUnix := unix now }

/-- Takes the entry of a valid record off the list. -/
def unindexWork : Option (MaintenanceWorkRecord δ) → Except MaintenanceErr (MaintenanceStore δ)
  | none => return s
  | some before =>
    if before.Valid env then
      s.deleteMaintenanceWorkIndexStore env now (maintenanceWorkIndexRecord env before)
    else throw (.indexInvalid "maintenance work record")

/-- Releases the work of a transition that is not active. It stays under the state of the
transition. -/
def closeMaintenanceWork (key : String) (before : Option (MaintenanceWorkRecord δ))
    (state : PlacementTransitionState) : MaintenanceStore δ :=
  match before with
  | none => s
  | some before =>
    match maintenanceWorkStateFromTransition state with
    | none => s.deleteWork key
    | some terminalState => s.putWork key (releasedWork env now before terminalState)

/-- The work of a transition that is to be worked on, when no lease on it can stay. -/
def openMaintenanceWork (key : String) (transition : PlacementTransitionRecord)
    (before : Option (MaintenanceWorkRecord δ)) : Except MaintenanceErr (MaintenanceStore δ) :=
  match s.buildMaintenanceWorkStore env now transition before with
  | .ok next => s.putIndexedWork env now key next
  -- a transition may be written before its placement is complete
  | .error .notFound => if before.isNone then return s else throw .notFound
  | .error err => throw err

/-- The transition is the one the lease was taken for. -/
def LeasedFor (before : MaintenanceWorkRecord δ) (transition : PlacementTransitionRecord) : Prop :=
  before.state = .leased ∧
    before.transitionDigest = digestMaintenanceWorkTransition env transition

instance (before : MaintenanceWorkRecord δ) (transition : PlacementTransitionRecord) :
    Decidable (LeasedFor env before transition) :=
  inferInstanceAs (Decidable (_ ∧ _))

/-- Brings the work record and its entry in line with a transition that was stored. -/
def syncMaintenanceWorkIndex : Except MaintenanceErr (MaintenanceStore δ) := do
  if maintenanceIndexVolumeID env transition.volumeID = "" ∨
      trimSpace transition.placementRef = "" then
    return s
  let key := maintenanceWorkKey
    (maintenanceWorkID env transition.volumeID transition.placementRef)
  let before := s.works key
  let s ← s.unindexWork env now before
  if ¬transition.active then
    return s.closeMaintenanceWork env now key before transition.state
  else if ¬maintenanceTransitionReadyEligible env transition then
    return match before with
      | none => s
      | some _ => s.deleteWork key
  else
    match before.filter (LeasedFor env · transition) with
    | some before =>
      if transition.state = .queued then
        s.putIndexedWork env now key (releasedWork env now before .ready)
      else
        s.putMaintenanceWorkIndexStore env now (maintenanceWorkIndexRecord env before)
    | none => s.openMaintenanceWork env now key transition before

/-- The end of a drained placement counts down what the drain has left to do. -/
def completeDrainWork : Except MaintenanceErr (MaintenanceStore δ) :=
  if transition.reason ≠ "drain" ∨ transition.state ≠ .completed then
    return s
  else
    let key := drainWorkTransitionKey env transition.volumeID transition.placementRef
    match s.drainWorkTransitions key with
    | none => return s
    | some work =>
      if ¬work.Valid env then throw (.indexInvalid "drain work record")
      else if work.state = .completed then return s
      else
        match s.drainProgress (drainProgressKey work.nodeID) with
        | none => throw (.indexChanged "drain progress cannot complete work")
        | some progress =>
          if ¬progress.Valid env ∨ progress.operationID ≠ work.operationID ∨
              progress.remainingExtents < work.extentCount ∨
              progress.remainingBytes < work.dataBytes then
            throw (.indexChanged "drain progress cannot complete work")
          else
            let work := { work with state := .completed, updatedAtUnix := unix now }
            let work := { work with workDigest := digestDrainWorkRecord env work }
            let progress :=
              { progress with
                remainingExtents := progress.remainingExtents - work.extentCount
                remainingBytes := progress.remainingBytes - work.dataBytes
                updatedAtUnix := unix now }
            let progress :=
              { progress with progressDigest := digestDrainProgressRecord env progress }
            return { s with
              drainWorks := Function.update s.drainWorks (drainWorkKey work) (some work)
              drainWorkTransitions := Function.update s.drainWorkTransitions
                (drainWorkTransitionKey env work.volumeID work.placementRef) (some work)
              drainProgress := Function.update s.drainProgress (drainProgressKey work.nodeID)
                (some progress) }

/-- Stores the transition alone. -/
def recordTransition : MaintenanceStore δ :=
  { s with
    transitions := Function.update s.transitions
      (placementTransitionKey env transition.volumeID transition.placementRef) (some transition) }

/-- `putPlacementTransitionWithDrainProgress`. -/
def putPlacementTransition : Except MaintenanceErr (MaintenanceStore δ) := do
  let s ← (s.recordTransition env transition).syncMaintenanceWorkIndex env now transition
  s.completeDrainWork env now transition

def deleteIndexedWork (key : String) : Except MaintenanceErr (MaintenanceStore δ) :=
  match s.works key with
  | none => return s
  | some work =>
    if ¬work.Valid env then throw (.indexInvalid "maintenance work record")
    else if indexedMaintenanceWorkState work.state then
      return (← s.deleteMaintenanceWorkIndexStore env now
        (maintenanceWorkIndexRecord env work)).deleteWork key
    else return s.deleteWork key

/-- Deletes a transition with its work. -/
def deletePlacementTransition (volumeID placementRef : String) :
    Except MaintenanceErr (MaintenanceStore δ) := do
  let s ← s.deleteIndexedWork env now
    (maintenanceWorkKey (maintenanceWorkID env volumeID placementRef))
  return { s with
    transitions := Function.update s.transitions (placementTransitionKey env volumeID placementRef)
      none }

/-! ### Rebuilding -/

/-- Lists the entry again unless it is there as expected. -/
def repairWorkIndex (expected : MaintenanceWorkIndexRecord δ) :
    Except MaintenanceErr (MaintenanceStore δ) :=
  let key := maintenanceWorkIndexKey expected
  match (s.workIndex key).filter fun found =>
      found.Valid env ∧ found.indexDigest = expected.indexDigest with
  | some _ => return s
  | none =>
    advanceMaintenanceWorkListRevisionForIndexKey env
      { s with workIndex := Function.update s.workIndex key (some expected) } now key

/-- `planMaintenanceAuthorityRepair` for the key of a transition, with its repairs. -/
def rebuildMaintenanceWork (key : String × String) :
    Except MaintenanceErr (MaintenanceStore δ) :=
  match s.transitions key with
  | none => return s
  | some authority =>
    if placementTransitionKey env authority.volumeID authority.placementRef ≠ key then
      throw (.indexInvalid "transition authority key/value identity differs")
    else if ¬maintenanceTransitionReadyEligible env authority ∨ ¬authority.active then return s
    else
      let workKey := maintenanceWorkKey
        (maintenanceWorkID env authority.volumeID authority.placementRef)
      let before := (s.works workKey).filter (·.Valid env)
      match s.buildMaintenanceWorkStore env now authority before with
      | .error .notFound => return s
      | .error err => throw err
      | .ok expected =>
        match before.filter (·.workDigest = expected.workDigest) with
        | some _ => s.repairWorkIndex env now (maintenanceWorkIndexRecord env expected)
        | none =>
          (s.putWork workKey expected).repairWorkIndex env now
            (maintenanceWorkIndexRecord env expected)

/-- The index entry under a key is the one its work record asks for. -/
def WorkIndexMatches (index : MaintenanceWorkIndexRecord δ) (work : MaintenanceWorkRecord δ) :
    Prop :=
  work.Valid env ∧ indexedMaintenanceWorkState work.state ∧
    (maintenanceWorkIndexRecord env work).indexDigest = index.indexDigest ∧
    maintenanceWorkIndexKey (maintenanceWorkIndexRecord env work) = key

instance (key : MaintenanceWorkIndexKey) (index : MaintenanceWorkIndexRecord δ)
    (work : MaintenanceWorkRecord δ) : Decidable (WorkIndexMatches env key index work) :=
  inferInstanceAs (Decidable (_ ∧ _))

/-- Deletes an entry that no work record stands for. -/
def dropWorkIndex : Except MaintenanceErr (MaintenanceStore δ) :=
  advanceMaintenanceWorkListRevisionForIndexKey env
    { s with workIndex := Function.update s.workIndex key none } now key

/-- `planWorkProjectionRepair` for a key of the work index, with its repair. -/
def sweepWorkIndex : Except MaintenanceErr (MaintenanceStore δ) :=
  match s.workIndex key with
  | none => return s
  | some index =>
    if ¬index.Valid env ∨ maintenanceWorkIndexKey index ≠ key then s.dropWorkIndex env now key
    else
      match (s.works (maintenanceWorkKey index.workID)).filter
          (WorkIndexMatches env key index ·) with
      | none => s.dropWorkIndex env now key
      | some work =>
        match s.validateMaintenanceWorkAuthorityStore env work with
        | .ok () => return s
        | .error .stale => s.dropWorkIndex env now key
        | .error err => throw err

end MaintenanceStore

/-! ## Workers and clients side by side -/

structure MaintenanceSystem (δ : Type) where
  store : MaintenanceStore δ
  now : Nat

/-- The calls, and what other parts of the store and the clock do meanwhile. -/
inductive MaintenanceEvent (δ : Type) where
  | tick (elapsed : Nat)
  | setVolume (volumeID : String) (volume : Option VolumeState)
  | setReplicaSet (volumeID replicaSetID : String) (record : Option ReplicaSetState)
  | putTransition (transition : PlacementTransitionRecord)
  | deleteTransition (volumeID placementRef : String)
  | claim (index : MaintenanceWorkIndexRecord δ) (leaseOwner : String) (leaseDuration : Nat)
  | renew (claim : MaintenanceWorkRecord δ) (leaseOwner : String) (leaseDuration : Nat)
  | rebuild (key : String × String)
  | sweep (key : MaintenanceWorkIndexKey)

namespace MaintenanceSystem

variable {δ : Type} [DecidableEq δ] (env : MaintenanceEnv δ)

/-- A call that fails leaves the store as it was. -/
def commit (s : MaintenanceSystem δ) (result : Except MaintenanceErr (MaintenanceStore δ)) :
    MaintenanceSystem δ :=
  match result with
  | .ok store => { s with store }
  | .error _ => s

def apply (s : MaintenanceSystem δ) : MaintenanceEvent δ → MaintenanceSystem δ
  | .tick elapsed => { s with now := s.now + elapsed }
  | .setVolume volumeID volume =>
    { s with store := { s.store with
      volumes := Function.update s.store.volumes (mustCanonicalVolumeID env volumeID) volume } }
  | .setReplicaSet volumeID replicaSetID record =>
    { s with store := { s.store with
      replicaSets := Function.update s.store.replicaSets (replicaSetKey env volumeID replicaSetID)
        record } }
  | .putTransition transition => s.commit (s.store.putPlacementTransition env s.now transition)
  | .deleteTransition volumeID placementRef =>
    s.commit (s.store.deletePlacementTransition env s.now volumeID placementRef)
  | .claim index leaseOwner leaseDuration =>
    s.commit ((s.store.claimMaintenanceWork env s.now index leaseOwner leaseDuration).map (·.2))
  | .renew claim leaseOwner leaseDuration =>
    s.commit ((s.store.renewMaintenanceWorkLease env s.now claim leaseOwner leaseDuration).map (·.2))
  | .rebuild key => s.commit (s.store.rebuildMaintenanceWork env s.now key)
  | .sweep key => s.commit (s.store.sweepWorkIndex env s.now key)

def step (s : MaintenanceSystem δ) (e : MaintenanceEvent δ) : Option (MaintenanceSystem δ) :=
  some (s.apply env e)

end MaintenanceSystem

end Namrbd
