import Namrbd.Metadata.DrainProgress
import Namrbd.Metadata.Summary

/-!
# The calls that move the summary

Every call that changes a membership, a volume's state or spec, a placement transition
or an admin operation gives the records it leaves and the change it reports;
`SummarySystem.call` puts them and the counters they move into one transaction. Where
what it does beside that can fail, the failure is an argument of the call.
-/

namespace Namrbd

open Text (trimSpace)

/-- The operation that a drain request was given, for when it comes again. -/
structure NodeDrainRequestIdentity where
  operationID : String
  targetNodeID : String
  requestID : String
  deriving DecidableEq

/-- The records that the summary counts, and what the calls on them read. -/
structure AuthorityStore where
  membership : MembershipStore := {}
  volumes : String → Option VolumeState := fun _ => none
  specs : String → Option VolumeSpecRecord := fun _ => none
  transitions : String × String → Option PlacementTransitionRecord := fun _ => none
  operations : String → Option StoredOperation := fun _ => none
  operationSequence : Option Nat := none
  drainRequests : String × String → Option NodeDrainRequestIdentity := fun _ => none

inductive AuthorityErr where
  | membership (err : MembershipErr)
  | drain (err : DrainErr)
  | notFound
  | casConflict
  | invalid (detail : String)
  | summary (err : SummaryErr)
  deriving DecidableEq

/-- The records that contribute to the summary, by their keys. -/
inductive SummaryKey where
  | node (nodeID : String)
  | volume (key : String)
  | transition (key : String × String)
  | operation (key : String)
  deriving DecidableEq

/-- What a call leaves of the authority records, with the change it reports. -/
abbrev AuthorityWrite : Type := AuthorityStore × Option SummaryChange

namespace AuthorityStore

variable (env : SummaryEnv) (a : AuthorityStore) (now : Nat)

/-- What the record under a key adds to the counters. -/
def contribution : SummaryKey → SummaryCounters
  | .node nodeID => summaryMembershipContribution (a.membership.getMember nodeID)
  | .volume key => summaryVolumeContribution (a.volumes key) (a.specs key)
  | .transition key => summaryTransitionContribution (a.transitions key)
  | .operation key => adminOperationSummaryContribution (a.operations key)

/-- What a write reports of its subject. -/
def change (kind : SummarySubjectKind) (identity : List String) (k : SummaryKey)
    (after : AuthorityStore) : SummaryChange where
  subjectID := summarySubject env kind identity
  before := a.contribution k
  after := after.contribution k

/-! ## Memberships -/

def putNodeMembership (record : MembershipRecord) (expectedGeneration : Option Nat) :
    Except AuthorityErr AuthorityWrite := do
  let (stored, membership) ←
    (a.membership.putNodeMembership now record expectedGeneration).mapError
      .membership
  let after := { a with membership }
  return (after, a.change env .membership [stored.nodeID] (.node stored.nodeID) after)

/-- The record is read before the transaction that puts the tombstone. -/
def deleteNodeMembership (record : MembershipRecord) : Except AuthorityErr AuthorityWrite :=
  a.putNodeMembership env now (MembershipStore.tombstoned record) (some record.generation)

/-! ## Volumes -/

variable (volumeID : String)

/-- `mustCanonicalVolumeID`, the key of a volume's records. -/
def volumeKey : String := (env.canonicalVolumeID volumeID).getD volumeID

/-- The write of a volume's records; the subject is the id as the caller spells it. -/
def setVolume (state : Option VolumeState) (spec : Option VolumeSpecRecord) : AuthorityWrite :=
  let key := volumeKey env volumeID
  let after := { a with
    volumes := Function.update a.volumes key state
    specs := Function.update a.specs key spec }
  (after, a.change env .volume [volumeID] (.volume key) after)

/-- The spec is read only when the contribution differs without it. -/
def putVolumeState (record : VolumeState) : Except AuthorityErr AuthorityWrite :=
  let key := volumeKey env volumeID
  let write := a.setVolume env volumeID (some record) (a.specs key)
  if summaryVolumeContribution (a.volumes key) none =
      summaryVolumeContribution (some record) none then
    return (write.1, none)
  else return write

/-- The id is spelled as in the keys. -/
def CanonicalIdentity : Prop :=
  volumeID ≠ "" ∧ env.canonicalVolumeID volumeID = some volumeID

instance (volumeID : String) : Decidable (CanonicalIdentity env volumeID) :=
  inferInstanceAs (Decidable (_ ∧ _))

/-- Stores the state and the specification of a volume together. -/
def putVolumeAuthority (stateVolumeID : String) (state : VolumeState) (specVolumeID : String)
    (spec : VolumeSpecRecord) : Except AuthorityErr AuthorityWrite := do
  if stateVolumeID = "" ∨ specVolumeID = "" ∨ stateVolumeID ≠ specVolumeID then
    throw (.invalid "volume authority requires matching state and spec identities")
  if ¬CanonicalIdentity env stateVolumeID then
    throw (.invalid ("invalid volume authority identity " ++ stateVolumeID))
  return a.setVolume env stateVolumeID (some state) (some spec)

def deleteVolumeState : Except AuthorityErr AuthorityWrite :=
  return a.setVolume env volumeID none (a.specs (volumeKey env volumeID))

def putVolumeSpec (spec : VolumeSpecRecord) : Except AuthorityErr AuthorityWrite :=
  return a.setVolume env volumeID (a.volumes (volumeKey env volumeID)) (some spec)

def deleteVolumeSpec : Except AuthorityErr AuthorityWrite :=
  return a.setVolume env volumeID (a.volumes (volumeKey env volumeID)) none

/-- Deletes both records of a volume. -/
def deleteVolumeAuthority : Except AuthorityErr AuthorityWrite := do
  if ¬CanonicalIdentity env volumeID then
    throw (.invalid ("invalid volume authority identity " ++ volumeID))
  if a.volumes (volumeKey env volumeID) = none ∧ a.specs (volumeKey env volumeID) = none then
    return (a, none)
  return a.setVolume env volumeID none none

/-- The state gains a revision with the size; the id is made canonical first. -/
def expandVolume (targetSizeBytes : Nat) : Except AuthorityErr AuthorityWrite := do
  if targetSizeBytes = 0 then throw (.invalid "target_size_bytes is required")
  let volumeID := volumeKey env volumeID
  match a.volumes (volumeKey env volumeID), a.specs (volumeKey env volumeID) with
  | some state, some spec =>
    if spec.blockSize = 0 then throw (.invalid "volume has invalid block_size=0")
    if targetSizeBytes % spec.blockSize ≠ 0 then
      throw (.invalid "target_size_bytes must be aligned to block_size")
    if targetSizeBytes < spec.sizeBytes then
      throw (.invalid "target_size_bytes must be greater than current size_bytes")
    if targetSizeBytes = spec.sizeBytes then return (a, none)
    return a.setVolume env volumeID
      (some { state with revision := state.revision + 1 })
      (some { spec with sizeBytes := targetSizeBytes })
  | _, _ => throw .notFound

/-- Commits and failovers write the epoch and the revision of a state, and report nothing. -/
def advanceVolume (epoch revision : Nat) : Except AuthorityErr AuthorityWrite :=
  let key := volumeKey env volumeID
  match a.volumes key with
  | none => throw .notFound
  | some state =>
    return ((a.setVolume env volumeID (some { state with epoch, revision }) (a.specs key)).1, none)

/-- One volume of `DeleteOrphanVolumeMetadataExact`, which takes the volumes of a batch in one
transaction: it has a state and no spec. -/
def deleteOrphanVolume : Except AuthorityErr AuthorityWrite := do
  if ¬CanonicalIdentity env volumeID then
    throw (.invalid "expectations must be canonical, sorted, unique, and digest-bound")
  if a.volumes (volumeKey env volumeID) = none ∨ a.specs (volumeKey env volumeID) ≠ none then
    throw .casConflict
  return a.setVolume env volumeID none none

/-! ## Placement transitions -/

/-- Writes the transition under the canonical id, and reports it under the id as it is spelled. -/
def setTransition (placementRef : String) (record : Option PlacementTransitionRecord) :
    AuthorityWrite :=
  let key := (volumeKey env volumeID, placementRef)
  let after := { a with transitions := Function.update a.transitions key record }
  (after, a.change env .placementTransition [volumeID, placementRef] (.transition key) after)

/-- The rest of a transaction, with the work index and the drain records. -/
def unlessFails (failure : Option DrainErr) (write : AuthorityWrite) :
    Except AuthorityErr AuthorityWrite :=
  match failure with
  | some err => throw (.drain err)
  | none => return write

def putPlacementTransition (record : PlacementTransitionRecord)
    (failure : Option DrainErr) : Except AuthorityErr AuthorityWrite :=
  unlessFails failure (a.setTransition env record.volumeID record.placementRef (some record))

def deletePlacementTransition (placementRef : String) (failure : Option DrainErr) :
    Except AuthorityErr AuthorityWrite :=
  unlessFails failure (a.setTransition env volumeID placementRef none)

/-- The last page of `EnqueueDrainWork` puts the transition of a placement, or puts the one again
that it finds. -/
def finalizeDrainTransition (record : PlacementTransitionRecord)
    (failure : Option DrainErr) : Except AuthorityErr AuthorityWrite :=
  match a.transitions (volumeKey env record.volumeID, record.placementRef) with
  | none => a.putPlacementTransition env record failure
  | some existing =>
    if ¬existing.SameIdentity record then
      throw (.drain (.indexConflict "drain transition identity differs"))
    else a.putPlacementTransition env existing failure

/-! ## Admin operations -/

def formatOperationID (sequence : Nat) : String :=
  "op-" ++ String.ofList (Gateway.zeroFilled 10 6 sequence)

/-- `putLocked`: the change is read under the id of the record, which is written under the
trimmed id. -/
def putOperation (op : StoredOperation) : Except AuthorityErr AuthorityWrite :=
  let key := trimSpace op.operationID
  if key = "" then throw (.invalid "admin operation record is required")
  else
    let after := { a with operations := Function.update a.operations key (some op) }
    return (after,
      some
        { subjectID := summarySubject env .adminOperation [op.operationID]
          before := a.contribution (.operation op.operationID)
          after := after.contribution (.operation key) })

/-- How the store answers the accesses of `nextSequenceLocked`, which are outside the
transaction and whose errors are dropped. -/
structure SequenceAccess where
  readFails : Bool := false
  writeFails : Bool := false
  deriving DecidableEq

/-- A sequence that cannot be read starts again at one. -/
def nextSequence (access : SequenceAccess) : Nat :=
  if access.readFails then 1 else a.operationSequence.getD 0 + 1

/-- The next number of the sequence, which is lost when it cannot be written. -/
def takeSequence (access : SequenceAccess) : AuthorityStore :=
  { a with
    operationSequence :=
      if access.writeFails then a.operationSequence else some (a.nextSequence access) }

/-- An operation under the next id. Whether the sequence was read or written is not looked at. -/
def createOperation (access : SequenceAccess) (op : OperationStatus) :
    Except AuthorityErr AuthorityWrite :=
  (a.takeSequence access).putOperation env
    (storedOperationFromProto
      { op with
        operationID := formatOperationID (a.nextSequence access)
        requestID := trimSpace op.requestID })

/-- The operation that a repeated drain request was given. -/
def operationForNodeDrainIdentity (identity : NodeDrainRequestIdentity)
    (nodeID requestID : String) : Except AuthorityErr StoredOperation := do
  if identity.targetNodeID ≠ nodeID ∨ identity.requestID ≠ requestID ∨
      identity.operationID = "" then
    throw (.invalid "invalid node drain request identity")
  match a.operations identity.operationID with
  | none => throw (.invalid "node drain request identity refers to missing operation")
  | some op =>
    if op.operationID ≠ identity.operationID ∨ op.kind ≠ "node.drain" ∨
        op.targetNodeID ≠ identity.targetNodeID ∨ op.requestID ≠ identity.requestID then
      throw (.invalid "node drain request identity does not match operation")
    return op

/-- The operation of a new drain request. -/
def nodeDrainOperation (nodeID phase requestID : String) (state : OperationState) :
    StoredOperation where
  operationID := formatOperationID (a.operationSequence.getD 0 + 1)
  kind := "node.drain"
  state := state.text
  targetNodeID := nodeID
  phase := phase
  requestID := requestID

/-- A request without an id is created like any other operation. -/
def createNodeDrain (access : SequenceAccess) (nodeID phase requestID : String)
    (state : OperationState) : Except AuthorityErr AuthorityWrite :=
  let nodeID := trimSpace nodeID
  let requestID := trimSpace requestID
  if requestID = "" then
    a.createOperation env access
      { operationID := "", kind := "node.drain", state, targetNodeID := nodeID, phase }
  else
    match a.drainRequests (nodeID, requestID) with
    | some identity => do
      let _ ← a.operationForNodeDrainIdentity identity nodeID requestID
      return (a, none)
    | none =>
      let op := a.nodeDrainOperation nodeID phase requestID state
      let after := { a with
        operationSequence := some (a.operationSequence.getD 0 + 1)
        operations := Function.update a.operations op.operationID (some op)
        drainRequests := Function.update a.drainRequests (nodeID, requestID)
          (some { operationID := op.operationID, targetNodeID := nodeID, requestID }) }
      return (after,
        some
          { subjectID := summarySubject env .adminOperation [op.operationID]
            -- no record is looked up: the operation is taken for a new one
            before := 0
            after := after.contribution (.operation op.operationID) })

/-- Changes an operation and stores it under its id. -/
def updateOperation (operationID : String) (mutate : OperationStatus → OperationStatus) :
    Except AuthorityErr AuthorityWrite :=
  match a.operations operationID with
  | none => throw .notFound
  | some op => a.putOperation env (storedOperationFromProto (mutate op.toProto))

end AuthorityStore

/-! ## The system -/

/-- The records, the summary over them and the clock. -/
structure SummarySystem where
  authority : AuthorityStore := {}
  aggregate : SummaryAggregate := {}
  now : Nat := 0

/-- The calls that change a record which the summary counts. -/
inductive AuthorityCall where
  | putMembership (record : MembershipRecord) (expectedGeneration : Option Nat)
  | deleteMembership (record : MembershipRecord)
  | putVolumeState (volumeID : String) (record : VolumeState)
  | putVolumeAuthority (stateVolumeID : String) (state : VolumeState) (specVolumeID : String)
      (spec : VolumeSpecRecord)
  | deleteVolumeState (volumeID : String)
  | putVolumeSpec (volumeID : String) (spec : VolumeSpecRecord)
  | deleteVolumeSpec (volumeID : String)
  | deleteVolumeAuthority (volumeID : String)
  | expandVolume (volumeID : String) (targetSizeBytes : Nat)
  | advanceVolume (volumeID : String) (epoch revision : Nat)
  | deleteOrphanVolume (volumeID : String)
  | putTransition (record : PlacementTransitionRecord) (failure : Option DrainErr)
  | deleteTransition (volumeID placementRef : String) (failure : Option DrainErr)
  | finalizeDrainTransition (record : PlacementTransitionRecord)
      (failure : Option DrainErr)
  | createOperation (access : AuthorityStore.SequenceAccess) (op : OperationStatus)
  | createNodeDrain (access : AuthorityStore.SequenceAccess) (nodeID phase requestID : String)
      (state : OperationState)
  | updateOperation (operationID : String) (mutate : OperationStatus → OperationStatus)

namespace SummarySystem

variable (env : SummaryEnv)

/-- What a call writes, and what it reports, before the summary is asked. -/
def authorityWrite (s : SummarySystem) : AuthorityCall → Except AuthorityErr AuthorityWrite
  | .putMembership record expectedGeneration =>
    s.authority.putNodeMembership env s.now record expectedGeneration
  | .deleteMembership record => s.authority.deleteNodeMembership env s.now record
  | .putVolumeState volumeID record => s.authority.putVolumeState env volumeID record
  | .putVolumeAuthority stateVolumeID state specVolumeID spec =>
    s.authority.putVolumeAuthority env stateVolumeID state specVolumeID spec
  | .deleteVolumeState volumeID => s.authority.deleteVolumeState env volumeID
  | .putVolumeSpec volumeID spec => s.authority.putVolumeSpec env volumeID spec
  | .deleteVolumeSpec volumeID => s.authority.deleteVolumeSpec env volumeID
  | .deleteVolumeAuthority volumeID => s.authority.deleteVolumeAuthority env volumeID
  | .expandVolume volumeID targetSizeBytes =>
    s.authority.expandVolume env volumeID targetSizeBytes
  | .advanceVolume volumeID epoch revision =>
    s.authority.advanceVolume env volumeID epoch revision
  | .deleteOrphanVolume volumeID => s.authority.deleteOrphanVolume env volumeID
  | .putTransition record failure => s.authority.putPlacementTransition env record failure
  | .deleteTransition volumeID placementRef failure =>
    s.authority.deletePlacementTransition env volumeID placementRef failure
  | .finalizeDrainTransition record failure =>
    s.authority.finalizeDrainTransition env record failure
  | .createOperation access op => s.authority.createOperation env access op
  | .createNodeDrain access nodeID phase requestID state =>
    s.authority.createNodeDrain env access nodeID phase requestID state
  | .updateOperation operationID mutate => s.authority.updateOperation env operationID mutate

/-- The summary after a reported change. A change that it refuses fails the call. -/
def summarize (aggregate : SummaryAggregate) :
    Option SummaryChange → Except AuthorityErr SummaryAggregate
  | none => return aggregate
  | some change => (aggregate.applySummarySubjectMutation env change).mapError .summary

/-- A call: the write and the summary are one transaction. -/
def call (s : SummarySystem) (c : AuthorityCall) : Except AuthorityErr SummarySystem := do
  let (authority, change) ← s.authorityWrite env c
  let aggregate ← summarize env s.aggregate change
  return { s with authority, aggregate }

/-- A failed call changes nothing, except that a sequence number it took is gone. -/
def failed (s : SummarySystem) : AuthorityCall → SummarySystem
  | .createOperation access _ => { s with authority := s.authority.takeSequence access }
  | .createNodeDrain access _ _ requestID _ =>
    if trimSpace requestID = "" then
      { s with authority := s.authority.takeSequence access }
    else s
  | _ => s

inductive Event where
  | tick (elapsed : Nat)
  | call (c : AuthorityCall)

def apply (s : SummarySystem) : Event → SummarySystem
  | .tick elapsed => { s with now := s.now + elapsed }
  | .call c =>
    match s.call env c with
    | .ok s' => s'
    | .error _ => s.failed c

def step (s : SummarySystem) (e : Event) : Option SummarySystem := some (s.apply env e)

end SummarySystem

end Namrbd
