import Namrbd.Metadata.MaintenanceWork

/-!
# Draining a node

The progress record of a drain counts the extents and bytes to move, in all and still
to do; a work record counts those of a placement, and an item is kept for each extent,
so that a page that is enqueued again counts nothing. With its last page a placement is
finalised: its transition is written and the work record copied under the key of the
transition, which takes the copy when it completes. Every call is one transaction.
-/

namespace Namrbd

open Text (trimSpace)

/-! ## Records -/

inductive DrainErr where
  | index (err : MaintenanceErr)
  | indexConflict (detail : String)
  deriving DecidableEq

/-- One extent that a drain has to move, kept so that it is counted once. -/
structure DrainWorkItemRecord (δ : Type) where
  schemaVersion : Nat
  operationID : String
  nodeID : String
  volumeID : String
  placementRef : String
  extentID : Nat
  dataBytes : Nat
  itemDigest : δ
  deriving DecidableEq

structure DrainWorkExtent where
  extentID : Nat
  dataBytes : Nat
  deriving DecidableEq

/-- `targetVolumeID` is the volume id that the target replica set carries. -/
structure EnqueueDrainWorkRequest where
  operationID : String
  nodeID : String
  volumeID : String
  placementRef : String
  replicaSetID : String
  extents : List DrainWorkExtent
  finalizePlacement : Bool
  targetVolumeID : String
  targetReplicaSet : ReplicaSetState
  transition : PlacementTransitionRecord
  deriving DecidableEq

/-- The text and hash functions, with the digest of a work item. -/
structure DrainEnv (δ : Type) extends MaintenanceEnv δ where
  digestDrainWorkItem : DrainWorkItemRecord δ → δ

/-- The key of an item: node, operation, volume, placement and extent. -/
abbrev DrainWorkItemKey : Type := String × String × String × String × Nat

section Env

variable {δ : Type} (env : DrainEnv δ)

def digestDrainWorkItemRecord (record : DrainWorkItemRecord δ) : δ :=
  env.digestDrainWorkItem { record with itemDigest := env.emptyDigest }

def drainWorkItemKey (record : DrainWorkItemRecord δ) : DrainWorkItemKey :=
  (trimSpace record.nodeID, trimSpace record.operationID, trimSpace record.volumeID,
    trimSpace record.placementRef, record.extentID)

/-- `validateDrainWorkItemRecord` passes. -/
def DrainWorkItemRecord.Valid (record : DrainWorkItemRecord δ) : Prop :=
  record.schemaVersion = drainIndexSchemaVersion ∧ record.operationID ≠ "" ∧
    record.nodeID ≠ "" ∧ record.volumeID ≠ "" ∧ record.placementRef ≠ "" ∧ record.extentID ≠ 0 ∧
    record.itemDigest = digestDrainWorkItemRecord env record

instance [DecidableEq δ] (record : DrainWorkItemRecord δ) : Decidable (record.Valid env) :=
  inferInstanceAs (Decidable (_ ∧ _))

variable (req : EnqueueDrainWorkRequest)

/-- The request with its ids trimmed. -/
def EnqueueDrainWorkRequest.normalized : EnqueueDrainWorkRequest :=
  { req with
    operationID := trimSpace req.operationID
    nodeID := trimSpace req.nodeID
    volumeID := maintenanceIndexVolumeID env.toMaintenanceEnv req.volumeID
    placementRef := trimSpace req.placementRef
    replicaSetID := trimSpace req.replicaSetID
    transition :=
      if req.finalizePlacement then
        { req.transition with
          volumeID := maintenanceIndexVolumeID env.toMaintenanceEnv req.transition.volumeID
          placementRef := trimSpace req.transition.placementRef }
      else req.transition }

/-- The transition of a finalised placement is the one of the work and of the target. -/
def EnqueueDrainWorkRequest.TransitionMatches : Prop :=
  req.transition.volumeID = req.volumeID ∧ req.transition.placementRef = req.placementRef ∧
    req.transition.reason = "drain" ∧ req.transition.currentReplicaSetID = req.replicaSetID ∧
    req.transition.targetReplicaSetID ≠ "" ∧
    req.transition.targetReplicaSetID = trimSpace req.targetReplicaSet.replicaSetID ∧
    maintenanceIndexVolumeID env.toMaintenanceEnv req.targetVolumeID = req.volumeID

instance (req : EnqueueDrainWorkRequest) : Decidable (req.TransitionMatches env) :=
  inferInstanceAs (Decidable (_ ∧ _))

/-- Every extent has an id, and none comes twice. -/
def checkExtents (seen : List Nat) : List DrainWorkExtent → Except DrainErr Unit
  | [] => return ()
  | extent :: rest =>
    if extent.extentID = 0 then throw (.index (.indexInvalid "drain work extent identity"))
    else if extent.extentID ∈ seen then
      throw (.indexConflict ("duplicate drain work extent " ++ toString extent.extentID))
    else checkExtents (extent.extentID :: seen) rest

def EnqueueDrainWorkRequest.check : Except DrainErr Unit := do
  if req.operationID = "" ∨ req.nodeID = "" ∨ req.volumeID = "" ∨ req.placementRef = "" ∨
      req.replicaSetID = "" ∨ req.extents = [] then
    throw (.index (.indexInvalid "drain work request identity"))
  checkExtents [] req.extents
  if req.finalizePlacement ∧ ¬req.TransitionMatches env then
    throw (.index (.indexInvalid "finalized drain placement identity"))

def EnqueueDrainWorkRequest.item (extent : DrainWorkExtent) : DrainWorkItemRecord δ :=
  let item : DrainWorkItemRecord δ :=
    { schemaVersion := drainIndexSchemaVersion
      operationID := req.operationID
      nodeID := req.nodeID
      volumeID := req.volumeID
      placementRef := req.placementRef
      extentID := extent.extentID
      dataBytes := extent.dataBytes
      itemDigest := env.emptyDigest }
  { item with itemDigest := digestDrainWorkItemRecord env item }

/-- The work record of a placement that nothing is enqueued of yet. -/
def EnqueueDrainWorkRequest.newWork (now : Nat) : DrainWorkRecord δ where
  schemaVersion := drainIndexSchemaVersion
  operationID := req.operationID
  nodeID := req.nodeID
  volumeID := req.volumeID
  placementRef := req.placementRef
  replicaSetID := req.replicaSetID
  extentCount := 0
  dataBytes := 0
  state := .pending
  updatedAtUnix := unix now
  workDigest := env.emptyDigest

/-- A request goes on with the work that is stored. -/
def DrainWorkRecord.SameIdentity (existing work : DrainWorkRecord δ) : Prop :=
  existing.nodeID = work.nodeID ∧ existing.operationID = work.operationID ∧
    existing.volumeID = work.volumeID ∧ existing.placementRef = work.placementRef ∧
    existing.replicaSetID = work.replicaSetID

instance (existing work : DrainWorkRecord δ) : Decidable (existing.SameIdentity work) :=
  inferInstanceAs (Decidable (_ ∧ _))

def PlacementTransitionRecord.SameIdentity (existing transition : PlacementTransitionRecord) :
    Prop :=
  existing.volumeID = transition.volumeID ∧ existing.placementRef = transition.placementRef ∧
    existing.reason = transition.reason ∧
    existing.currentReplicaSetID = transition.currentReplicaSetID ∧
    existing.targetReplicaSetID = transition.targetReplicaSetID

instance (existing transition : PlacementTransitionRecord) :
    Decidable (existing.SameIdentity transition) :=
  inferInstanceAs (Decidable (_ ∧ _))

end Env

/-- What a page adds: the extents that had no item, their bytes and the first of them. -/
structure NewExtents where
  count : Nat := 0
  bytes : Nat := 0
  first : Nat := 0
  deriving DecidableEq

/-! ## The store -/

/-- The store of the maintenance work with the items of drains. -/
structure DrainStore (δ : Type) where
  base : MaintenanceStore δ
  items : DrainWorkItemKey → Option (DrainWorkItemRecord δ) := fun _ => none

namespace DrainStore

variable {δ : Type} [DecidableEq δ] (env : DrainEnv δ) (s : DrainStore δ) (now : Nat)

def putProgress (progress : DrainProgressRecord δ) : DrainStore δ :=
  { s with base := { s.base with
    drainProgress := Function.update s.base.drainProgress
      (drainProgressKey progress.nodeID) (some progress) } }

def signProgress (progress : DrainProgressRecord δ) : DrainProgressRecord δ :=
  { progress with progressDigest := digestDrainProgressRecord env.toMaintenanceEnv progress }

def signWork (work : DrainWorkRecord δ) : DrainWorkRecord δ :=
  { work with workDigest := digestDrainWorkRecord env.toMaintenanceEnv work }

/-- The progress of an operation that has enqueued nothing. -/
def newProgress (nodeID operationID : String) : DrainProgressRecord δ :=
  signProgress env
    { schemaVersion := drainIndexSchemaVersion
      nodeID
      operationID
      sourceCursor := ""
      extentCursor := ""
      enqueueCompleted := false
      totalExtents := 0
      remainingExtents := 0
      totalBytes := 0
      remainingBytes := 0
      sampleRef := ""
      updatedAtUnix := unix now
      progressDigest := env.emptyDigest }

/-- Starts the drain of a node, or goes on with the one of the operation. -/
def beginDrainProgress (nodeID operationID : String) :
    Except DrainErr (DrainProgressRecord δ × DrainStore δ) :=
  let nodeID := trimSpace nodeID
  let operationID := trimSpace operationID
  let fresh := newProgress env now nodeID operationID
  if nodeID = "" ∨ operationID = "" then
    throw (.index (.indexInvalid "drain progress identity"))
  else
    match s.base.drainProgress (drainProgressKey nodeID) with
    | none => return (fresh, s.putProgress fresh)
    | some existing =>
      if ¬existing.Valid env.toMaintenanceEnv then
        throw (.index (.indexInvalid "drain progress record"))
      else if existing.operationID = operationID then return (existing, s)
      else return (fresh, s.putProgress fresh)

/-- Moves the cursor, if the progress is still the one that was read. -/
def advanceDrainEnqueueCursor (before : DrainProgressRecord δ)
    (sourceCursor extentCursor : String) (completed : Bool) :
    Except DrainErr (DrainProgressRecord δ × DrainStore δ) :=
  if ¬before.Valid env.toMaintenanceEnv then
    throw (.index (.indexInvalid "drain progress record"))
  else if !completed ∧ trimSpace sourceCursor = "" ∧ trimSpace extentCursor = "" then
    throw (.index (.indexInvalid "non-complete drain cursors are empty"))
  else
    match s.base.drainProgress (drainProgressKey before.nodeID) with
    | none => throw (.index .casConflict)
    | some current =>
      if current.progressDigest ≠ before.progressDigest then throw (.index .casConflict)
      else
        let current := signProgress env
          { current with
            sourceCursor, extentCursor, enqueueCompleted := completed, updatedAtUnix := unix now }
        return (current, { s with base := { s.base with
          drainProgress := Function.update s.base.drainProgress
            (drainProgressKey before.nodeID) (some current) } })

/-! ### Enqueueing a page -/

variable (req : EnqueueDrainWorkRequest)

/-- The work record of the request, and whether it is stored already. -/
def findWork : Except DrainErr (DrainWorkRecord δ × Bool) :=
  let work := req.newWork env now
  match s.base.drainWorks (drainWorkKey work) with
  | none => return (work, false)
  | some existing =>
    if ¬existing.Valid env.toMaintenanceEnv then
      throw (.index (.indexInvalid "drain work record"))
    else if ¬existing.SameIdentity work then
      throw (.indexConflict "drain work identity differs")
    else return (existing, true)

/-- One extent of a page: an extent that has its item counts nothing. -/
def enqueueExtent (acc : (DrainWorkItemKey → Option (DrainWorkItemRecord δ)) × NewExtents)
    (extent : DrainWorkExtent) :
    Except DrainErr ((DrainWorkItemKey → Option (DrainWorkItemRecord δ)) × NewExtents) :=
  let item := req.item env extent
  let key := drainWorkItemKey item
  match acc.1 key with
  | some existing =>
    if ¬existing.Valid env then throw (.index (.indexInvalid "drain work item record"))
    else if existing.itemDigest ≠ item.itemDigest then
      throw (.indexConflict ("drain work extent " ++ toString extent.extentID ++ " differs"))
    else return acc
  | none =>
    if counterBound ≤ acc.2.bytes + extent.dataBytes then
      throw (.index (.indexInvalid "drain work byte counter overflow"))
    else
      return (Function.update acc.1 key (some item),
        { count := acc.2.count + 1
          bytes := acc.2.bytes + extent.dataBytes
          first := if acc.2.first = 0 then extent.extentID else acc.2.first })

/-- A finished work gains no extents, and no counter overflows. -/
def checkCounters (work : DrainWorkRecord δ) (progress : DrainProgressRecord δ)
    (added : NewExtents) : Except DrainErr Unit := do
  if work.state = .completed ∧ added.count ≠ 0 then
    throw (.indexConflict "completed drain work gained extents")
  if counterBound ≤ work.extentCount + added.count ∨
      counterBound ≤ progress.totalExtents + added.count ∨
      counterBound ≤ progress.remainingExtents + added.count then
    throw (.index (.indexInvalid "drain work extent counter overflow"))
  if counterBound ≤ work.dataBytes + added.bytes ∨
      counterBound ≤ progress.totalBytes + added.bytes ∨
      counterBound ≤ progress.remainingBytes + added.bytes then
    throw (.index (.indexInvalid "drain work byte counter overflow"))

def addToWork (work : DrainWorkRecord δ) (added : NewExtents) : DrainWorkRecord δ :=
  signWork env
    { work with
      extentCount := work.extentCount + added.count
      dataBytes := work.dataBytes + added.bytes
      updatedAtUnix := unix now }

def addToProgress (work : DrainWorkRecord δ) (progress : DrainProgressRecord δ)
    (added : NewExtents) : DrainProgressRecord δ :=
  signProgress env
    { progress with
      totalExtents := progress.totalExtents + added.count
      remainingExtents := progress.remainingExtents + added.count
      totalBytes := progress.totalBytes + added.bytes
      remainingBytes := progress.remainingBytes + added.bytes
      sampleRef :=
        if progress.sampleRef = "" ∧ added.first ≠ 0 then
          "replica_set=" ++ work.replicaSetID ++ " volume=" ++ work.volumeID ++ " extent=" ++
            toString added.first
        else progress.sampleRef
      updatedAtUnix := unix now }

/-- The counters of the work and the progress after a page, with the work and the progress as they
are then. -/
def countPage (work : DrainWorkRecord δ) (workFound : Bool) (progress : DrainProgressRecord δ)
    (added : NewExtents) :
    Except DrainErr (DrainWorkRecord δ × DrainProgressRecord δ × DrainStore δ) :=
  if added.count ≠ 0 then
    let work := addToWork env now work added
    let progress := addToProgress env now work progress added
    return (work, progress, { s with base := { s.base with
      drainWorks := Function.update s.base.drainWorks (drainWorkKey work)
        (some work)
      drainProgress := Function.update s.base.drainProgress
        (drainProgressKey req.nodeID) (some progress) } })
  else if !workFound then
    throw (.index (.indexChanged "drain work items exist without aggregate"))
  else return (work, progress, s)

/-- The transition to write: one that is stored stays. -/
def finalTransition : Except DrainErr PlacementTransitionRecord :=
  match s.base.transitions
      (placementTransitionKey env.toMaintenanceEnv req.volumeID req.placementRef) with
  | none => return req.transition
  | some existing =>
    if ¬existing.SameIdentity req.transition then
      throw (.indexConflict "drain transition identity differs")
    else return existing

/-- The target replica set and the copy of the work record under the key of the transition. -/
def putTargetAndCopy (work : DrainWorkRecord δ) : MaintenanceStore δ :=
  { s.base with
    replicaSets := Function.update s.base.replicaSets
      (replicaSetKey env.toMaintenanceEnv req.volumeID
        (trimSpace req.targetReplicaSet.replicaSetID)) (some req.targetReplicaSet)
    drainWorkTransitions := Function.update s.base.drainWorkTransitions
      (drainWorkTransitionKey env.toMaintenanceEnv work.volumeID work.placementRef) (some work) }

/-- The progress that the call returns after a transition that is already completed. -/
def completedProgress (base : MaintenanceStore δ) (req : EnqueueDrainWorkRequest)
    (transition : PlacementTransitionRecord) (progress : DrainProgressRecord δ) :
    Except DrainErr (DrainProgressRecord δ) :=
  if transition.state ≠ .completed then return progress
  else
    match base.drainProgress (drainProgressKey req.nodeID) with
    | none => throw (.index (.indexChanged "completed drain progress is missing"))
    | some progress =>
      if ¬progress.Valid env.toMaintenanceEnv then
        throw (.index (.indexChanged "completed drain progress is missing"))
      else return progress

/-- The last page of a placement stores its transition, which may finish the work. -/
def finalizePlacement (work : DrainWorkRecord δ) (progress : DrainProgressRecord δ) :
    Except DrainErr (DrainProgressRecord δ × DrainStore δ) := do
  let transition ← s.finalTransition env req
  let base ← ((s.putTargetAndCopy env req work).putPlacementTransition env.toMaintenanceEnv now
    transition).mapError .index
  let progress ← completedProgress env base req transition progress
  return (progress, { s with base })

def finishPage (work : DrainWorkRecord δ) (progress : DrainProgressRecord δ) :
    Except DrainErr (DrainProgressRecord δ × DrainStore δ) :=
  if req.finalizePlacement then s.finalizePlacement env now req work progress
  else .ok (progress, s)

/-- The progress of the request's operation. -/
def currentProgress : Except DrainErr (DrainProgressRecord δ) :=
  match s.base.drainProgress (drainProgressKey req.nodeID) with
  | none => throw (.index (.indexChanged "drain progress does not match work"))
  | some progress =>
    if ¬progress.Valid env.toMaintenanceEnv ∨ progress.operationID ≠ req.operationID then
      throw (.index (.indexChanged "drain progress does not match work"))
    else return progress

/-- The transaction of `EnqueueDrainWork`; the request is normalised and checked. -/
def enqueuePage : Except DrainErr ((DrainProgressRecord δ × Bool) × DrainStore δ) := do
  let progress ← s.currentProgress env req
  let (work, workFound) ← s.findWork env now req
  let (items, added) ← req.extents.foldlM (enqueueExtent env req) (s.items, {})
  checkCounters work progress added
  let (work, progress, s) ← countPage env { s with items } now req work workFound progress added
  let (progress, s) ← s.finishPage env now req work progress
  return ((progress, added.count ≠ 0), s)

/-- Counts a page of extents in, those that are new. -/
def enqueueDrainWork : Except DrainErr ((DrainProgressRecord δ × Bool) × DrainStore δ) := do
  let req := req.normalized env
  req.check env
  s.enqueuePage env now req

end DrainStore

/-! ## The drain of one node -/

structure DrainSystem (δ : Type) where
  store : DrainStore δ
  now : Nat

inductive DrainEvent (δ : Type) where
  | tick (elapsed : Nat)
  | setVolume (volumeID : String) (volume : Option VolumeState)
  | setReplicaSet (volumeID replicaSetID : String) (record : Option ReplicaSetState)
  | begin (nodeID operationID : String)
  | enqueue (req : EnqueueDrainWorkRequest)
  | advance (before : DrainProgressRecord δ) (sourceCursor extentCursor : String)
      (completed : Bool)
  | putTransition (transition : PlacementTransitionRecord)

namespace DrainSystem

variable {δ : Type} [DecidableEq δ] (env : DrainEnv δ)

def commit {ε : Type} (s : DrainSystem δ) (result : Except ε (DrainStore δ)) : DrainSystem δ :=
  match result with
  | .ok store => { s with store }
  | .error _ => s

def putTransition (s : DrainSystem δ) (transition : PlacementTransitionRecord) :
    Except MaintenanceErr (DrainStore δ) :=
  (s.store.base.putPlacementTransition env.toMaintenanceEnv s.now transition).map fun base =>
    { s.store with base }

def apply (s : DrainSystem δ) : DrainEvent δ → DrainSystem δ
  | .tick elapsed => { s with now := s.now + elapsed }
  | .setVolume volumeID volume =>
    { s with store := { s.store with base := { s.store.base with
      volumes := Function.update s.store.base.volumes
        (mustCanonicalVolumeID env.toMaintenanceEnv volumeID) volume } } }
  | .setReplicaSet volumeID replicaSetID record =>
    { s with store := { s.store with base := { s.store.base with
      replicaSets := Function.update s.store.base.replicaSets
        (replicaSetKey env.toMaintenanceEnv volumeID replicaSetID) record } } }
  | .begin nodeID operationID =>
    s.commit ((s.store.beginDrainProgress env s.now nodeID operationID).map (·.2))
  | .enqueue req => s.commit ((s.store.enqueueDrainWork env s.now req).map (·.2))
  | .advance before sourceCursor extentCursor completed =>
    s.commit ((s.store.advanceDrainEnqueueCursor env s.now before sourceCursor extentCursor
      completed).map (·.2))
  | .putTransition transition => s.commit (s.putTransition env transition)

def step (s : DrainSystem δ) (e : DrainEvent δ) : Option (DrainSystem δ) :=
  some (s.apply env e)

end DrainSystem

end Namrbd
