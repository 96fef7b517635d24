import Namrbd.Replication.Executor

/-!
# The pipeline state of a write

The calls that move a write execution through its pipeline, one definition per
method of the execution. A call that reports an error leaves the execution as
it was.
-/

namespace Namrbd

namespace WriteExecution

variable (w : WriteExecution)

def markValidated : WriteExecution :=
  if w.state = .received then { w with state := .validated } else w

def markIntentPending : WriteExecution :=
  if w.state = .validated ∨ w.state = .received then { w with state := .intentPending } else w

def extentIndexOutOfRange (extentIndex : Int) : Err :=
  .other s!"extent index {extentIndex} out of range"

/-- An index that no extent has is an error, also one below 0. -/
def extentStatus (extentIndex : Int) : Except Err ExtentWriteStatus :=
  if extentIndex < 0 then .error (extentIndexOutOfRange extentIndex)
  else
    match w.extents[extentIndex.toNat]? with
    | none => .error (extentIndexOutOfRange extentIndex)
    | some status => .ok status

/-- An acknowledgement of an extent that has failed is refused. -/
def markReplicaAckWithPolicy (extentIndex : Int) (replicaID : String) (requirePrimaryAck : Bool) :
    Except Err WriteExecution := do
  let status ← w.extentStatus extentIndex
  if status.failed then
    throw (.other s!"extent {extentIndex} already failed")
  let status := status.markReplicaAck requirePrimaryAck replicaID
  let w := { w with extents := w.extents.set extentIndex.toNat status }
  if w.allExtentsQuorumReached then
    return { w with state := .payloadQuorumDone }
  return w

def markReplicaAck (extentIndex : Int) (replicaID : String) : Except Err WriteExecution :=
  w.markReplicaAckWithPolicy extentIndex replicaID true

/-- `err` is the text of the error reported, if one is. -/
def markExtentFailed (extentIndex : Int) (err : Option String) : Except Err WriteExecution := do
  let status ← w.extentStatus extentIndex
  let status := { status with failed := true, lastError := err.getD status.lastError }
  return { w with
    extents := w.extents.set extentIndex.toNat status
    lastError := err.getD w.lastError
    state := .failed }

def markMetadataCommitted : Except Err WriteExecution :=
  if w.canCommitMetadata then .ok { w with state := .metadataCommitted }
  else .error (.other "write execution is not ready for metadata commit")

def markAcked : Except Err WriteExecution :=
  if w.state ≠ .metadataCommitted then
    .error (.other "write execution must be metadata committed before ack")
  else .ok { w with state := .acked }

def markFailed (err : Option String) : WriteExecution :=
  { w with lastError := err.getD w.lastError, state := .failed }

end WriteExecution

/-- The calls that move a write through its pipeline. -/
inductive WriteCall where
  | markValidated
  | markIntentPending
  | markReplicaAck (extentIndex : Int) (replicaID : String) (requirePrimaryAck : Bool)
  | markExtentFailed (extentIndex : Int) (err : Option String)
  | markMetadataCommitted
  | markAcked
  | markFailed (err : Option String)
  deriving DecidableEq

def WriteExecution.result (w : WriteExecution) : WriteCall → Except Err WriteExecution
  | .markValidated => .ok w.markValidated
  | .markIntentPending => .ok w.markIntentPending
  | .markReplicaAck extentIndex replicaID requirePrimaryAck =>
    w.markReplicaAckWithPolicy extentIndex replicaID requirePrimaryAck
  | .markExtentFailed extentIndex err => w.markExtentFailed extentIndex err
  | .markMetadataCommitted => w.markMetadataCommitted
  | .markAcked => w.markAcked
  | .markFailed err => .ok (w.markFailed err)

/-- A call that is refused leaves the write as it is. -/
def WriteExecution.call (w : WriteExecution) (c : WriteCall) : WriteExecution :=
  (w.result c).toOption.getD w

/-- Nothing has happened to the write yet. -/
def WriteExecution.Fresh (w : WriteExecution) : Prop :=
  w.state = .received ∧ ∀ status ∈ w.extents, status = { plan := status.plan }

instance (w : WriteExecution) : Decidable w.Fresh :=
  inferInstanceAs (Decidable (_ ∧ ∀ status ∈ w.extents, _))

end Namrbd
