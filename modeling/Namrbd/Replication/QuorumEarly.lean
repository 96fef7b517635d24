import Namrbd.Replication.RemoteReplica
import Namrbd.Replication.WriteService

/-!
# Writes that return at quorum

With early return the writer of remote replicas waits for the acknowledgements of a
quorum only; the replica writes that are left go on in the background. A staged fan-out
starts the quorum's targets first and the others after a delay, a failure or the
quorum. `QuorumCluster.step` takes one action of this. Replica writes run in any order,
also those of earlier writes.
-/

namespace Namrbd

def primaryReplicaIDForPlan (plan : ExtentWritePlan) : String :=
  if plan.primary.replicaID ≠ "" then plan.primary.replicaID
  else match plan.writeTargets with
    | [] => ""
    | target :: _ => target.replicaID

/-- The targets to start at once, as many as a quorum and the primary last among them, and
the targets to start later. -/
def quorumEarlyStagedFanoutTargets (plan : ExtentWritePlan) (staged : Bool) :
    List ReplicaTarget × List ReplicaTarget :=
  if !staged || plan.requiredAcks == 0 || plan.writeTargets.length ≤ plan.requiredAcks then
    (plan.writeTargets, [])
  else
    let required := plan.requiredAcks
    let primaryID := primaryReplicaIDForPlan plan
    let indexed := plan.writeTargets.zipIdx
    let others := if primaryID ≠ "" then
        ((indexed.filter fun (target, _) => target.replicaID ≠ primaryID).map (·.2)).take required
      else []
    let initialIndexes := indexed.foldl (fun indexes (_, i) =>
      if required ≤ indexes.length ∨ i ∈ indexes then indexes else indexes ++ [i]) others
    ((indexed.filter fun (_, i) => i ∈ initialIndexes).map (·.1),
      (indexed.filter fun (_, i) => i ∉ initialIndexes).map (·.1))

/-- One replica write of an extent: what is written to which target. `write` counts the
writes of the run. -/
structure ReplicaWrite where
  write : Nat
  extentIndex : Nat
  plan : ExtentWritePlan
  req : WriteRequest
  writeOffset : Nat
  payload : List Byte
  target : ReplicaTarget

/-- The extent a write waits for. `delayed` are the targets not started yet, `results` the
results not received yet: a replica, and the failure if its write failed. -/
structure Fanout where
  extentIndex : Nat
  /-- The write may go on at quorum. -/
  early : Bool
  requiredAcks : Nat
  /-- The replica write of a target of this extent. -/
  replicaWrite : ReplicaTarget → ReplicaWrite
  delayed : List ReplicaTarget
  pending : Nat
  acked : List String := []
  failures : List String := []
  results : List (String × Option String) := []

/-- Where the write of the service is. Replica writes may go on after it has ended. -/
inductive QuorumPhase where
  | idle
  | writing (req : WriteRequest) (exec : WriteExecution) (fanout : Fanout)
  | paid (req : WriteRequest) (exec : WriteExecution)
  | failed

structure RemoteSession where
  replicaID : String
  server : String

structure QuorumConfig where
  executor : ExecutorConfig
  sessions : String → Option RemoteSession
  /-- A delay for the staged fan-out is set. -/
  staged : Bool := false

/-- The metadata, the servers, the write under way and the replica writes in the
background. `writes`, `acknowledged` and `ran` are history: the writes begun, the last of
them that was acknowledged, and the replica writes that ran, the latest first, with the
server and whether they succeeded. -/
structure QuorumCluster where
  repository : Repository
  deferred : List ApplyCommittedWriteEffectsRequest := []
  servers : String → ChunkServer
  phase : QuorumPhase := .idle
  started : List ReplicaWrite := []
  writes : List WriteRequest := []
  acknowledged : Option Nat := none
  ran : List (String × ReplicaWrite × Bool) := []

namespace QuorumCluster

/-! ## The write under way -/

def fail (s : QuorumCluster) (exec : WriteExecution) (err : Err) : QuorumCluster :=
  { s with repository := markFailed s.repository exec err.message, phase := .failed }

/-- `RemoteReplicaWriter.WriteExtent` up to where it waits: start the replica writes of the
extent. After the last extent the payload is written. -/
def startExtent (staged : Bool) (req : WriteRequest) (exec : WriteExecution) (extentIndex : Nat)
    (s : QuorumCluster) : QuorumCluster :=
  match exec.extents[extentIndex]? with
  | none => { s with phase := .paid req exec }
  | some status =>
    let plan := status.plan
    let replicaReq := { req with data := replicaData exec req }
    match payloadForExtent plan replicaReq,
        overlapRange plan.extent req.offsetBytes req.lengthBytes with
    | .error err, _ => s.fail exec err
    | _, .error err => s.fail exec err
    | .ok payload, .ok (writeOffset, _) =>
      if plan.copyOnWrite && (resolvedWriteChunkMappings plan replicaReq).isNone then
        s.fail exec (.other "remote copy-on-write requires allocation chunk mappings")
      else
        let early := 0 < plan.requiredAcks ∧ plan.requiredAcks < plan.writeTargets.length
        let (initial, delayed) := if early then quorumEarlyStagedFanoutTargets plan staged
          else (plan.writeTargets, [])
        let replicaWrite := fun target => {
          write := s.writes.length - 1
          extentIndex, plan, writeOffset, payload, target
          req := replicaReq }
        { s with
          started := s.started ++ initial.map replicaWrite
          phase := .writing req exec {
            extentIndex, delayed, replicaWrite
            early := decide early
            requiredAcks := plan.requiredAcks
            pending := initial.length } }

/-- The error of an extent that too few replicas have acknowledged. -/
def quorumError (plan : ExtentWritePlan) (fanout : Fanout) (primaryAcked : Bool) : Err :=
  let primary := { plan.primary with replicaID := primaryReplicaIDForPlan plan }
  let failures := "; ".intercalate fanout.failures
  .other ((writeQuorumError { plan with primary } fanout.acked primaryAcked).message ++
    if fanout.failures = [] then "" else s!" failures={failures}")

/-- The writer returns: count the acknowledgements, and go on with the next extent if they
are a quorum. -/
def finishExtent (staged : Bool) (req : WriteRequest) (exec : WriteExecution) (fanout : Fanout)
    (requirePrimaryAck : Bool) (s : QuorumCluster) : QuorumCluster :=
  let exec := exec.markReplicaAcks fanout.extentIndex requirePrimaryAck fanout.acked
  match exec.extents[fanout.extentIndex]? with
  | none => s.fail exec (.other s!"extent index {fanout.extentIndex} out of range")
  | some status =>
    if status.quorumReached then s.startExtent staged req exec (fanout.extentIndex + 1)
    else s.fail exec (quorumError status.plan fanout status.primaryAcked)

/-- The replicas that were held back are written as well. -/
def startDelayed (fanout : Fanout) (s : QuorumCluster) : Fanout × QuorumCluster :=
  ({ fanout with delayed := [], pending := fanout.pending + fanout.delayed.length },
    { s with started := s.started ++ fanout.delayed.map fanout.replicaWrite })

/-- The writer has received what it received and goes on waiting, or returns. -/
def continueExtent (staged : Bool) (req : WriteRequest) (exec : WriteExecution) (fanout : Fanout)
    (s : QuorumCluster) : QuorumCluster :=
  if fanout.early ∧ fanout.requiredAcks ≤ fanout.acked.length then
    let (fanout, s) := s.startDelayed fanout
    s.finishExtent staged req exec fanout false
  else if 0 < fanout.pending ∨ fanout.delayed ≠ [] then
    { s with phase := .writing req exec fanout }
  else if fanout.failures ≠ [] ∧ fanout.acked = [] then
    let failures := "; ".intercalate fanout.failures
    s.fail exec (.other s!"replica writes failed acked=0 failures={fanout.failures.length}: {failures}")
  else s.finishExtent staged req exec fanout true

/-- Receive one result. A failure that leaves too few replica writes for a quorum starts the
targets that were held back. -/
def receive (staged : Bool) (req : WriteRequest) (exec : WriteExecution) (fanout : Fanout)
    (result : String × Option String) (s : QuorumCluster) : QuorumCluster :=
  let fanout := { fanout with pending := fanout.pending - 1 }
  match result with
  | (replicaID, none) =>
    let acked := if replicaID ∈ fanout.acked then fanout.acked else fanout.acked ++ [replicaID]
    s.continueExtent staged req exec { fanout with acked }
  | (_, some failure) =>
    let fanout := { fanout with failures := fanout.failures ++ [failure] }
    let (fanout, s) :=
      if fanout.acked.length + fanout.pending < fanout.requiredAcks then s.startDelayed fanout
      else (fanout, s)
    s.continueExtent staged req exec fanout

/-! ## Replica writes -/

/-- The result of a replica write reaches the writer, if it still waits for it. -/
def deliver (w : ReplicaWrite) (failure : Option String) (s : QuorumCluster) : QuorumCluster :=
  match s.phase with
  | .writing req exec fanout =>
    if w.write + 1 = s.writes.length ∧ w.extentIndex = fanout.extentIndex then
      let fanout :=
        { fanout with results := fanout.results ++ [(w.target.replicaID, failure)] }
      { s with phase := .writing req exec fanout }
    else s
  | _ => s

variable (sessions : String → Option RemoteSession)

/-- A replica write runs. Without faults given it does not reach its server in time. -/
def runReplicaWrite (w : ReplicaWrite) (faults : Option RemoteFaults) (s : QuorumCluster) :
    QuorumCluster :=
  match remoteReplicaForTarget sessions w.target, faults with
  | none, _ =>
    s.deliver w (some s!"replica \"{w.target.replicaID}\" on node \"{w.target.nodeID}\" has no remote client")
  | some _, none => s.deliver w (some "context deadline exceeded")
  | some session, some faults =>
    let (result, server) :=
      writeRemoteTarget faults w.plan w.req w.writeOffset w.payload (s.servers session.server)
    let s := { s with
      servers := Function.update s.servers session.server server
      ran := (session.server, w, result.isOk) :: s.ran }
    match result with
    | .ok () => s.deliver w none
    | .error err =>
      s.deliver w (some s!"replica \"{w.target.replicaID}\" on node \"{w.target.nodeID}\": {err.message}")

/-! ## One call -/

/-- A write begins. A write that is replayed or changes nothing is acknowledged at once. -/
def begin (cfg : QuorumConfig) (req : WriteRequest) (s : QuorumCluster) : QuorumCluster :=
  match beginWrite cfg.executor s.repository req with
  | .error _ => { s with phase := .failed }
  | .ok (.replay _, m) => { s with repository := m }
  | .ok (.noop _, m) =>
    { s with
      repository := m
      writes := s.writes ++ [req]
      acknowledged := some s.writes.length }
  | .ok (.execution exec, m) =>
    startExtent cfg.staged req exec 0 { s with repository := m, writes := s.writes ++ [req] }

/-- The payload is written: commit and acknowledge. -/
def commit (cfg : QuorumConfig) (now : Nat) (req : WriteRequest) (exec : WriteExecution)
    (s : QuorumCluster) : QuorumCluster :=
  match finishWrite cfg.executor now
      { repository := s.repository, stores := fun _ => none, deferred := s.deferred } exec req with
  | (.error _, c) => { s with repository := c.repository, deferred := c.deferred, phase := .failed }
  | (.ok _, c) =>
    { s with
      repository := c.repository
      deferred := c.deferred
      phase := .idle
      acknowledged := some (s.writes.length - 1) }

/-- What can happen next. `run` and `receive` pick one of the replica writes that are
started and one of the results that are there. -/
inductive Event where
  | begin (req : WriteRequest)
  | run (k : Nat) (faults : Option RemoteFaults)
  | receive (k : Nat)
  | delayPassed
  | commit (now : Nat)

def step (cfg : QuorumConfig) (s : QuorumCluster) : Event → Option QuorumCluster
  | .begin req =>
    match s.phase with
    | .idle => some (s.begin cfg req)
    | _ => none
  | .run k faults =>
    s.started[k]?.map fun w =>
      { s with started := s.started.eraseIdx k }.runReplicaWrite cfg.sessions w faults
  | .receive k =>
    match s.phase with
    | .writing req exec fanout =>
      fanout.results[k]?.map fun result =>
        s.receive cfg.staged req exec { fanout with results := fanout.results.eraseIdx k } result
    | _ => none
  | .delayPassed =>
    match s.phase with
    | .writing req exec fanout =>
      let (fanout, s) := s.startDelayed fanout
      some { s with phase := .writing req exec fanout }
    | _ => none
  | .commit now =>
    match s.phase with
    | .paid req exec => some (s.commit cfg now req exec)
    | _ => none

def steps (cfg : QuorumConfig) (s : QuorumCluster) : List Event → Option QuorumCluster
  | [] => some s
  | event :: events => (s.step cfg event).bind fun s => s.steps cfg events

/-! ## Reading -/

/-- The reader's replicas, where the servers in `down` do not answer. -/
def reader (down : String → Bool) (s : QuorumCluster) : RemoteReplicaReader where
  replicas name := (sessions name).map fun session =>
    { replicaID := session.replicaID
      client := (s.servers session.server).client (down session.server) }

/-- A read over the remote replicas, some of which may be down. -/
def read (down : String → Bool) (s : QuorumCluster) (req : ReadRequest) :
    Except ClientErr (List Byte) :=
  match planRead s.repository req.offsetBytes req.lengthBytes req.pageBytes req.chunkSizeBytes with
  | .error err => .error (.other err.message)
  | .ok plan => do
    let parts ← plan.mapM fun extent =>
      return (← (s.reader sessions down).readExtent extent req).1
    return parts.flatten

end QuorumCluster

end Namrbd
