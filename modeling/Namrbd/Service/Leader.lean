import Namrbd.Metadata.Types
import Mathlib.Logic.Function.Basic

/-!
# The leader lease of the service nodes

`refresh` takes or renews the lease record in a transaction, and notes the outcome in
the node when the transaction has returned; `Release` deletes it the same way.
`requireLeader` looks at the flag that the last refresh has left. Between a transaction
and the noting of its outcome any time may pass and other nodes may run.
-/

namespace Namrbd

structure LeaderLeaseRecord where
  nodeID : String
  acquiredAtUnix : Nat
  expiresAtUnix : Nat
  deriving DecidableEq

def LeaderLeaseRecord.unset : LeaderLeaseRecord := ⟨"", 0, 0⟩

/-- What a lease is granted for, in seconds. -/
def leaseDuration : Nat := 10

/-- The transaction of a refresh: the record it leaves and whether the node leads. -/
def acquireOrRenew (nodeID : String) (now : Nat) :
    Option LeaderLeaseRecord → LeaderLeaseRecord × Bool
  | none => (⟨nodeID, now, now + leaseDuration⟩, true)
  | some current =>
    if current.nodeID = nodeID ∨ current.expiresAtUnix ≤ now then
      let acquiredAt :=
        if current.nodeID ≠ nodeID ∨ current.acquiredAtUnix = 0 then now
        else current.acquiredAtUnix
      (⟨nodeID, acquiredAt, now + leaseDuration⟩, true)
    else (current, false)

def acquiredLease (nodeID : String) (now : Nat) (stored : Option LeaderLeaseRecord) :
    Option LeaderLeaseRecord :=
  let (next, leader) := acquireOrRenew nodeID now stored
  if leader then some next else stored

def releasedLease (nodeID : String) : Option LeaderLeaseRecord → Option LeaderLeaseRecord
  | none => none
  | some current => if current.nodeID ≠ nodeID then some current else none

inductive LeaseOutcome where
  | refreshed (record : LeaderLeaseRecord) (leader : Bool)
  | refreshFailed (record : LeaderLeaseRecord) (err : Err)
  | released
  | releaseFailed
  deriving DecidableEq

/-- What a node knows of the lease. -/
structure LeaderLeaseManager where
  isLeader : Bool := false
  current : LeaderLeaseRecord := .unset
  lastErr : Option Err := none
  pending : Option LeaseOutcome := none
  deriving DecidableEq

namespace LeaderLeaseManager

/-- Note the outcome of the last transaction. After a release the run of the node ends, and its
flag is cleared whether the release went through or not. -/
def note (m : LeaderLeaseManager) : LeaseOutcome → LeaderLeaseManager
  | .refreshed record leader => ⟨leader, record, none, none⟩
  | .refreshFailed record err => ⟨false, record, some err, none⟩
  | .released => ⟨false, .unset, none, none⟩
  | .releaseFailed => { m with isLeader := false, pending := none }

/-- A release looks at what the node has noted before it starts a transaction. -/
def releases (m : LeaderLeaseManager) (nodeID : String) : Bool :=
  m.lastErr.isNone && m.isLeader && m.current.nodeID = nodeID

def isExpired (record : LeaderLeaseRecord) (now : Nat) : Bool :=
  record.expiresAtUnix = 0 || record.expiresAtUnix ≤ now

def currentLeader (m : LeaderLeaseManager) (now : Nat) (stored : Option LeaderLeaseRecord) :
    Except Err LeaderLeaseRecord :=
  if m.lastErr.isNone ∧ m.current.nodeID ≠ "" ∧ isExpired m.current now = false then
    .ok m.current
  else
    match stored with
    | none => .error .notFound
    | some current => if isExpired current now then .error .notFound else .ok current

def requireLeader (m : LeaderLeaseManager) (now : Nat) (stored : Option LeaderLeaseRecord) :
    Except String Unit :=
  if m.isLeader then .ok ()
  else
    let noted := if m.lastErr.isNone then m.current.nodeID else ""
    let leaderID :=
      if noted = "" then
        match m.currentLeader now stored with
        | .ok current => current.nodeID
        | .error _ => ""
      else noted
    if leaderID = "" then .error "sbs-service leader is not available"
    else .error s!"local node is not leader; current leader={leaderID}"

end LeaderLeaseManager

/-! ## All nodes -/

/-- The clock, the stored lease and the managers of the nodes. -/
structure LeaderCluster where
  now : Nat
  stored : Option LeaderLeaseRecord
  node : String → LeaderLeaseManager

/-- An event of the cluster. A transaction that returns an error may still have been applied. -/
inductive LeaderEvent where
  | tick (seconds : Nat)
  | refresh (nodeID : String)
  | refreshFails (nodeID : String) (applied : Bool) (record : LeaderLeaseRecord) (err : Err)
  | release (nodeID : String)
  | releaseFails (nodeID : String) (applied : Bool)
  | note (nodeID : String)
  | stop (nodeID : String)
  deriving DecidableEq

namespace LeaderCluster

def transact (s : LeaderCluster) (nodeID : String) (stored : Option LeaderLeaseRecord)
    (outcome : LeaseOutcome) : LeaderCluster :=
  { s with
    stored := stored
    node := Function.update s.node nodeID { s.node nodeID with pending := some outcome } }

/-- One event of the cluster. -/
def step (s : LeaderCluster) : LeaderEvent → Option LeaderCluster
  | .tick seconds => some { s with now := s.now + seconds }
  | .refresh nodeID =>
    if (s.node nodeID).pending.isSome then none
    else
      let (record, leader) := acquireOrRenew nodeID s.now s.stored
      some (s.transact nodeID (acquiredLease nodeID s.now s.stored) (.refreshed record leader))
  | .refreshFails nodeID applied record err =>
    if (s.node nodeID).pending.isSome then none
    else
      let stored := if applied then acquiredLease nodeID s.now s.stored else s.stored
      some (s.transact nodeID stored (.refreshFailed record err))
  | .release nodeID =>
    if (s.node nodeID).pending.isSome ∨ (s.node nodeID).releases nodeID = false then none
    else some (s.transact nodeID (releasedLease nodeID s.stored) .released)
  | .releaseFails nodeID applied =>
    if (s.node nodeID).pending.isSome ∨ (s.node nodeID).releases nodeID = false then none
    else
      let stored := if applied then releasedLease nodeID s.stored else s.stored
      some (s.transact nodeID stored .releaseFailed)
  | .note nodeID =>
    match (s.node nodeID).pending with
    | none => none
    | some outcome =>
      some { s with node := Function.update s.node nodeID ((s.node nodeID).note outcome) }
  | .stop nodeID =>
    if (s.node nodeID).pending.isSome then none
    else
      let node := { s.node nodeID with isLeader := false }
      some { s with node := Function.update s.node nodeID node }

/-- The node gets past the check of the mutating calls. -/
def Leads (s : LeaderCluster) (nodeID : String) : Prop :=
  (s.node nodeID).requireLeader s.now s.stored = .ok ()

def initial (now : Nat) (stored : Option LeaderLeaseRecord) : LeaderCluster :=
  ⟨now, stored, fun _ => {}⟩

end LeaderCluster

end Namrbd
