import Namrbd.Lib.Table
import Namrbd.Metadata.MaintenanceWork

/-!
# Node memberships and their projection

The authority records of the nodes, the projection that listings read, and the
state record that counts the revisions of both. A mutation writes the authority
record, its copy in the projection and the state in one transaction. Both record
spaces are tables in the order of their keys, as the store lists them. The clock
counts nanoseconds, and the revisions and generations are natural numbers.
-/

namespace Namrbd

open Text (trimSpace)

def NodeLifecycleState.text : NodeLifecycleState → String
  | .unset => ""
  | .joining => "joining"
  | .active => "active"
  | .draining => "draining"
  | .removed => "removed"

def NodeHealthState.text : NodeHealthState → String
  | .unset => ""
  | .healthy => "healthy"
  | .suspect => "suspect"
  | .down => "down"

/-- The fields of a `NodeMembershipRecord` that the membership calls read or write. -/
structure MembershipRecord extends NodeMembershipRecord where
  schemaVersion : String := ""
  replicaID : String := ""
  storeIDs : List String := []
  roles : List String := []
  desiredState : String := ""
  observedState : String := ""
  generation : Nat := 0
  membershipRevision : Nat := 0
  tombstone : Bool := false
  createdAtUnix : Nat := 0
  updatedAtUnix : Nat := 0
  updateReason : String := ""
  deriving DecidableEq

/-- The revisions of the authority records and of the projection. -/
structure MembershipProjectionState where
  schemaVersion : String := ""
  membershipRevision : Nat := 0
  membershipProjectionRevision : Nat := 0
  membershipUpdatedAtUnixNano : Nat := 0
  projectionUpdatedAtUnixNano : Nat := 0
  projectionRebuildCount : Nat := 0
  projectionResyncCount : Nat := 0
  deriving DecidableEq

inductive MembershipErr where
  | nodeIDRequired
  | notFound
  | casConflict
  | projectionStale (membershipRevision membershipProjectionRevision : Nat)
  | projectionChanged
  deriving DecidableEq

def membershipRecordSchemaV1 : String := "sbs-membership/v1"

/-- The authority records and the projection that listings read. -/
structure MembershipStore where
  members : List MembershipRecord := []
  projection : List MembershipRecord := []
  state : Option MembershipProjectionState := none
  deriving DecidableEq

abbrev MembershipRecord.key (record : MembershipRecord) : String := record.nodeID

section Normalize

variable (now : Nat)

/-- Fills in what records of older versions lack. -/
def normalizeLegacyNodeMembershipRecord (record : MembershipRecord) : MembershipRecord :=
  let record := { record with nodeID := trimSpace record.nodeID }
  let record := { record with
    schemaVersion :=
      if record.schemaVersion = "" then membershipRecordSchemaV1 else record.schemaVersion
    replicaID := if record.replicaID = "" then record.nodeID else record.replicaID }
  { record with
    storeIDs :=
      if record.storeIDs = [] ∧ record.replicaID ≠ "" then [record.replicaID] else record.storeIDs
    roles := if record.roles = [] then ["sbs-data"] else record.roles
    desiredState :=
      if record.desiredState = "" then record.lifecycleState.text else record.desiredState
    observedState :=
      if record.observedState = "" then record.healthState.text else record.observedState
    generation := if record.generation = 0 then 1 else record.generation
    createdAtUnix := if record.createdAtUnix = 0 then unix now else record.createdAtUnix
    updatedAtUnix := unix now }

/-- A record that is not found reads as one with every field zero. -/
def normalizeNodeMembershipRecord (record : MembershipRecord) (existing : Option MembershipRecord) :
    MembershipRecord :=
  let record := normalizeLegacyNodeMembershipRecord now record
  let generation := existing.elim 0 (·.generation)
  let createdAtUnix := existing.elim 0 (·.createdAtUnix)
  { record with
    generation := if 0 < generation then generation + 1 else 1
    createdAtUnix := if 0 < createdAtUnix then createdAtUnix else record.createdAtUnix }

end Normalize

namespace MembershipStore

variable (s : MembershipStore) (now : Nat)

def getMember (nodeID : String) : Option MembershipRecord :=
  Table.get? MembershipRecord.key nodeID s.members

/-- A stale generation is refused; a call that expects none asks for no record. -/
def checkGeneration (existing : Option MembershipRecord) (expectedGeneration : Option Nat) :
    Except MembershipErr Unit :=
  match expectedGeneration, existing with
  | none, _ => return
  | some expected, some existing =>
    if existing.generation ≠ expected then throw .casConflict else return
  | some expected, none => if expected ≠ 0 then throw .casConflict else return

/-- One revision further, with the projection up to it. -/
def mutatedState : MembershipProjectionState :=
  let state := s.state.getD {}
  let revision := state.membershipRevision + 1
  { state with
    schemaVersion := membershipRecordSchemaV1
    membershipRevision := revision
    membershipUpdatedAtUnixNano := now
    membershipProjectionRevision := revision
    projectionUpdatedAtUnixNano := now }

def mutatedRecord (requested : MembershipRecord) : MembershipRecord :=
  { normalizeNodeMembershipRecord now requested (s.getMember requested.nodeID) with
    membershipRevision := (s.mutatedState now).membershipRevision }

/-- Stores a record and its copy in the projection. -/
def applyNodeMembershipMutation (requested : MembershipRecord) (expectedGeneration : Option Nat) :
    Except MembershipErr (MembershipRecord × MembershipStore) := do
  checkGeneration (s.getMember requested.nodeID) expectedGeneration
  let record := s.mutatedRecord now requested
  return (record,
    { members := Table.put MembershipRecord.key record s.members
      projection := Table.put MembershipRecord.key record s.projection
      state := some (s.mutatedState now) })

/-- The node id is trimmed and has to be there. -/
def putNodeMembership (record : MembershipRecord) (expectedGeneration : Option Nat) :
    Except MembershipErr (MembershipRecord × MembershipStore) :=
  let requested := { record with nodeID := trimSpace record.nodeID }
  if requested.nodeID = "" then throw .nodeIDRequired
  else s.applyNodeMembershipMutation now requested expectedGeneration

/-- The record of a node that is removed. -/
def tombstoned (record : MembershipRecord) : MembershipRecord :=
  { record with
    tombstone := true
    lifecycleState := .removed
    desiredState := NodeLifecycleState.removed.text
    updateReason := "node membership tombstoned" }

end MembershipStore

end Namrbd
