import Mathlib.Algebra.Group.Int.Defs
import Mathlib.Logic.Function.Basic
import Namrbd.Lib.Result
import Namrbd.Metadata.Types

/-!
# Records and messages of the write session

`sbs/cluster/control/write_session_proto.go`: the records as they are stored, the messages of the
internal write-session service, and the converters between them. The fields that a record and its
message have alike are one structure, which the converters copy. A record holds an enumeration as a
text; in a message it is `none` when it is unspecified.
-/

namespace Namrbd.WriteSession

open Result

/-! ## Enumerations -/

def invalidWriteSessionRequestError (text : String) : Err :=
  .other ("invalid write session request: " ++ text)

/-- A text that is none of the names becomes the unspecified value. -/
def enumToProto {α : Type} (all : List α) (name : α → String) (text : String) : Option α :=
  all.find? (name · = text)

/-- The unspecified value is refused. -/
def enumFromProto {α : Type} (name : α → String) (text : String) : Option α → Except Err String
  | some a => return name a
  | none => throw (invalidWriteSessionRequestError text)

theorem enum_bind_eq_ok {α β : Type} {all : List α} {name : α → String} {text error : String}
    {k : String → Except Err β} {b : β} :
    (enumFromProto name error (enumToProto all name text) >>= k) = .ok b ↔
      text ∈ all.map name ∧ k text = .ok b := by
  unfold enumToProto
  cases hfind : all.find? (name · = text) with
  | none =>
    refine iff_of_false nofun ?_
    rintro ⟨hmem, -⟩
    obtain ⟨a, ha, hname⟩ := List.mem_map.mp hmem
    exact List.find?_eq_none.mp hfind a ha (decide_eq_true hname)
  | some a =>
    have hname : name a = text := by simpa using List.find?_some hfind
    subst hname
    exact (and_iff_right (List.mem_map_of_mem (List.mem_of_find?_eq_some hfind))).symm

def resultStateName : IdempotencyResultState → String
  | .pending => "pending"
  | .committed => "committed"
  | .failed => "failed"

def idempotencyResultStateToProto : String → Option IdempotencyResultState :=
  enumToProto [.pending, .committed, .failed] resultStateName

def idempotencyResultStateFromProto : Option IdempotencyResultState → Except Err String :=
  enumFromProto resultStateName
    "invalid idempotency result state \"IDEMPOTENCY_RESULT_STATE_UNSPECIFIED\""

def operationStateName : MutationOperationState → String
  | .pending => "pending"
  | .running => "running"
  | .committed => "committed"
  | .failed => "failed"
  | .rolledBack => "rolled_back"

def mutationOperationStateToProto : String → Option MutationOperationState :=
  enumToProto [.pending, .running, .committed, .failed, .rolledBack] operationStateName

def mutationOperationStateFromProto : Option MutationOperationState → Except Err String :=
  enumFromProto operationStateName
    "invalid mutation operation state \"MUTATION_OPERATION_STATE_UNSPECIFIED\""

def kindName : AllocationKind → String
  | .zero => "zero"
  | .data => "data"
  | .shared => "shared"

def placementApplyKindToProto : String → Option AllocationKind :=
  enumToProto [.zero, .data, .shared] kindName

def placementApplyKindFromProto : Option AllocationKind → Except Err String :=
  enumFromProto kindName ("invalid placement apply request: " ++
    "invalid placement apply allocation kind \"ALLOCATION_KIND_UNSPECIFIED\"")

/-! ## Volume states -/

/-- The fields that a message carries. -/
structure VolumeStateMessage where
  (volumeID placementPolicyID protectionPolicy status : String)
  (epoch revision : Nat)
  deriving DecidableEq

/-- The record has two fields that no message carries. -/
structure VolumeState extends VolumeStateMessage where
  topologyMode : String := ""
  redundancyBackend : String := ""
  deriving DecidableEq

def volumeStateToProto (state : VolumeState) : VolumeStateMessage :=
  { state with }

def volumeStateFromProto (state : VolumeStateMessage) : VolumeState :=
  { state with }

/-! ## Idempotency records -/

/-- What the record and the message share. -/
structure IdempotencyFields where
  (volumeID idempotencyKey attachmentID operation : String)
  (generation epoch revision : Nat)

structure IdempotencyRecord extends IdempotencyFields where
  resultState : String

structure IdempotencyRecordMessage extends IdempotencyFields where
  resultState : Option IdempotencyResultState

def idempotencyRecordToProto (record : IdempotencyRecord) : IdempotencyRecordMessage :=
  { record with resultState := idempotencyResultStateToProto record.resultState }

def idempotencyRecordFromProto (record : IdempotencyRecordMessage) :
    Except Err IdempotencyRecord := do
  let state ← idempotencyResultStateFromProto record.resultState
  return { record with resultState := state }

theorem idempotencyRecord_roundTrip {r r' : IdempotencyRecord} :
    idempotencyRecordFromProto (idempotencyRecordToProto r) = .ok r' ↔
      r.resultState ∈ ["pending", "committed", "failed"] ∧ r' = r := by
  refine enum_bind_eq_ok.trans (and_congr_right fun _ => ?_)
  rw [pure_eq_ok, Except.ok.injEq]
  exact eq_comm

/-! ## Mutation operations -/

structure MutationRetiredReplicaTarget where
  nodeID : String
  sourceReplicaIDs : List String

/-- What the record and the message share. -/
structure MutationOperationFields where
  (operationID volumeID kind idempotencyKey errorMessage : String := "")
  (placementRevision allocationRevision writerFencingEpoch : Nat := 0)
  (affectedExtentIDs affectedPageNos completedPageNos retiredPhysicalChunkIDs : List Nat := [])
  retryPageWindows : List MutationPageWindowRecord := []
  (startedAtUnix lastUpdatedAtUnix : Int := 0)

/-- The retired replica targets are in no message. -/
structure MutationOperationRecord extends MutationOperationFields where
  state : String := ""
  retiredReplicaTargetsResolved : Bool := false
  retiredReplicaTargets : List MutationRetiredReplicaTarget := []

structure MutationOperationRecordMessage extends MutationOperationFields where
  state : Option MutationOperationState

def mutationOperationRecordToProto (record : MutationOperationRecord) :
    MutationOperationRecordMessage :=
  { record with state := mutationOperationStateToProto record.state }

def mutationOperationRecordFromProto (record : MutationOperationRecordMessage) :
    Except Err MutationOperationRecord := do
  let state ← mutationOperationStateFromProto record.state
  return { record with state }

/-! ## Allocation pages -/

/-- The message has narrower integers than the record. -/
structure PayloadEncryptionHeaderMessage extends PayloadEncryptionFields where
  headerVersion : Int
  shardID : Option Nat
  authTagBytes : Nat

-- the version and the tag length are words in a record and have 32 bits in a message
/-- The conversions to the narrower integers wrap around. -/
def payloadEncryptionHeaderToProto (header : PayloadEncryptionHeader) :
    PayloadEncryptionHeaderMessage :=
  { header with
    headerVersion := header.headerVersion.bmod (2 ^ 32)
    shardID := if header.shardIDPresent then some header.shardID else none
    authTagBytes := (header.authTagBytes % 2 ^ 32).toNat }

def payloadEncryptionHeaderFromProto (header : PayloadEncryptionHeaderMessage) :
    PayloadEncryptionHeader :=
  { header with
    shardID := header.shardID.getD 0
    shardIDPresent := header.shardID.isSome
    authTagBytes := header.authTagBytes }

/-- What the record and the message share. -/
structure AllocationExtentFields where
  (logicalChunkStart chunkCount physicalChunkStart generation : Nat)
  (backingRef checksum : String)

structure AllocationExtentRecord extends AllocationExtentFields where
  kind : String
  encryption : Option PayloadEncryptionHeader

structure AllocationExtentMessage extends AllocationExtentFields where
  kind : Option AllocationKind
  encryption : Option PayloadEncryptionHeaderMessage

structure AllocationPageFields where
  volumeID : String
  (pageNo pageBytes chunkSizeBytes revision : Nat)

structure AllocationPageRecord extends AllocationPageFields where
  extents : List AllocationExtentRecord

structure AllocationPageMessage extends AllocationPageFields where
  extents : List AllocationExtentMessage

def allocationExtentToProto (extent : AllocationExtentRecord) : AllocationExtentMessage :=
  { extent with
    kind := placementApplyKindToProto extent.kind
    encryption := extent.encryption.map payloadEncryptionHeaderToProto }

def allocationExtentFromProto (extent : AllocationExtentMessage) :
    Except Err AllocationExtentRecord := do
  let kind ← placementApplyKindFromProto extent.kind
  return { extent with kind, encryption := extent.encryption.map payloadEncryptionHeaderFromProto }

def allocationPagesToProto (pages : List AllocationPageRecord) : List AllocationPageMessage :=
  pages.map fun page => { page with extents := page.extents.map allocationExtentToProto }

def allocationPagesFromProto (pages : List AllocationPageMessage) :
    Except Err (List AllocationPageRecord) :=
  pages.mapM fun page => do
    return { page with extents := ← page.extents.mapM allocationExtentFromProto }

/-! ## Commit requests -/

/-- What the request and the messages share. -/
structure CommitWriteMetadataFields where
  (volumeID idempotencyKey mutationOperationID : String)
  (expectedEpoch expectedRevision committedRevision : Nat)
  (normalizeExtentMappings affectedExtentIDs affectedPageNos retiredPhysicalChunkIDs : List Nat)
  affectedPageChunkRanges : List AllocationPageChunkRangeRecord

/-- The request of a commit, in any of its modes. -/
structure CommitWriteMetadataRequest extends CommitWriteMetadataFields where
  (expectedIdempotencyState expectedMutationState : String)
  allocationPages : List AllocationPageRecord
  attachmentID : String := ""
  generation : Nat := 0
  allowMissingWriteIntent : Bool := false
  mutationOperation : MutationOperationRecord := {}

/-- The message of the page-scoped commit; that of the range-local commit has the same fields. -/
structure CommitWriteMetadataMessage extends CommitWriteMetadataFields where
  expectedIdempotencyState : Option IdempotencyResultState
  expectedMutationState : Option MutationOperationState
  allocationPages : List AllocationPageMessage

structure CommitAppendOnlyWriteStateAndQueueEffectsMessage extends
    CommitWriteMetadataMessage where
  attachmentID : String
  generation : Nat
  allowMissingWriteIntent : Bool
  mutationOperation : Option MutationOperationRecordMessage

/-- The message of a page-scoped or range-local commit. -/
def commitWriteMetadataRequestToProtoFields (req : CommitWriteMetadataRequest) :
    CommitWriteMetadataMessage :=
  { req with
    expectedIdempotencyState := idempotencyResultStateToProto req.expectedIdempotencyState
    expectedMutationState := mutationOperationStateToProto req.expectedMutationState
    allocationPages := allocationPagesToProto req.allocationPages }

def commitWriteMetadataRequestFromProtoFields (req : CommitWriteMetadataMessage) :
    Except Err CommitWriteMetadataRequest := do
  let expectedIdempotencyState ← idempotencyResultStateFromProto req.expectedIdempotencyState
  let expectedMutationState ← mutationOperationStateFromProto req.expectedMutationState
  let allocationPages ← allocationPagesFromProto req.allocationPages
  return { req with expectedIdempotencyState, expectedMutationState, allocationPages }

/-- The message of an append-only commit has the writer's context as well. -/
def commitAppendOnlyWriteStateAndQueueEffectsRequestToProto (req : CommitWriteMetadataRequest) :
    CommitAppendOnlyWriteStateAndQueueEffectsMessage :=
  { commitWriteMetadataRequestToProtoFields req with
    attachmentID := req.attachmentID
    generation := req.generation
    allowMissingWriteIntent := req.allowMissingWriteIntent
    mutationOperation := if req.mutationOperation.operationID ≠ "" then
        some (mutationOperationRecordToProto req.mutationOperation)
      else none }

def commitAppendOnlyWriteStateAndQueueEffectsRequestFromProto
    (req : CommitAppendOnlyWriteStateAndQueueEffectsMessage) :
    Except Err CommitWriteMetadataRequest := do
  let out ← commitWriteMetadataRequestFromProtoFields req.toCommitWriteMetadataMessage
  let mutationOperation ←
    req.mutationOperation.elim (return out.mutationOperation) mutationOperationRecordFromProto
  return { out with
    mutationOperation, attachmentID := req.attachmentID, generation := req.generation
    allowMissingWriteIntent := req.allowMissingWriteIntent }

/-! ## What the messages carry -/

/-- The message has room for the header, and a shard id only where one is present. -/
def PayloadEncryptionHeader.Carried (h : PayloadEncryptionHeader) : Prop :=
  -2 ^ 31 ≤ h.headerVersion ∧ h.headerVersion < 2 ^ 31 ∧ 0 ≤ h.authTagBytes ∧
    h.authTagBytes < 2 ^ 32 ∧ (h.shardIDPresent = false → h.shardID = 0)

/-- The extent comes back as it was. -/
def AllocationExtentRecord.Carried (e : AllocationExtentRecord) : Prop :=
  e.kind ∈ ["zero", "data", "shared"] ∧ ∀ h ∈ e.encryption, PayloadEncryptionHeader.Carried h

def PagesCarried (pages : List AllocationPageRecord) : Prop :=
  ∀ page ∈ pages, ∀ e ∈ page.extents, e.Carried

def operationStates : List String :=
  ["pending", "running", "committed", "failed", "rolled_back"]

def MutationOperationRecord.Carried (r : MutationOperationRecord) : Prop :=
  r.state ∈ operationStates ∧
    r.retiredReplicaTargetsResolved = false ∧ r.retiredReplicaTargets = []

def CommitWriteMetadataRequest.Carried (req : CommitWriteMetadataRequest) : Prop :=
  req.expectedIdempotencyState ∈ ["pending", "committed", "failed"] ∧
    req.expectedMutationState ∈ operationStates ∧
    PagesCarried req.allocationPages

theorem mutationOperation_roundTrip {r r' : MutationOperationRecord} :
    mutationOperationRecordFromProto (mutationOperationRecordToProto r) = .ok r' ↔
      r.state ∈ operationStates ∧
        r' = { r with retiredReplicaTargetsResolved := false, retiredReplicaTargets := [] } := by
  refine enum_bind_eq_ok.trans (and_congr_right fun _ => ?_)
  rw [pure_eq_ok, Except.ok.injEq]
  exact eq_comm

theorem mutationOperation_roundTrip_iff (r : MutationOperationRecord) :
    mutationOperationRecordFromProto (mutationOperationRecordToProto r) = .ok r ↔ r.Carried := by
  obtain ⟨fields, state, resolved, targets⟩ := r
  rw [mutationOperation_roundTrip]
  simp [MutationOperationRecord.Carried]

theorem header_roundTrip_iff (h : PayloadEncryptionHeader) :
    payloadEncryptionHeaderFromProto (payloadEncryptionHeaderToProto h) = h ↔
      PayloadEncryptionHeader.Carried h := by
  obtain ⟨fields, version, shard, present, tag⟩ := h
  have hversion : version.bmod (2 ^ 32) = version ↔ -2 ^ 31 ≤ version ∧ version < 2 ^ 31 := by
    rw [Int.bmod_def]
    split <;> omega
  have htag : ((tag % 2 ^ 32).toNat : Int) = tag ↔ 0 ≤ tag ∧ tag < 2 ^ 32 := by omega
  unfold payloadEncryptionHeaderFromProto payloadEncryptionHeaderToProto
    PayloadEncryptionHeader.Carried
  rw [PayloadEncryptionHeader.mk.injEq, hversion, htag]
  cases present with
  | false => simp only [Option.getD_none, Bool.false_eq_true, if_false]; tauto
  | true => simp [and_assoc]

theorem extent_roundTrip_iff (e : AllocationExtentRecord) :
    allocationExtentFromProto (allocationExtentToProto e) = .ok e ↔ e.Carried := by
  obtain ⟨fields, kind, encryption⟩ := e
  have hheader : (encryption.map payloadEncryptionHeaderToProto).map
        payloadEncryptionHeaderFromProto = encryption ↔
      ∀ h ∈ encryption, PayloadEncryptionHeader.Carried h := by
    cases encryption with
    | none => simp
    | some h => simp [header_roundTrip_iff]
  refine enum_bind_eq_ok.trans (and_congr_right fun _ => ?_)
  rw [pure_eq_ok, Except.ok.injEq, AllocationExtentRecord.mk.injEq, ← hheader]
  exact ⟨fun h => h.2.2, fun h => ⟨rfl, rfl, h⟩⟩

theorem pages_roundTrip_iff (pages : List AllocationPageRecord) :
    allocationPagesFromProto (allocationPagesToProto pages) = .ok pages ↔ PagesCarried pages := by
  unfold allocationPagesFromProto allocationPagesToProto PagesCarried
  rw [mapM_map_eq_ok_self]
  refine forall₂_congr fun page _ => ?_
  simp only [← extent_roundTrip_iff]
  rw [← mapM_map_eq_ok_self, bind_eq_ok]
  constructor
  · rintro ⟨extents, hextents, hpage⟩
    obtain rfl : extents = page.extents :=
      congrArg AllocationPageRecord.extents (Except.ok.inj hpage)
    exact hextents
  · exact fun hextents => ⟨page.extents, hextents, rfl⟩

/-- The request without what only the append-only commit reads. -/
def CommitWriteMetadataRequest.shared (req : CommitWriteMetadataRequest) :
    CommitWriteMetadataRequest :=
  { req with
    attachmentID := "", generation := 0, allowMissingWriteIntent := false, mutationOperation := {} }

theorem request_roundTrip {req req' : CommitWriteMetadataRequest} :
    commitWriteMetadataRequestFromProtoFields (commitWriteMetadataRequestToProtoFields req) =
        .ok req' ∧ req'.allocationPages = req.allocationPages ↔
      req.Carried ∧ req' = req.shared := by
  unfold commitWriteMetadataRequestFromProtoFields CommitWriteMetadataRequest.Carried
  rw [idempotencyResultStateFromProto, mutationOperationStateFromProto, ← pages_roundTrip_iff]
  dsimp only [commitWriteMetadataRequestToProtoFields, idempotencyResultStateToProto,
    mutationOperationStateToProto]
  rw [enum_bind_eq_ok, enum_bind_eq_ok, bind_eq_ok]
  constructor
  · rintro ⟨⟨hidem, hmut, pages, hpages, hreq⟩, hsame⟩
    cases hreq
    cases hsame
    exact ⟨⟨hidem, hmut, hpages⟩, rfl⟩
  · rintro ⟨⟨hidem, hmut, hpages⟩, rfl⟩
    exact ⟨⟨hidem, hmut, _, hpages, rfl⟩, rfl⟩

/-- When the request of an append-only commit comes back as it was. -/
theorem appendOnly_roundTrip_iff (req : CommitWriteMetadataRequest) :
    commitAppendOnlyWriteStateAndQueueEffectsRequestFromProto
        (commitAppendOnlyWriteStateAndQueueEffectsRequestToProto req) = .ok req ↔
      req.Carried ∧ if req.mutationOperation.operationID = "" then req.mutationOperation = {}
        else req.mutationOperation.Carried := by
  unfold commitAppendOnlyWriteStateAndQueueEffectsRequestFromProto
    commitAppendOnlyWriteStateAndQueueEffectsRequestToProto
  rw [bind_eq_ok]
  constructor
  · rintro ⟨out, hout, hreq⟩
    obtain ⟨operation, hop, hreq⟩ := bind_eq_ok.mp hreq
    have hpages : out.allocationPages = req.allocationPages :=
      congrArg (·.allocationPages) (Except.ok.inj hreq)
    have hsame : operation = req.mutationOperation :=
      congrArg (·.mutationOperation) (Except.ok.inj hreq)
    obtain ⟨hcarr, rfl⟩ := request_roundTrip.mp ⟨hout, hpages⟩
    refine ⟨hcarr, ?_⟩
    rw [hsame] at hop
    split
    · next hid =>
      rw [if_neg (not_not.mpr hid)] at hop
      exact (Except.ok.inj hop).symm
    · next hid =>
      rw [if_pos hid] at hop
      exact (mutationOperation_roundTrip_iff _).mp hop
  · rintro ⟨hcarr, hop⟩
    obtain ⟨hout, -⟩ := request_roundTrip.mpr ⟨hcarr, rfl⟩
    refine ⟨_, hout, bind_eq_ok.mpr ⟨req.mutationOperation, ?_, rfl⟩⟩
    split at hop
    · next hid =>
      rw [if_neg (not_not.mpr hid), hop]
      rfl
    · next hid =>
      rw [if_pos hid]
      exact (mutationOperation_roundTrip_iff _).mpr hop

section PutBack

variable {α κ : Type} [DecidableEq κ] (key : α → κ) (trip : α → Except Err α)

/-- The record under a key is read through the facade and put back: it makes the trip to a message
and back when the adapter reads it, and again when the service is given it. -/
def putBack (store : κ → Option α) (k : κ) : κ → Option α :=
  match store k with
  | none => store
  | some record =>
    match trip record >>= trip with
    | .error _ => store
    | .ok record => Function.update store (key record) (some record)

/-- Every store that holds the record under its key is as before. -/
def KeptByPutBack (a : α) : Prop :=
  ∀ store, store (key a) = some a → putBack key trip store (key a) = store

variable {key trip}

theorem keptByPutBack_iff {a : α} (htrip : ∀ b, trip a = .ok b → key b = key a ∧ trip b = .ok b) :
    KeptByPutBack key trip a ↔ ∀ b, trip a = .ok b → b = a := by
  unfold KeptByPutBack putBack
  constructor
  · intro h b hb
    obtain ⟨hkey, hagain⟩ := htrip b hb
    have hkept := congrFun (h (fun _ => some a) rfl) (key a)
    dsimp only at hkept
    rw [hb, ok_bind, hagain] at hkept
    dsimp only at hkept
    rw [hkey, Function.update_self] at hkept
    exact Option.some.inj hkept
  · intro h store hstore
    rw [hstore]
    dsimp only
    cases hb : trip a with
    | error err => rfl
    | ok b =>
      obtain rfl := h b hb
      rw [ok_bind, hb]
      dsimp only
      rw [← hstore, Function.update_eq_self]

end PutBack

/-- What comes back from the messages as it was, and what a record put back keeps. -/
theorem roundTrip_iff (s : VolumeState) (r : IdempotencyRecord) (op : MutationOperationRecord)
    (pages : List AllocationPageRecord) (req : CommitWriteMetadataRequest) :
    ((volumeStateFromProto (volumeStateToProto s) = s ↔
        s.topologyMode = "" ∧ s.redundancyBackend = "") ∧
      (KeptByPutBack (·.volumeID) (fun s => .ok (volumeStateFromProto (volumeStateToProto s))) s ↔
        s.topologyMode = "" ∧ s.redundancyBackend = "")) ∧
    ((idempotencyRecordFromProto (idempotencyRecordToProto r) = .ok r ↔
        r.resultState ∈ ["pending", "committed", "failed"]) ∧
      KeptByPutBack (fun r => (r.volumeID, r.idempotencyKey))
        (fun r => idempotencyRecordFromProto (idempotencyRecordToProto r)) r) ∧
    ((mutationOperationRecordFromProto (mutationOperationRecordToProto op) = .ok op ↔
        op.Carried) ∧
      (KeptByPutBack (fun r => (r.volumeID, r.operationID))
          (fun r => mutationOperationRecordFromProto (mutationOperationRecordToProto r)) op ↔
        (op.state ∈ operationStates → op.Carried))) ∧
    (allocationPagesFromProto (allocationPagesToProto pages) = .ok pages ↔ PagesCarried pages) ∧
      (commitWriteMetadataRequestFromProtoFields (commitWriteMetadataRequestToProtoFields req) =
          .ok req ↔ req.Carried ∧ req = req.shared) ∧
      (commitAppendOnlyWriteStateAndQueueEffectsRequestFromProto
          (commitAppendOnlyWriteStateAndQueueEffectsRequestToProto req) = .ok req ↔
        req.Carried ∧ if req.mutationOperation.operationID = "" then req.mutationOperation = {}
          else req.mutationOperation.Carried) := by
  have hvolume : ∀ s, volumeStateFromProto (volumeStateToProto s) = s ↔
      s.topologyMode = "" ∧ s.redundancyBackend = "" := by
    rintro ⟨message, topology, backend⟩
    simp [volumeStateFromProto, volumeStateToProto, eq_comm]
  refine ⟨⟨hvolume s, ?volume⟩, ⟨?trip, ?intent⟩, ⟨mutationOperation_roundTrip_iff op, ?operation⟩,
    pages_roundTrip_iff pages, ?fields, appendOnly_roundTrip_iff req⟩
  case volume =>
    rw [keptByPutBack_iff, ← hvolume s]
    · exact ⟨fun h => h _ rfl, fun h b hb => (Except.ok.inj hb).symm.trans h⟩
    · rintro b ⟨⟩
      exact ⟨rfl, rfl⟩
  case trip => rw [idempotencyRecord_roundTrip, and_iff_left rfl]
  case intent =>
    refine (keptByPutBack_iff fun b hb => ?_).mpr fun b hb => (idempotencyRecord_roundTrip.mp hb).2
    obtain ⟨-, rfl⟩ := idempotencyRecord_roundTrip.mp hb
    exact ⟨rfl, hb⟩
  case operation =>
    rw [keptByPutBack_iff, ← mutationOperation_roundTrip_iff]
    · constructor
      · intro h hstate
        have htrip := mutationOperation_roundTrip.mpr ⟨hstate, rfl⟩
        exact htrip.trans (congrArg Except.ok (h _ htrip))
      · intro h b hb
        exact Except.ok.inj (hb.symm.trans (h (mutationOperation_roundTrip.mp hb).1))
    · intro b hb
      obtain ⟨hstate, rfl⟩ := mutationOperation_roundTrip.mp hb
      exact ⟨rfl, (mutationOperation_roundTrip_iff _).mpr ⟨hstate, rfl, rfl⟩⟩
  case fields => rw [← request_roundTrip, and_iff_left rfl]

/-- A strict volume whose state is read and put back is no longer one. -/
theorem putBack_drops_topologyMode :
    let state : VolumeState := {
      volumeID := "vol-a", placementPolicyID := "", protectionPolicy := "", status := "healthy"
      epoch := 1, revision := 1, topologyMode := "strict" }
    (putBack (·.volumeID) (fun s => .ok (volumeStateFromProto (volumeStateToProto s)))
      (fun _ => some state) "vol-a" "vol-a").map (·.topologyMode) = some "" := by
  rfl

end Namrbd.WriteSession
