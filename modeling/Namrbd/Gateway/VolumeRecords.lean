import Namrbd.Lib.Process
import Namrbd.Lib.Table
import Namrbd.Lib.Text
import Mathlib.Algebra.Group.Nat.Defs
import Mathlib.Order.Nat

/-!
# The records of a volume in the gateway's metadata store

The gateways keep a volume in etcd as a spec, a status, an attachment generation, an
attachment, allocation pages and chunk garbage. Every operation reads these one after
the other and then makes one transaction. `attach` compares that there is no
attachment, `takeover` that there is one, `detach` that it is the one read; the other
writes compare nothing.
-/

namespace Namrbd.Gateway

open Text (trimSpace)

/-! ## Names -/

/-- The digits of a number, with zeros in front up to a width. -/
def zeroFilled (base width n : Nat) : List Char :=
  List.replicate (width - (Nat.toDigits base n).length) '0' ++ Nat.toDigits base n

variable (volumeID : Nat)

/-- Eight hexadecimal digits. -/
def canonicalVolumeID : String :=
  String.ofList (zeroFilled 16 8 (volumeID % 2 ^ 32))

def formatAttachmentID (generation : Nat) : String :=
  "att-" ++ canonicalVolumeID volumeID ++ "-" ++ String.ofList (zeroFilled 10 4 generation)

/-- The start of the keys of a volume's data. -/
def buildVolumePrefix (name : String) (volumeID : Nat) : String :=
  trimSpace name ++ "-" ++ canonicalVolumeID volumeID

/-! ## Records -/

inductive VolumeAccessMode where
  | exclusive
  | shared
  deriving DecidableEq

inductive VolumeLifecycleState where
  | available
  | inUse
  | disabled
  deriving DecidableEq

inductive GatewayConnectionState where
  | unknown
  | up
  | degraded
  | down
  | detached
  deriving DecidableEq

/-- The specification that a volume is created with. -/
structure VolumeSpec where
  name : String
  dataKeyPrefix : String
  sizeBytes : Nat
  blockSize : Nat
  chunkSizeBytes : Nat
  extentPageBytes : Nat
  accessMode : VolumeAccessMode
  state : VolumeLifecycleState
  deriving DecidableEq

/-- The zero record is the one without an attachment. -/
structure AttachmentRecord where
  generation : Nat := 0
  hostID : String := ""
  attachmentID : String := ""
  deviceID : Nat := 0
  ownerGatewayID : String := ""
  leaseID : String := ""
  attachedAtUnix : Int := 0
  deriving DecidableEq

/-- Who has a volume attached, and how its gateway is connected. -/
structure VolumeStatusRecord where
  inUse : Bool := false
  currentAttachmentID : String := ""
  currentHostID : String := ""
  currentGatewayID : String := ""
  gatewayConnectionState : GatewayConnectionState := .unknown
  attachmentGeneration : Nat := 0
  writerFencingEpoch : Nat := 0
  handoffRequired : Bool := false
  handoffStage : String := ""
  handoffReason : String := ""
  handoffTargetGatewaySet : List String := []
  deriving DecidableEq

def defaultBlockSize : Nat := 4096
def defaultAllocationChunkSize : Nat := 64 * 1024
def defaultAllocationPageSize : Nat := 4 * 1024 * 1024

def orDefault (default n : Nat) : Nat := if n = 0 then default else n

/-- Fills in the defaults that an older record lacks. -/
def normalizeVolumeSpec (spec : VolumeSpec) : VolumeSpec :=
  { spec with
    blockSize := orDefault defaultBlockSize spec.blockSize
    chunkSizeBytes := orDefault defaultAllocationChunkSize spec.chunkSizeBytes
    extentPageBytes := orDefault defaultAllocationPageSize spec.extentPageBytes
    name := if spec.name = "" then spec.dataKeyPrefix else spec.name }

/-! ## Requests -/

/-- The fields that an update sets. -/
structure VolumeUpdateRequest where
  name : Option String := none
  sizeBytes : Option Nat := none
  blockSize : Option Nat := none
  chunkSizeBytes : Option Nat := none
  extentPageBytes : Option Nat := none
  accessMode : Option VolumeAccessMode := none
  state : Option VolumeLifecycleState := none
  deriving DecidableEq

structure AttachRequest where
  hostID : String
  deviceID : Nat
  gatewayID : String
  deriving DecidableEq

structure DetachRequest where
  hostID : String
  attachmentID : String
  deriving DecidableEq

/-! ## Accesses -/

/-- The keys of one volume. `attached` records every attachment that was ever stored, the last
one first; no operation reads it. -/
structure VolumeRecords where
  spec : Option VolumeSpec := none
  status : Option VolumeStatusRecord := none
  generation : Option Nat := none
  attachment : Option AttachmentRecord := none
  pages : List (Nat × Nat) := []
  garbage : List Nat := []
  revision : Nat := 0
  otherNames : List String := []
  attached : List AttachmentRecord := []
  deriving DecidableEq

/-- One access of the store. -/
inductive VolumeAct where
  | readSpec
  | readStatus
  | readGeneration
  | readAttachment
  | listNames
  | listPages
  | listGarbage
  | putSpec (spec : VolumeSpec)
  | putStatus (status : VolumeStatusRecord)
  | putPage (pageNo expectedRevision : Nat)
  | putGarbage (chunkID : Nat)
  | attach (record : AttachmentRecord) (status : VolumeStatusRecord) (spec : VolumeSpec)
  | takeover (record : AttachmentRecord) (status : VolumeStatusRecord) (spec : VolumeSpec)
  | detach (current : AttachmentRecord) (generation : Nat) (status : VolumeStatusRecord)
      (spec : VolumeSpec)
  | clear (generation : Nat) (status : VolumeStatusRecord) (spec : VolumeSpec)
  | delete
  deriving DecidableEq

/-- What an access returns; a transaction that compares returns whether it was carried out. -/
def VolumeAct.Ans : VolumeAct → Type
  | .readSpec => Option VolumeSpec
  | .readStatus => Option VolumeStatusRecord
  | .readGeneration => Option Nat
  | .readAttachment => Option AttachmentRecord
  | .listNames => List String
  | .listPages => List (Nat × Nat)
  | .listGarbage => List Nat
  | .putSpec _ => Unit
  | .putStatus _ => Unit
  | .putPage _ _ => Bool
  | .putGarbage _ => Unit
  | .attach _ _ _ => Bool
  | .takeover _ _ _ => Bool
  | .detach _ _ _ _ => Bool
  | .clear _ _ _ => Unit
  | .delete => Unit

namespace VolumeRecords

/-- An attachment is written in one transaction with the status and the specification. -/
def withAttachment (m : VolumeRecords) (record : AttachmentRecord) (status : VolumeStatusRecord)
    (spec : VolumeSpec) : VolumeRecords :=
  { m with
    attachment := some record, status := some status, spec := some spec
    attached := record :: m.attached }

/-- The attachment is gone, and the generation is kept. -/
def withoutAttachment (m : VolumeRecords) (generation : Nat) (status : VolumeStatusRecord)
    (spec : VolumeSpec) : VolumeRecords :=
  { m with
    attachment := none, generation := some generation, status := some status, spec := some spec }

def deleted (m : VolumeRecords) : VolumeRecords :=
  { m with
    spec := none, status := none, generation := none, attachment := none
    pages := [], garbage := [] }

/-- A page that is not stored has revision 0. -/
def pageRevision (m : VolumeRecords) (pageNo : Nat) : Nat :=
  ((Table.get? Prod.fst pageNo m.pages).map Prod.snd).getD 0

/-- What an access answers, and the records after it. -/
def handle : (act : VolumeAct) → VolumeRecords → act.Ans × VolumeRecords
  | .readSpec, m => (m.spec, m)
  | .readStatus, m => (m.status, m)
  | .readGeneration, m => (m.generation, m)
  | .readAttachment, m => (m.attachment, m)
  | .listNames, m => (m.otherNames, m)
  | .listPages, m => (m.pages, m)
  | .listGarbage, m => (m.garbage, m)
  | .putSpec spec, m => ((), { m with spec := some spec })
  | .putStatus status, m => ((), { m with status := some status })
  | .putPage pageNo expectedRevision, m =>
    if m.pageRevision pageNo = expectedRevision then
      (true, { m with
        pages := Table.put Prod.fst (pageNo, m.revision + 1) m.pages
        revision := m.revision + 1 })
    else (false, m)
  | .putGarbage chunkID, m => ((), { m with garbage := chunkID :: m.garbage.erase chunkID })
  | .attach record status spec, m =>
    if m.attachment = none then (true, m.withAttachment record status spec) else (false, m)
  | .takeover record status spec, m =>
    if m.attachment = none then (false, m) else (true, m.withAttachment record status spec)
  | .detach current generation status spec, m =>
    if m.attachment = some current then (true, m.withoutAttachment generation status spec)
    else (false, m)
  | .clear generation status spec, m => ((), m.withoutAttachment generation status spec)
  | .delete, m => ((), m.deleted)

end VolumeRecords

/-! ## Operations -/

inductive MetadataErr where
  | volumeNotFound
  | volumeDisabled
  | hostIDRequired
  | attachConflict
  | detachConflict
  | volumeNameRequired
  | volumeNameConflict
  | volumeNotDetached
  | volumeHasObjects
  | volumeGeometryChange
  | metadataCASConflict
  | writerFenced
  deriving DecidableEq

/-- A call of the repository, access by access. -/
abbrev MetadataCall (α : Type) : Type := ExceptT MetadataErr (Process VolumeAct VolumeAct.Ans) α

def access (act : VolumeAct) : MetadataCall act.Ans := ExceptT.lift (Process.call act)

def getVolume : MetadataCall VolumeSpec := do
  match ← access .readSpec with
  | none => throw .volumeNotFound
  | some spec => return normalizeVolumeSpec spec

/-- The status of a volume that none is stored for is empty. -/
def getVolumeStatus : MetadataCall VolumeStatusRecord := do
  match ← access .readStatus with
  | none =>
    let _ ← getVolume
    return {}
  | some status => return status

/-- Generations start at 1. -/
def currentGeneration (stored : Option Nat) : Nat := orDefault 1 (stored.getD 1)

def getGeneration : MetadataCall Nat := do
  let stored ← access .readGeneration
  return currentGeneration stored

/-- Without an attachment the record has the generation only. -/
def getAttachment : MetadataCall AttachmentRecord := do
  let _ ← getVolume
  match ← access .readAttachment with
  | none =>
    let gen ← getGeneration
    return { generation := gen }
  | some record => return record

/-! ### Updates of the spec and the status -/

/-- The geometry of a volume may be named in an update but not changed. -/
def validateImmutableVolumeGeometry (current : VolumeSpec) (req : VolumeUpdateRequest) :
    Except MetadataErr Unit :=
  let current := normalizeVolumeSpec current
  if req.blockSize.any (fun n => orDefault defaultBlockSize n ≠ current.blockSize) ∨
      req.chunkSizeBytes.any
        (fun n => orDefault defaultAllocationChunkSize n ≠ current.chunkSizeBytes) ∨
      req.extentPageBytes.any
        (fun n => orDefault defaultAllocationPageSize n ≠ current.extentPageBytes) then
    throw .volumeGeometryChange
  else return ()

/-- A rename moves the data keys of the volume. -/
def VolumeSpec.renamed (name : String) (spec : VolumeSpec) : VolumeSpec :=
  { spec with
    name := trimSpace name
    dataKeyPrefix := buildVolumePrefix (trimSpace name) volumeID }

/-- The name is checked against the names of the other volumes. -/
def checkVolumeName (isAttached : Bool) : Option String → MetadataCall Unit
  | none => return ()
  | some name => do
    if trimSpace name = "" then throw .volumeNameRequired
    if isAttached then throw .volumeNotDetached
    let names : List String ← access .listNames
    if trimSpace name ∈ names then throw .volumeNameConflict

/-- The specification with what the request sets. -/
def VolumeUpdateRequest.applied (req : VolumeUpdateRequest) (spec : VolumeSpec) : VolumeSpec :=
  let spec := match req.name with
    | none => spec
    | some name => spec.renamed volumeID name
  normalizeVolumeSpec
    { spec with
      sizeBytes := req.sizeBytes.getD spec.sizeBytes
      accessMode := req.accessMode.getD spec.accessMode
      state := req.state.getD spec.state }

/-- The fields that may not be named while the volume is attached. -/
def VolumeUpdateRequest.needsDetached (req : VolumeUpdateRequest) : Bool :=
  req.sizeBytes.isSome || req.blockSize.isSome || req.chunkSizeBytes.isSome ||
    req.extentPageBytes.isSome || req.accessMode.isSome

/-- Reads the volume, checks the request and puts the specification, without a comparison. -/
def updateVolume (req : VolumeUpdateRequest) : MetadataCall Unit := do
  let spec ← getVolume
  let attachment ← getAttachment
  let isAttached := attachment.attachmentID ≠ ""
  ExceptT.mk (pure (validateImmutableVolumeGeometry spec req))
  checkVolumeName isAttached req.name
  if req.needsDetached ∧ isAttached then throw .volumeNotDetached
  access (.putSpec (req.applied volumeID spec))

/-- Reads the volume and puts it back with another state. -/
def setVolumeState (state : VolumeLifecycleState) : MetadataCall Unit := do
  let spec ← getVolume
  access (.putSpec { spec with state })

/-- The callers of `PutVolumeStatus` read the status, change it and put it back. -/
def putVolumeStatus (change : VolumeStatusRecord → VolumeStatusRecord) : MetadataCall Unit := do
  let status ← getVolumeStatus
  let _ ← getVolume
  access (.putStatus (change status))

/-! ### Attachments -/

/-- The status once the volume is attached. -/
def VolumeStatusRecord.attachedTo (status : VolumeStatusRecord) (req : AttachRequest)
    (record : AttachmentRecord) : VolumeStatusRecord :=
  { status with
    inUse := true
    currentAttachmentID := record.attachmentID
    currentHostID := req.hostID
    currentGatewayID := req.gatewayID
    gatewayConnectionState := .up
    attachmentGeneration := record.generation }

def VolumeStatusRecord.detachedAt (status : VolumeStatusRecord) (generation : Nat) :
    VolumeStatusRecord :=
  { status with
    gatewayConnectionState := .detached
    inUse := false
    currentAttachmentID := ""
    currentHostID := ""
    currentGatewayID := ""
    attachmentGeneration := generation }

/-- The attachment of a volume that has none. -/
def freshAttachment (req : AttachRequest) (now : Int) (gen : Nat) : AttachmentRecord :=
  { generation := gen
    hostID := req.hostID
    attachmentID := formatAttachmentID volumeID gen
    deviceID := req.deviceID
    ownerGatewayID := req.gatewayID
    attachedAtUnix := now }

/-- Another gateway takes over for the same host and device, under the next generation. -/
def AttachmentRecord.takenOver (req : AttachRequest) (now : Int) (existing : AttachmentRecord) :
    AttachmentRecord :=
  { existing with
    generation := existing.generation + 1
    attachmentID := formatAttachmentID volumeID (existing.generation + 1)
    ownerGatewayID := req.gatewayID
    leaseID := ""
    attachedAtUnix := now }

/-- Attaches the volume to a host, unless another one has it. -/
def attach (req : AttachRequest) (now : Int) : MetadataCall AttachmentRecord := do
  let _ ← getVolume
  let spec ← getVolume
  if spec.state = .disabled then throw .volumeDisabled
  let status ← getVolumeStatus
  let gen ← getGeneration
  let existing ← getAttachment
  if existing.attachmentID ≠ "" then
    if existing.hostID = req.hostID ∧ existing.deviceID = req.deviceID then
      if existing.ownerGatewayID = req.gatewayID ∨ req.gatewayID = "" ∨
          existing.ownerGatewayID = "" then
        return existing
      else
        let record := existing.takenOver volumeID req now
        let succeeded : Bool ← access
          (.takeover record (status.attachedTo req record) { spec with state := .inUse })
        if succeeded then return record else throw .attachConflict
    else throw .attachConflict
  else
    let record := freshAttachment volumeID req now gen
    let succeeded : Bool ← access
      (.attach record (status.attachedTo req record) { spec with state := .inUse })
    if succeeded then return record else throw .attachConflict

/-- The host gives the volume up. An attachment of another host or generation is left. -/
def detach (req : DetachRequest) : MetadataCall Unit := do
  let spec ← getVolume
  let current ← getAttachment
  if current.attachmentID = "" then return ()
  else if current.hostID ≠ req.hostID ∨ current.attachmentID ≠ req.attachmentID then
    throw .detachConflict
  else
    let next := current.generation + 1
    let status ← getVolumeStatus
    let succeeded : Bool ← access
      (.detach current next (status.detachedAt next) { spec with state := .available })
    if succeeded then return () else throw .detachConflict

/-- Takes the attachment away from whoever has it. -/
def unsafeClearAttachment : MetadataCall Unit := do
  let spec ← getVolume
  let current ← getAttachment
  let stored ← getGeneration
  let gen := if current.attachmentID ≠ "" then stored + 1 else stored
  let status ← getVolumeStatus
  access (.clear gen (status.detachedAt gen) { spec with state := .available })

/-- The attach of the gateway service: the writer-handoff fence is looked at first, and a gateway
that consumes the handoff acknowledges it in the status afterwards. What the fence admits and
what the acknowledgement makes of the status are functions of the status record alone. -/
def attachContext (req : AttachRequest) (now : Int)
    (allowedDuringHandoff : VolumeStatusRecord → Bool)
    (acknowledge : VolumeStatusRecord → VolumeStatusRecord) : MetadataCall Unit := do
  if req.hostID = "" then throw .hostIDRequired
  let volume ← getVolume
  if volume.state = .disabled then throw .volumeDisabled
  let status ← getVolumeStatus
  if status.handoffRequired && !allowedDuringHandoff status then throw .writerFenced
  let _ ← attach volumeID req now
  if status.handoffRequired then putVolumeStatus acknowledge else return ()

/-! ### Pages, garbage and deletion -/

/-- Writes a page if its revision is the expected one. -/
def putExtentPage (pageNo expectedRevision : Nat) : MetadataCall Unit := do
  let _ ← getVolume
  let succeeded : Bool ← access (.putPage pageNo expectedRevision)
  if succeeded then return () else throw .metadataCASConflict

def putChunkGarbage (chunkID : Nat) : MetadataCall Unit := do
  let _ ← getVolume
  access (.putGarbage chunkID)

/-- Deletes the records of a volume that is not attached and has neither pages nor garbage. -/
def deleteVolume : MetadataCall Unit := do
  let spec ← getVolume
  let attachment ← getAttachment
  if attachment.attachmentID ≠ "" then throw .volumeNotDetached
  if spec.state ≠ .available ∧ spec.state ≠ .disabled then throw .volumeNotDetached
  let _ ← getVolume
  let pages : List (Nat × Nat) ← access .listPages
  if pages ≠ [] then throw .volumeHasObjects
  let _ ← getVolume
  let garbage : List Nat ← access .listGarbage
  if garbage ≠ [] then throw .volumeHasObjects
  access .delete

/-! ## Calls -/

/-- The calls that change the records of a volume. -/
inductive VolumeCall where
  | updateVolume (req : VolumeUpdateRequest)
  | setVolumeState (state : VolumeLifecycleState)
  | putVolumeStatus (change : VolumeStatusRecord → VolumeStatusRecord)
  | attach (req : AttachRequest) (now : Int)
  | attachContext (req : AttachRequest) (now : Int)
      (allowedDuringHandoff : VolumeStatusRecord → Bool)
      (acknowledge : VolumeStatusRecord → VolumeStatusRecord)
  | detach (req : DetachRequest)
  | unsafeClearAttachment
  | putExtentPage (pageNo expectedRevision : Nat)
  | putChunkGarbage (chunkID : Nat)
  | deleteVolume

/-- The metadata accesses of a call. -/
def VolumeCall.run : VolumeCall → MetadataCall Unit
  | .updateVolume req => Gateway.updateVolume volumeID req
  | .setVolumeState state => Gateway.setVolumeState state
  | .putVolumeStatus change => Gateway.putVolumeStatus change
  | .attach req now => do let _ ← Gateway.attach volumeID req now
  | .attachContext req now allowed acknowledge =>
    Gateway.attachContext volumeID req now allowed acknowledge
  | .detach req => Gateway.detach req
  | .unsafeClearAttachment => Gateway.unsafeClearAttachment
  | .putExtentPage pageNo expectedRevision => Gateway.putExtentPage pageNo expectedRevision
  | .putChunkGarbage chunkID => Gateway.putChunkGarbage chunkID
  | .deleteVolume => Gateway.deleteVolume

end Namrbd.Gateway
