import Namrbd.Metadata.Types
import Namrbd.Gateway.VolumeRecords

/-!
# The gateway service on protected volumes

`Write`, `WriteClone`, `Zero` and `Discard` look the volume up, check the range and
hand the request to the data repository. Lookups go through a cache. The data
repository is any implementation of the interfaces that the service asks it for;
what an implementation does not offer is `none`.
-/

namespace Namrbd.Gateway

open Text (trimSpace)

inductive ServiceErr where
  | volumeNotFound
  | badAlignment
  | outOfRange
  | badDataLength
  | cloneIDRequired
  | notSupported
  | discardAlignment
  | protectedWrite (protectedState reasonCode sealedObjectID sealOperationID lifecycleState : String)
  | data
  deriving DecidableEq

structure VolumeProtectedState where
  state : String := ""
  reasonCode : String := ""
  sealedObjectID : String := ""
  sealOperationID : String := ""
  lifecycleState : String := ""
  deriving DecidableEq

structure ServiceVolume where
  blockSize : Nat
  sizeBytes : Nat
  protectedState : Option VolumeProtectedState := none
  deriving DecidableEq

def VolumeProtectedState.normalize (p : VolumeProtectedState) : VolumeProtectedState :=
  { state := trimSpace p.state
    reasonCode := trimSpace p.reasonCode
    sealedObjectID := trimSpace p.sealedObjectID
    sealOperationID := trimSpace p.sealOperationID
    lifecycleState := trimSpace p.lifecycleState }

def VolumeProtectedState.writeRejectionReason (p : VolumeProtectedState) : Option String :=
  let p := p.normalize
  if p.state ≠ "sealed" then none
  else some (if p.reasonCode = "" then "worm_sealed_read_only" else p.reasonCode)

def protectedWriteRejectionForVolume (volume : ServiceVolume) : Option ServiceErr := do
  let p ← volume.protectedState.map (·.normalize)
  let reasonCode ← p.writeRejectionReason
  return .protectedWrite p.state reasonCode p.sealedObjectID p.sealOperationID p.lifecycleState

/-- The end of the range is a 64-bit sum. -/
def validateRange (volume : ServiceVolume) (offsetBytes lengthBytes : Nat) : Except ServiceErr Unit :=
  let blockSize := orDefault defaultBlockSize volume.blockSize
  if lengthBytes = 0 then throw .badAlignment
  else if offsetBytes % blockSize ≠ 0 ∨ lengthBytes % blockSize ≠ 0 then throw .badAlignment
  else if volume.sizeBytes ≤ offsetBytes ∨
      volume.sizeBytes < (offsetBytes + lengthBytes) % 2 ^ 64 then throw .outOfRange
  else return ()

inductive DiscardPolicy where
  | trueReclaim
  | partialReject
  | zeroFallback
  deriving DecidableEq

abbrev DataOp (σ : Type) : Type := σ → Except ServiceErr Unit × σ

/-- The calls that reach the data of a volume. -/
structure DataBackend (σ : Type) where
  writeAt : (offsetBytes : Nat) → (data : List Byte) → DataOp σ
  writeCloneAt : Option (String → Nat → List Byte → DataOp σ) := none
  zeroAt : Option (Nat → Nat → DataOp σ) := none
  discardAt : Option (Nat → Nat → DataOp σ) := none
  discardPolicy : Option (Nat → Nat → DiscardPolicy) := none

/-- The volume as it is stored, the entry of the cache that is still valid, and the data. -/
structure VolumeService (σ : Type) where
  stored : Option ServiceVolume
  cached : Option ServiceVolume := none
  data : σ

/-- The calls of the volume service. -/
inductive ServiceCall where
  | write (offsetBytes lengthBytes : Nat) (data : List Byte)
  | writeClone (cloneID : String) (offsetBytes lengthBytes : Nat) (data : List Byte)
  | zero (offsetBytes lengthBytes : Nat)
  | discard (offsetBytes lengthBytes : Nat)
  deriving DecidableEq

def ServiceCall.lacksCloneID : ServiceCall → Bool
  | .writeClone cloneID _ _ _ => trimSpace cloneID = ""
  | _ => false

inductive ServiceEvent where
  | call (call : ServiceCall)
  | expire
  deriving DecidableEq

namespace VolumeService

variable {σ : Type} (backend : DataBackend σ) (s : VolumeService σ)

def volumeInfo : Option ServiceVolume := s.cached.or s.stored

/-- Zeros are written where the backend has no operation for them. -/
def zeroData (offsetBytes lengthBytes : Nat) : DataOp σ :=
  match backend.zeroAt with
  | some zeroAt => zeroAt offsetBytes lengthBytes
  | none => backend.writeAt offsetBytes (List.replicate lengthBytes 0)

/-- A call, behind the checks of the service. -/
def perform (volume : ServiceVolume) : ServiceCall → Except ServiceErr (DataOp σ)
  | .write offsetBytes lengthBytes data => do
    validateRange volume offsetBytes lengthBytes
    if data.length ≠ lengthBytes then throw .badDataLength
    match protectedWriteRejectionForVolume volume with
    | some rejection => throw rejection
    | none => return backend.writeAt offsetBytes data
  | .writeClone cloneID offsetBytes lengthBytes data => do
    validateRange volume offsetBytes lengthBytes
    if data.length ≠ lengthBytes then throw .badDataLength
    match backend.writeCloneAt with
    | none => throw .notSupported
    | some writeCloneAt => return writeCloneAt (trimSpace cloneID) offsetBytes data
  | .zero offsetBytes lengthBytes => do
    validateRange volume offsetBytes lengthBytes
    return zeroData backend offsetBytes lengthBytes
  | .discard offsetBytes lengthBytes => do
    validateRange volume offsetBytes lengthBytes
    match (backend.discardPolicy.map fun policy => policy offsetBytes lengthBytes).getD .zeroFallback,
        backend.discardAt with
    | .partialReject, _ => throw .discardAlignment
    | .trueReclaim, some discardAt => return discardAt offsetBytes lengthBytes
    | _, _ => return zeroData backend offsetBytes lengthBytes

/-- One call with its answer; a clone id is checked before the volume is looked up. -/
def serve (call : ServiceCall) : Except ServiceErr Unit × VolumeService σ :=
  if call.lacksCloneID then (throw .cloneIDRequired, s)
  else match s.volumeInfo with
    | none => (throw .volumeNotFound, s)
    | some volume =>
      match perform backend volume call with
      | .error err => (throw err, { s with cached := some volume })
      | .ok op =>
        let (answer, data) := op s.data
        (answer, { s with cached := some volume, data })

def step : ServiceEvent → Option (VolumeService σ)
  | .call call => some (serve backend s call).2
  | .expire => some { s with cached := none }

end VolumeService

end Namrbd.Gateway
