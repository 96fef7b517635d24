import Namrbd.Maintenance.Snapshots
import Namrbd.Lib.Trace

/-!
# The life of snapshots and clones

The calls that create and delete snapshots and clones and that copy a clone into a
volume of its own, side by side over one repository. Each repository access is one
transaction and one step, so another call can come in between two accesses. A creation
with an idempotency key that was used before answers with the record made then.
-/

namespace Namrbd

/-- The clone holds a reference to its snapshot: it is neither deleted nor materialized. -/
def CloneRecord.counted (clone : CloneRecord) : Prop :=
  clone.state ≠ .deleted ∧ clone.state ≠ .materialized

instance (clone : CloneRecord) : Decidable clone.counted :=
  inferInstanceAs (Decidable (_ ∧ _))

def CloneRecord.readable (clone : CloneRecord) : Prop :=
  clone.state = .available ∨ clone.state = .materializing

/-! ## Materializing a clone -/

inductive MaterializePhase where
  | idle
  | checked
  | copying
  | failing (message : String)
  | done
  | failed
  deriving DecidableEq

inductive MaterializeAction where
  | readClone
  | markMaterializing
  | markMaterialized
  /-- Mark the clone after a failure; `canceled` says whether the caller gave up. -/
  | markFailed (canceled : Bool)
  | fail (message : String)
  deriving DecidableEq

/-- The states in which a clone is not copied: it is copied already, or it is refused. -/
def materializeRefusal (cloneID : String) (record : CloneRecord) : Option String :=
  match record.state with
  | .deleted => some s!"clone \"{cloneID}\" is deleted"
  | .failed => some s!"clone \"{cloneID}\" is failed: {record.errorMessage}"
  | .materializing => some s!"clone \"{cloneID}\" is already materializing"
  | _ => none

/-- One metadata access of a materialization. -/
def materializeStep (cloneID targetVolumeID : String) (m : Repository) :
    MaterializeAction → MaterializePhase → Option (Repository × MaterializePhase)
  | .readClone, .idle =>
    match m.getCloneRecord cloneID with
    | .error _ => some (m, .failed)
    | .ok record =>
      match materializeRefusal cloneID record with
      | some _ => some (m, .failed)
      | none => some (m, if record.state = .materialized then .done else .checked)
  -- the volume specification is missing, or the target volume exists
  | .fail _, .checked => some (m, .failed)
  | .markMaterializing, .checked =>
    match m.markCloneState cloneID .materializing "" with
    | .error _ => some (m, .failed)
    | .ok m => some (m, .copying)
  | .fail message, .copying => some (m, .failing message)
  | .markMaterialized, .copying =>
    match m.markCloneMaterialized cloneID targetVolumeID with
    | .error err => some (m, .failing s!"mark clone materialized: {err.message}")
    | .ok m => some (m, .done)
  | .markFailed canceled, .failing message =>
    match m.markCloneState cloneID (if canceled then .available else .failed)
        (if canceled then "" else message) with
    | .error _ => some (m, .failed)
    | .ok m => some (m, .failed)
  | _, _ => none

/-! ## Deleting a snapshot -/

inductive DeleteSnapshotPhase where
  | idle
  | unreferenced
  | done
  | failed
  deriving DecidableEq

inductive DeleteSnapshotAction where
  | readSnapshot
  | markDeleted
  | fail
  deriving DecidableEq

/-- One metadata access of a snapshot's deletion. -/
def deleteSnapshotStep (snapshotID : String) (m : Repository) :
    DeleteSnapshotAction → DeleteSnapshotPhase → Option (Repository × DeleteSnapshotPhase)
  | .readSnapshot, .idle =>
    match m.getSnapshotRecord snapshotID with
    | .error _ => some (m, .failed)
    | .ok record =>
      if record.cloneReferenceCount > 0 then some (m, .failed)
      else if record.state ≠ .deleted then some (m, .unreferenced)
      else some (m, .done)
  | .markDeleted, .unreferenced =>
    match m.markSnapshotState snapshotID .deleted "" with
    | .error _ => some (m, .failed)
    | .ok m => some (m, .done)
  | .fail, .unreferenced => some (m, .failed)
  | _, _ => none

/-! ## Calls side by side -/

/-- The admin calls on snapshots and clones. -/
inductive AdminCall where
  | createSnapshot (idOf : Nat → String) (idempotencyKey : String) (phase : SnapshotPhase)
  | createClone (req : CreateCloneRequest) (idempotencyKey : String) (phase : ClonePhase)
  | materializeClone (cloneID targetVolumeID : String) (phase : MaterializePhase)
  | deleteClone (cloneID : String)
  | deleteSnapshot (snapshotID : String) (phase : DeleteSnapshotPhase)
  | returned

inductive AdminAction where
  | createSnapshot (action : SnapshotAction)
  | createClone (action : CloneAction)
  | materializeClone (action : MaterializeAction)
  | deleteClone
  | deleteSnapshot (action : DeleteSnapshotAction)

/-- The repository, its idempotency records and the calls under way. -/
structure Admin (ι : Type) where
  repository : Repository
  snapshotKeys : String → Option String := fun _ => none
  cloneKeys : String → String → Option String := fun _ _ => none
  calls : ι → AdminCall

namespace Admin

variable {ι : Type} [DecidableEq ι] (s : Admin ι)

def snapshotReplay (idempotencyKey : String) :
    SnapshotAction → SnapshotPhase → Option String
  | .createRecord, .planned _ _ _ =>
    if idempotencyKey = "" then none else s.snapshotKeys idempotencyKey
  | _, _ => none

def createSnapshotStep (i : ι) (idOf : Nat → String) (idempotencyKey : String)
    (action : SnapshotAction) (phase : SnapshotPhase) : Option (Admin ι) :=
  match s.snapshotReplay idempotencyKey action phase with
  | some snapshotID =>
    let phase := match s.repository.getSnapshotRecord snapshotID with
      | .error _ => .failed
      | .ok _ => .done
    some { s with
      calls := Function.update s.calls i (.createSnapshot idOf idempotencyKey phase) }
  | none =>
    match snapshotStep idOf s.repository action phase with
    | none => none
    | some (repository, phase) =>
      some { s with
        repository
        snapshotKeys := match phase with
          | .created snapshotID _ =>
            if idempotencyKey = "" then s.snapshotKeys
            else Function.update s.snapshotKeys idempotencyKey (some snapshotID)
          | _ => s.snapshotKeys
        calls := Function.update s.calls i (.createSnapshot idOf idempotencyKey phase) }

def cloneReplay (req : CreateCloneRequest) (idempotencyKey : String) :
    CloneAction → ClonePhase → Option String
  | .createRecord, .found =>
    if idempotencyKey = "" then none else s.cloneKeys req.sourceSnapshotID idempotencyKey
  | _, _ => none

def createCloneStep (i : ι) (req : CreateCloneRequest) (idempotencyKey : String)
    (action : CloneAction) (phase : ClonePhase) : Option (Admin ι) :=
  match s.cloneReplay req idempotencyKey action phase with
  | some cloneID =>
    let phase := match s.repository.getCloneRecord cloneID with
      | .error _ => .failed
      | .ok _ => .done
    some { s with calls := Function.update s.calls i (.createClone req idempotencyKey phase) }
  | none =>
    match cloneStep req s.repository action phase with
    | none => none
    | some (repository, phase) =>
      some { s with
        repository
        cloneKeys :=
          if phase = .done ∧ idempotencyKey ≠ "" then
            Function.update s.cloneKeys req.sourceSnapshotID
              (Function.update (s.cloneKeys req.sourceSnapshotID) idempotencyKey
                (some req.cloneID))
          else s.cloneKeys
        calls := Function.update s.calls i (.createClone req idempotencyKey phase) }

variable (event : ι × AdminAction)

/-- The next access of a call; none when the call is not at that access. -/
def step : Option (Admin ι) :=
  let i := event.1
  match event.2, s.calls i with
  | .createSnapshot action, .createSnapshot idOf idempotencyKey phase =>
    s.createSnapshotStep i idOf idempotencyKey action phase
  | .createClone action, .createClone req idempotencyKey phase =>
    s.createCloneStep i req idempotencyKey action phase
  | .materializeClone action, .materializeClone cloneID targetVolumeID phase =>
    (materializeStep cloneID targetVolumeID s.repository action phase).map
      fun (repository, phase) =>
        { s with
          repository
          calls := Function.update s.calls i (.materializeClone cloneID targetVolumeID phase) }
  | .deleteClone, .deleteClone cloneID =>
    match s.repository.deleteCloneRecord cloneID with
    | .error _ => some { s with calls := Function.update s.calls i .returned }
    | .ok repository => some { s with repository, calls := Function.update s.calls i .returned }
  | .deleteSnapshot action, .deleteSnapshot snapshotID phase =>
    (deleteSnapshotStep snapshotID s.repository action phase).map
      fun (repository, phase) =>
        { s with
          repository
          calls := Function.update s.calls i (.deleteSnapshot snapshotID phase) }
  | _, _ => none

def marksClone : Option String :=
  match event.2, s.calls event.1 with
  | .materializeClone .markMaterializing, .materializeClone cloneID _ _ => some cloneID
  | .materializeClone (.markFailed _), .materializeClone cloneID _ _ => some cloneID
  | _, _ => none

/-- A materialization marks a clone only while it still counts for its snapshot. -/
def MarksCountedClone : Prop :=
  ∀ cloneID ∈ s.marksClone event,
    ∀ clone ∈ Table.get? (·.cloneID) cloneID s.repository.clones, clone.counted

instance (s : Admin ι) (event : ι × AdminAction) : Decidable (s.MarksCountedClone event) :=
  inferInstanceAs (Decidable (∀ cloneID ∈ s.marksClone event,
    ∀ clone ∈ Table.get? (·.cloneID) cloneID s.repository.clones, clone.counted))

def deletesSnapshot : Option String :=
  match event.2, s.calls event.1 with
  | .deleteSnapshot .markDeleted, .deleteSnapshot snapshotID _ => some snapshotID
  | _, _ => none

/-- A snapshot is marked deleted only while no clone refers to it. -/
def DeletesUnreferenced : Prop :=
  ∀ snapshotID ∈ s.deletesSnapshot event,
    ∀ snapshot ∈ Table.get? (·.snapshotID) snapshotID s.repository.snapshots,
      snapshot.cloneReferenceCount = 0

instance (s : Admin ι) (event : ι × AdminAction) : Decidable (s.DeletesUnreferenced event) :=
  inferInstanceAs (Decidable (∀ snapshotID ∈ s.deletesSnapshot event,
    ∀ snapshot ∈ Table.get? (·.snapshotID) snapshotID s.repository.snapshots,
      snapshot.cloneReferenceCount = 0))

end Admin

end Namrbd
