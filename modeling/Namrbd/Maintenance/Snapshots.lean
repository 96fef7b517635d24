import Namrbd.Metadata.Repository

/-!
# Creating snapshots and clones

`CreateSnapshot` reads the volume, creates a record, lists the allocation pages
key by key, captures what it has read and marks the snapshot available; every
one of these is an access of its own. `CreateClone` looks the snapshot up and
creates the clone record in one transaction. `snapshotStep` and `cloneStep` take
one access, so that others can come in between.
-/

namespace Namrbd

/-! ## Snapshots -/

inductive SnapshotPhase where
  | idle
  | cut (volume : VolumeState)
  /-- The specification is read and some ids were taken already. -/
  | planned (volume : VolumeState) (spec : VolumeSpecRecord) (attempt : Nat)
  | created (snapshotID : String) (spec : VolumeSpecRecord)
  | listing (snapshotID : String) (pageNos : List Nat) (pages : List AllocationPageRecord)
  | unmapped (snapshotID : String) (spec : VolumeSpecRecord)
  | listed (snapshotID : String) (pages : List AllocationPageRecord)
  | captured (snapshotID : String)
  | done
  | failing (snapshotID : String) (message : String)
  | failed

inductive SnapshotAction where
  | readVolume
  | readSpec
  | createRecord
  | listPages
  | readPage
  | readMappings
  | capture
  | markAvailable
  | markFailed
  | fail (message : String)

def newSnapshotRecord (snapshotID : String) (volume : VolumeState) (spec : VolumeSpecRecord) :
    SnapshotRecord :=
  { snapshotID := snapshotID
    state := .creating
    cutVolumeRevision := volume.revision
    allocationChunkSizeBytes := spec.chunkSizeBytes
    allocationPageSizeBytes := spec.extentPageBytes
    sourceSizeBytes := spec.sizeBytes }

def snapshotAttempts : Nat := 4

/-- One access of the creation of a snapshot, whose `n`-th attempt uses the id `idOf n`. -/
def snapshotStep (idOf : Nat → String) (m : Repository) :
    SnapshotAction → SnapshotPhase → Option (Repository × SnapshotPhase)
  | .readVolume, .idle =>
    match m.getVolumeState with
    | .error _ => some (m, .failed)
    | .ok volume => some (m, .cut volume)
  | .readSpec, .cut volume =>
    match m.getVolumeSpec with
    | .error _ => some (m, .failed)
    | .ok spec => some (m, .planned volume spec 0)
  | .createRecord, .planned volume spec attempt =>
    match m.createSnapshotRecord (newSnapshotRecord (idOf attempt) volume spec) with
    | .ok m => some (m, .created (idOf attempt) spec)
    | .error .casConflict =>
      if attempt + 1 < snapshotAttempts then some (m, .planned volume spec (attempt + 1))
      else some (m, .failed)
    | .error _ => some (m, .failed)
  | .listPages, .created snapshotID spec =>
    if invalidGeometry spec.extentPageBytes spec.chunkSizeBytes then
      some (m, .failing snapshotID
        s!"invalid allocation geometry: page_bytes={spec.extentPageBytes} chunk_size_bytes={spec.chunkSizeBytes}")
    else if m.pages = [] then some (m, .unmapped snapshotID spec)
    else some (m, .listing snapshotID (m.pages.map (·.pageNo)) [])
  | .readPage, .listing snapshotID [] pages => some (m, .listed snapshotID pages)
  | .readPage, .listing snapshotID (pageNo :: pageNos) pages =>
    match Table.get? (·.pageNo) pageNo m.pages with
    | none => some (m, .failing snapshotID "not found")
    | some page => some (m, .listing snapshotID pageNos (pages ++ [page]))
  | .readMappings, .unmapped snapshotID spec =>
    some (m, .listed snapshotID
      ((Repository.mappedPageNos spec.extentPageBytes spec.chunkSizeBytes m.extents).map fun pageNo =>
        Repository.synthesizeAllocationPageFromMappings pageNo spec.extentPageBytes
          spec.chunkSizeBytes m.extents))
  | .capture, .listed snapshotID pages =>
    some (m.captureSnapshotAllocationPages snapshotID pages, .captured snapshotID)
  | .markAvailable, .captured snapshotID =>
    match m.markSnapshotState snapshotID .available "" with
    | .error _ => some (m, .failed)
    | .ok m => some (m, .done)
  | .markFailed, .failing snapshotID message =>
    match m.markSnapshotState snapshotID .failed message with
    | .error _ => some (m, .failed)
    | .ok m => some (m, .failed)
  | .fail _, .cut _ => some (m, .failed)
  | .fail _, .planned _ _ _ => some (m, .failed)
  | .fail message, .created snapshotID _ => some (m, .failing snapshotID message)
  | .fail message, .listing snapshotID _ _ => some (m, .failing snapshotID message)
  | .fail message, .unmapped snapshotID _ => some (m, .failing snapshotID message)
  | .fail message, .listed snapshotID _ => some (m, .failing snapshotID message)
  | .fail _, .captured _ => some (m, .failed)
  | .fail _, .failing _ _ => some (m, .failed)
  | _, _ => none

/-- One access on the metadata and the phase together. -/
def snapshotAccess (idOf : Nat → String) (s : Repository × SnapshotPhase) (a : SnapshotAction) :
    Option (Repository × SnapshotPhase) :=
  snapshotStep idOf s.1 a s.2

def SnapshotPhase.listed? : SnapshotPhase → Option String
  | .created snapshotID _ | .listing snapshotID _ _ => some snapshotID
  | .unmapped snapshotID _ | .listed snapshotID _ => some snapshotID
  | _ => none

/-- What an access can do: from one phase to the metadata and the phase after it. -/
inductive SnapshotMove (idOf : Nat → String) (m : Repository) :
    SnapshotPhase → Repository → SnapshotPhase → Prop where
  | stop {phase} (hphase : phase ≠ .done) : SnapshotMove idOf m phase m .failed
  | fail {phase snapshotID} (message) (hlisted : phase.listed? = some snapshotID) :
      SnapshotMove idOf m phase m (.failing snapshotID message)
  | readVolume (volume) : SnapshotMove idOf m .idle m (.cut volume)
  | readSpec {volume spec} (hspec : m.getVolumeSpec = .ok spec) :
      SnapshotMove idOf m (.cut volume) m (.planned volume spec 0)
  | createRecord {volume spec attempt m'}
      (hcreate : m.createSnapshotRecord (newSnapshotRecord (idOf attempt) volume spec) = .ok m') :
      SnapshotMove idOf m (.planned volume spec attempt) m' (.created (idOf attempt) spec)
  | retry {volume spec attempt} :
      SnapshotMove idOf m (.planned volume spec attempt) m (.planned volume spec (attempt + 1))
  | unmapped {snapshotID spec} (hnil : m.pages = [])
      (hvalid : ¬ invalidGeometry spec.extentPageBytes spec.chunkSizeBytes) :
      SnapshotMove idOf m (.created snapshotID spec) m (.unmapped snapshotID spec)
  | listPages {snapshotID spec} (hne : m.pages ≠ []) : SnapshotMove idOf m
      (.created snapshotID spec) m (.listing snapshotID (m.pages.map (·.pageNo)) [])
  | readPage {snapshotID pageNo pageNos pages page}
      (hget : Table.get? (·.pageNo) pageNo m.pages = some page) :
      SnapshotMove idOf m (.listing snapshotID (pageNo :: pageNos) pages) m
        (.listing snapshotID pageNos (pages ++ [page]))
  | listed {snapshotID pages} :
      SnapshotMove idOf m (.listing snapshotID [] pages) m (.listed snapshotID pages)
  | readMappings {snapshotID spec} : SnapshotMove idOf m (.unmapped snapshotID spec) m
      (.listed snapshotID
        ((Repository.mappedPageNos spec.extentPageBytes spec.chunkSizeBytes m.extents).map
          fun pageNo => Repository.synthesizeAllocationPageFromMappings pageNo spec.extentPageBytes
            spec.chunkSizeBytes m.extents))
  | capture {snapshotID pages} : SnapshotMove idOf m (.listed snapshotID pages)
      (m.captureSnapshotAllocationPages snapshotID pages) (.captured snapshotID)
  | markAvailable {snapshotID m'} (hmark : m.markSnapshotState snapshotID .available "" = .ok m') :
      SnapshotMove idOf m (.captured snapshotID) m' .done
  | markFailed {snapshotID message m'}
      (hmark : m.markSnapshotState snapshotID .failed message = .ok m') :
      SnapshotMove idOf m (.failing snapshotID message) m' .failed

/-- The accesses of a creation are the moves. -/
theorem snapshotMove_of_step {idOf : Nat → String} {m m' : Repository} {a : SnapshotAction}
    {phase phase' : SnapshotPhase} (h : snapshotStep idOf m a phase = some (m', phase')) :
    SnapshotMove idOf m phase m' phase' := by
  unfold snapshotStep at h
  split at h
  · split at h <;> cases h
    · exact .stop nofun
    · exact .readVolume _
  · split at h
    · cases h
      exact .stop nofun
    next hspec =>
    cases h
    exact .readSpec hspec
  · split at h
    · next hcreate =>
      cases h
      exact .createRecord hcreate
    · split at h <;> cases h
      · exact .retry
      · exact .stop nofun
    · cases h
      exact .stop nofun
  · split at h
    · cases h
      exact .fail _ rfl
    next hvalid =>
    split at h
    next hnil =>
      cases h
      exact .unmapped hnil hvalid
    next hne =>
      cases h
      exact .listPages hne
  · cases h
    exact .listed
  · split at h
    · cases h
      exact .fail _ rfl
    next hget =>
    cases h
    exact .readPage hget
  · cases h
    exact .readMappings
  · cases h
    exact .capture
  · split at h
    · cases h
      exact .stop nofun
    next hmark =>
    cases h
    exact .markAvailable hmark
  · split at h
    · cases h
      exact .stop nofun
    next hmark =>
    cases h
    exact .markFailed hmark
  -- an access that fails
  all_goals cases h
  all_goals first
    | exact .stop nofun
    | exact .fail _ rfl

/-! ## Clones -/

structure CreateCloneRequest where
  cloneID : String
  sourceSnapshotID : String
  sizeBytes : Nat := 0
  deriving DecidableEq

inductive ClonePhase where
  | idle
  | found
  | done
  | failed
  deriving DecidableEq

inductive CloneAction where
  | findSnapshot
  | createRecord
  | fail
  deriving DecidableEq

def cloneStep (req : CreateCloneRequest) (m : Repository) :
    CloneAction → ClonePhase → Option (Repository × ClonePhase)
  | .findSnapshot, .idle =>
    match m.getSnapshotRecord req.sourceSnapshotID with
    | .error _ => some (m, .failed)
    | .ok _ => some (m, .found)
  | .createRecord, .found =>
    match m.createCloneRecord
        { cloneID := req.cloneID
          sourceSnapshotID := req.sourceSnapshotID
          cloneBaseRootID := ""
          state := .available
          allocationChunkSizeBytes := 0
          allocationPageSizeBytes := 0
          sizeBytes := req.sizeBytes } with
    | .error _ => some (m, .failed)
    | .ok m => some (m, .done)
  | .fail, .found => some (m, .failed)
  | _, _ => none

@[inherit_doc snapshotAccess]
def cloneAccess (req : CreateCloneRequest) (s : Repository × ClonePhase) (a : CloneAction) :
    Option (Repository × ClonePhase) :=
  cloneStep req s.1 a s.2

end Namrbd
