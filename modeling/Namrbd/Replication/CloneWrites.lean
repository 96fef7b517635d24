import Mathlib.Logic.Function.Basic
import Namrbd.Lib.Trace
import Namrbd.Replication.WriteService

/-!
# Writes to a clone

A write to a clone is planned from the pages of the clone, stores its payload
like a write to the volume, and commits by putting the pages it has prepared
into the clone's delta. It leaves no intent and no record of its key, and its
commit does not look at what the delta holds by then. `cloneCallStep` takes one
access of a write, so that the accesses of several writes can follow each other
in any order.
-/

namespace Namrbd

/-! ## One write -/

/-- Plans the write on the clone's pages. A clone write has no intent. -/
def beginCloneWrite (m : Repository) (cloneID : String) (req : WriteRequest) :
    Except Err (WriteExecution × Repository) := do
  let state ← m.getVolumeState
  if cloneID = "" then
    throw (.other "clone_id is required for clone write")
  let plan ← planCloneWrite m cloneID req.offsetBytes req.lengthBytes req.pageBytes
    req.chunkSizeBytes
  let (plan, m) ← prepareWritePlanAllocations m plan req
  return ({ newWriteExecution plan req state false with mutationOperation := none }, m)

/-- Stores the pages in the clone's delta. -/
def commitCloneDeltaMetadata (m : Repository) (exec : WriteExecution) (cloneID : String)
    (pages : List AllocationPageRecord) : Except Err Repository :=
  if exec.canCommitMetadata then m.putCloneDeltaAllocationPages cloneID pages
  else .error (.other "write execution is not ready for clone delta metadata commit")

def finishCloneWrite (m : Repository) (cloneID : String) (exec : WriteExecution)
    (req : WriteRequest) : Except Err Repository := do
  let alloc ← prepareAllocationCommit exec req
  commitCloneDeltaMetadata m exec cloneID alloc.pages

/-- A write to a clone from begin to end. -/
def writeClone (faults : StoreFaults) (c : Cluster) (cloneID : String) (req : WriteRequest) :
    Except Err WriteResponse × Cluster :=
  match beginCloneWrite c.repository cloneID req with
  | .error err => (.error err, c)
  | .ok (exec, m) =>
    match writePayload faults exec req c.stores with
    | (.error err, stores) => (.error err, { c with repository := m, stores })
    | (.ok exec, stores) =>
      match finishCloneWrite m cloneID exec req with
      | .error err => (.error err, { c with repository := m, stores })
      | .ok m =>
        (.ok { replay := false, committed := true, revision := 0 },
          { c with repository := m, stores })

/-- `ReadService.Read` of a clone. -/
def readClone (faults : StoreFaults) (c : Cluster) (cloneID : String) (req : ReadRequest) :
    Except Err (List Byte) := do
  let plan ← planCloneRead c.repository cloneID req.offsetBytes req.lengthBytes req.pageBytes
    req.chunkSizeBytes
  readExtents faults c req plan

/-! ## Writes taken apart -/

inductive CloneWritePhase where
  | idle
  | begun (exec : WriteExecution)
  | paid (exec : WriteExecution)
  | committed (exec : WriteExecution)
  | failed
  deriving DecidableEq

inductive CloneWriteAction where
  | begin
  | payload (faults : StoreFaults)
  | commit

def cloneCallStep (cloneID : String) (req : WriteRequest) (c : Cluster) :
    CloneWriteAction → CloneWritePhase → Option (Cluster × CloneWritePhase)
  | .begin, .idle =>
    match beginCloneWrite c.repository cloneID req with
    | .error _ => some (c, .failed)
    | .ok (exec, m) => some ({ c with repository := m }, .begun exec)
  | .payload faults, .begun exec =>
    match writePayload faults exec req c.stores with
    | (.error _, stores) => some ({ c with stores }, .failed)
    | (.ok exec, stores) => some ({ c with stores }, .paid exec)
  | .commit, .paid exec =>
    match finishCloneWrite c.repository cloneID exec req with
    | .error _ => some (c, .failed)
    | .ok m => some ({ c with repository := m }, .committed exec)
  | _, _ => none

/-- Any number of clone writes, each in its phase. -/
structure CloneCalls (ι : Type) where
  cluster : Cluster
  phase : ι → CloneWritePhase := fun _ => .idle

def CloneCalls.step {ι : Type} [DecidableEq ι] (cloneID : String) (req : ι → WriteRequest)
    (s : CloneCalls ι) (e : ι × CloneWriteAction) : Option (CloneCalls ι) :=
  (cloneCallStep cloneID (req e.1) s.cluster e.2 (s.phase e.1)).map fun next =>
    { cluster := next.1, phase := Function.update s.phase e.1 next.2 }

end Namrbd
