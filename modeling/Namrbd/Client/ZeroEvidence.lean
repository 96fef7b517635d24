import Mathlib.Logic.Function.Basic
import Namrbd.Lib.Trace
import Namrbd.Replication.Allocation

/-!
# The zero evidence cache

A client that reads a range whose chunks are all zero in the allocation map answers
with zeros and does not ask the replicas. It remembers these pages for a while; a
write that has been committed forgets the pages it may have changed.

A read looks into the cache, resolves the pages and remembers them in three steps,
and other calls run in between. The model is of one volume and one clock.
-/

namespace Namrbd

/-- What of the client's configuration and of the volume's specification the cache depends on. -/
structure ClientConfig where
  allocationResolver : Bool := true
  zeroAllocationReadFastPath : Bool := true
  promoteZeroPayloadWrites : Bool := false
  preferPayloadOnlyWrites : Bool := false
  unsafeZeroNoopSkipIdempotency : Bool := false
  unsafeZeroReplayFastPath : Bool := false
  zeroEvidenceCacheTTL : Nat
  extentPageBytes : Nat
  chunkSizeBytes : Nat
  deriving DecidableEq

structure ZeroEvidenceCacheKey where
  pageNo : Nat
  pageBytes : Nat
  chunkSizeBytes : Nat
  deriving DecidableEq

/-- A page that was seen, and until when it is believed. -/
structure CachedZeroEvidencePage where
  page : AllocationPageRecord
  expiresAt : Nat
  deriving DecidableEq

abbrev ZeroEvidenceCache := ZeroEvidenceCacheKey → Option CachedZeroEvidencePage

/-! ## Pages that show zeros -/

/-- What the first extent of a page that covers a chunk says. -/
def AllocationPageRecord.zeroState (page : AllocationPageRecord) (chunk : Nat) : Bool × Bool :=
  match page.extents.find? fun extent => decide (extent.logicalChunkStart ≤ chunk ∧
      chunk < extent.logicalChunkStart + extent.chunkCount) with
  | none => (false, false)
  | some extent => (true, extent.kind == .zero)

/-- Whether the pages know the chunk, and whether it is zero. -/
def resolvedAllocationPagesChunkZeroState (pages : List ResolvedAllocationPage) (chunk : Nat) :
    Bool × Bool :=
  match pages.find? (·.containsChunk chunk) with
  | none => (false, false)
  | some page => page.page.zeroState chunk

/-- Every chunk of the range is known to be zero. -/
def resolvedAllocationPagesRangeIsZero (pages : List ResolvedAllocationPage)
    (offsetBytes lengthBytes chunkSizeBytes : Nat) : Bool :=
  if pages = [] ∨ lengthBytes = 0 ∨ chunkSizeBytes = 0 then false
  else (touchedChunks chunkSizeBytes offsetBytes lengthBytes).all fun chunk =>
    resolvedAllocationPagesChunkZeroState pages chunk == (true, true)

/-! ## The cache -/

def touchedPages (pageBytes offsetBytes lengthBytes : Nat) : List Nat :=
  let startPage := offsetBytes / pageBytes
  let endPage := (offsetBytes + lengthBytes - 1) / pageBytes
  List.range' startPage (endPage + 1 - startPage)

namespace ClientConfig

variable (cfg : ClientConfig)

def unsafeZeroReplayFastPathActive : Bool :=
  cfg.unsafeZeroReplayFastPath && cfg.zeroAllocationReadFastPath &&
    cfg.unsafeZeroNoopSkipIdempotency

def validSpec : Bool :=
  decide (cfg.extentPageBytes ≠ 0 ∧ cfg.chunkSizeBytes ≠ 0 ∧
    cfg.extentPageBytes % cfg.chunkSizeBytes = 0)

def evidenceKey (pageNo : Nat) : ZeroEvidenceCacheKey :=
  { pageNo, pageBytes := cfg.extentPageBytes, chunkSizeBytes := cfg.chunkSizeBytes }

/-- The cached pages of a list of page numbers. The first that is missing or has expired ends the
search; one that has expired is dropped. -/
def collectZeroEvidence (now : Nat) (cache : ZeroEvidenceCache) :
    List Nat → Option (List ResolvedAllocationPage) × ZeroEvidenceCache
  | [] => (some [], cache)
  | pageNo :: pageNos =>
    match cache (cfg.evidenceKey pageNo) with
    | none => (none, cache)
    | some cached =>
      if cached.expiresAt < now then
        (none, Function.update cache (cfg.evidenceKey pageNo) none)
      else
        let chunksPerPage := cfg.extentPageBytes / cfg.chunkSizeBytes
        let rest := collectZeroEvidence now cache pageNos
        (rest.1.map fun pages =>
          { page := cached.page
            rangeStartChunk := pageNo * chunksPerPage
            rangeEndChunk := pageNo * chunksPerPage + chunksPerPage } :: pages, rest.2)

/-- The cached pages of a range, if all of them are there and not expired. -/
def lookupZeroEvidencePages (now : Nat) (cache : ZeroEvidenceCache)
    (offsetBytes lengthBytes : Nat) : Option (List ResolvedAllocationPage) × ZeroEvidenceCache :=
  if cfg.zeroEvidenceCacheTTL = 0 ∨ lengthBytes = 0 ∨ ¬cfg.validSpec then (none, cache)
  else
    let found := cfg.collectZeroEvidence now cache
      (touchedPages cfg.extentPageBytes offsetBytes lengthBytes)
    (found.1.filter fun pages =>
      resolvedAllocationPagesRangeIsZero pages offsetBytes lengthBytes cfg.chunkSizeBytes, found.2)

/-- Keeps what was resolved, whatever has been written since. -/
def rememberZeroEvidencePages (now : Nat) (cache : ZeroEvidenceCache)
    (pages : List ResolvedAllocationPage) : ZeroEvidenceCache :=
  if cfg.zeroEvidenceCacheTTL = 0 then cache
  else
    pages.foldl (fun cache resolved =>
      let page := resolved.page
      if page.pageBytes = 0 ∨ page.chunkSizeBytes = 0 ∨ page.pageBytes % page.chunkSizeBytes ≠ 0 then
        cache
      else
        Function.update cache
          { pageNo := page.pageNo, pageBytes := page.pageBytes
            chunkSizeBytes := page.chunkSizeBytes }
          (some { page, expiresAt := now + cfg.zeroEvidenceCacheTTL })) cache

/-- Forgets the pages of a range. -/
def invalidateZeroEvidenceRange (cache : ZeroEvidenceCache) (offsetBytes lengthBytes : Nat) :
    ZeroEvidenceCache :=
  if cfg.zeroEvidenceCacheTTL = 0 ∨ lengthBytes = 0 ∨ cfg.extentPageBytes = 0 ∨
      cfg.chunkSizeBytes = 0 then cache
  else
    (touchedPages cfg.extentPageBytes offsetBytes lengthBytes).foldl (fun cache pageNo =>
      Function.update cache (cfg.evidenceKey pageNo) none) cache

end ClientConfig

/-! ## Calls -/

structure ClientReadRequest where
  snapshotID : String := ""
  cloneID : String := ""
  offsetBytes : Nat
  lengthBytes : Nat
  deriving DecidableEq

structure ClientWriteRequest where
  cloneID : String := ""
  offsetBytes : Nat
  lengthBytes : Nat
  data : List Byte
  zeroSemantic : Bool := false
  deriving DecidableEq

/-- A write comes with its data; a zero write may leave them out. -/
def ClientWriteRequest.valid (req : ClientWriteRequest) : Bool :=
  if req.zeroSemantic = false ∨ req.data ≠ [] then
    req.lengthBytes != 0 && req.data.length == req.lengthBytes
  else req.lengthBytes != 0

def isAllZeroPayload (data : List Byte) : Bool :=
  !data.isEmpty && data.all (· == 0)

/-- How far a read is, up to where it would ask the replicas. -/
inductive ReadPhase where
  | idle
  | missed
  | resolved (pages : List ResolvedAllocationPage)
  | cachedZeros
  /-- Answered with zeros that were resolved, or without evidence. -/
  | zeros
  | replicas
  | failed
  deriving DecidableEq

inductive ReadAction where
  | lookup
  | resolve
  | remember
  deriving DecidableEq

inductive WritePhase where
  | idle
  | missed
  | resolved (pages : List ResolvedAllocationPage)
  | serving
  | committed
  | returned
  | failed
  deriving DecidableEq

inductive WriteAction where
  | begin
  | resolve
  | remember
  | answer (ok : Bool)
  | invalidate
  deriving DecidableEq

namespace ClientConfig

variable (cfg : ClientConfig)

/-- A write of zeros is made a zero-semantic one. -/
def promotes (req : ClientWriteRequest) : Bool :=
  !req.zeroSemantic && req.cloneID == "" && cfg.promoteZeroPayloadWrites &&
    !cfg.preferPayloadOnlyWrites && isAllZeroPayload req.data

/-- Lookup, resolve and remember are steps of their own. -/
def readStep (m : Repository) (now : Nat) (cache : ZeroEvidenceCache) (req : ClientReadRequest) :
    ReadAction → ReadPhase → Option (ReadPhase × ZeroEvidenceCache)
  | .lookup, .idle =>
    if req.lengthBytes = 0 then some (.failed, cache)
    else if cfg.zeroAllocationReadFastPath = false ∨ req.snapshotID ≠ "" ∨ req.cloneID ≠ "" ∨
        ¬cfg.validSpec then some (.replicas, cache)
    else if cfg.unsafeZeroReplayFastPathActive then some (.zeros, cache)
    else
      let found := cfg.lookupZeroEvidencePages now cache req.offsetBytes req.lengthBytes
      some (if found.1.isSome then .cachedZeros else .missed, found.2)
  | .resolve, .missed =>
    if cfg.allocationResolver then
      match m.resolveAllocationPages req.offsetBytes req.lengthBytes cfg.extentPageBytes
          cfg.chunkSizeBytes with
      | .error _ => some (.failed, cache)
      | .ok pages =>
        some (if resolvedAllocationPagesRangeIsZero pages req.offsetBytes req.lengthBytes
          cfg.chunkSizeBytes then .resolved pages else .replicas, cache)
    else some (.replicas, cache)
  | .remember, .resolved pages =>
    some (.zeros, cfg.rememberZeroEvidencePages now cache pages)
  | _, _ => none

/-- One step of a write. A write of zeros may return on evidence alone. -/
def writeStep (m : Repository) (now : Nat) (cache : ZeroEvidenceCache) (req : ClientWriteRequest) :
    WriteAction → WritePhase → Option (WritePhase × ZeroEvidenceCache)
  | .begin, .idle =>
    if req.valid = false then some (.failed, cache)
    else if cfg.promotes req = false ∨ cfg.unsafeZeroNoopSkipIdempotency = false ∨
        ¬cfg.validSpec then some (.serving, cache)
    else if cfg.unsafeZeroReplayFastPathActive then some (.returned, cache)
    else
      let found := cfg.lookupZeroEvidencePages now cache req.offsetBytes req.lengthBytes
      some (if found.1.isSome then .returned else .missed, found.2)
  | .resolve, .missed =>
    if cfg.allocationResolver then
      match m.resolveAllocationPages req.offsetBytes req.lengthBytes cfg.extentPageBytes
          cfg.chunkSizeBytes with
      | .error _ => some (.failed, cache)
      | .ok pages =>
        some (if resolvedAllocationPagesRangeIsZero pages req.offsetBytes req.lengthBytes
          cfg.chunkSizeBytes then .resolved pages else .serving, cache)
    else some (.serving, cache)
  | .remember, .resolved pages =>
    some (.returned, cfg.rememberZeroEvidencePages now cache pages)
  | .answer false, .serving => some (.failed, cache)
  -- a payload-only write returns what the replicas have answered
  | .answer true, .serving =>
    some (if cfg.preferPayloadOnlyWrites ∧ req.cloneID = "" then .returned else .committed, cache)
  | .invalidate, .committed =>
    some (.returned, cfg.invalidateZeroEvidenceRange cache req.offsetBytes req.lengthBytes)
  | _, _ => none

end ClientConfig

structure ClientState (ι : Type) where
  repository : Repository
  now : Nat := 0
  cache : ZeroEvidenceCache := fun _ => none
  reads : ι → ReadPhase := fun _ => .idle
  writes : ι → WritePhase := fun _ => .idle

inductive ClientEvent (ι : Type) where
  | tick (elapsed : Nat)
  /-- The metadata change: a write service commits, or another client or maintenance does. -/
  | store (repository : Repository)
  | read (i : ι) (action : ReadAction)
  | write (i : ι) (action : WriteAction)

namespace ClientState

variable {ι : Type} [DecidableEq ι] (cfg : ClientConfig) (readRequest : ι → ClientReadRequest)
  (writeRequest : ι → ClientWriteRequest)

def step (s : ClientState ι) : ClientEvent ι → Option (ClientState ι)
  | .tick elapsed => some { s with now := s.now + elapsed }
  | .store repository => some { s with repository }
  | .read i action =>
    (cfg.readStep s.repository s.now s.cache (readRequest i) action (s.reads i)).map fun next =>
      { s with reads := Function.update s.reads i next.1, cache := next.2 }
  | .write i action =>
    (cfg.writeStep s.repository s.now s.cache (writeRequest i) action (s.writes i)).map fun next =>
      { s with writes := Function.update s.writes i next.1, cache := next.2 }

end ClientState

end Namrbd
