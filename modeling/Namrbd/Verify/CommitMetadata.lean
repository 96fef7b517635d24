import Namrbd.Verify.Reservation
import Namrbd.Verify.RunCommit

/-!
# Committing an execution

An execution that is `Committable` prepares a commit that the metadata can take:
the commit either shows the write or fails and changes nothing. A write whose
begin, payload and commit follow each other finds the metadata as it left it, and
its commit succeeds in every mode at the first attempt.
-/

namespace Namrbd

open List Result WriteExecution Bool

variable {exec : WriteExecution} {g : Geometry} {req : WriteRequest} {planned : Nat → ChunkEntry}

/-- The operation an execution sends along is its own, and running. -/
def WriteExecution.SendsOperation (exec : WriteExecution) : Prop :=
  ∃ op, exec.mutationOperation = some op ∧
    op.operationID = writeMutationOperationID exec.idempotencyKey ∧ op.state = .running

theorem extents_ne_nil_of_canCommitMetadata (h : exec.canCommitMetadata = true) :
    exec.extents ≠ [] := by
  intro hnil
  simp [canCommitMetadata, allExtentsQuorumReached, hnil] at h

section Effects

theorem touchedBy_touchedChunkList (hplans : ∀ p ∈ exec.plans, ChunkPlan g planned req p) :
    TouchedBy g req exec.plans (touchedChunkList g req exec) := by
  intro c
  simp only [touchedChunkList, mem_flatMap, plans, mem_map, exists_exists_and_eq_and]
  refine exists_congr fun status => and_congr_right fun hstat => ?_
  have hplan := hplans status.plan (mem_map_of_mem hstat)
  exact mem_extentChunks hplan.aligned hplan.length_pos hplan.overlaps

theorem touchedChunkList_ne_nil (hplans : ∀ p ∈ exec.plans, ChunkPlan g planned req p)
    (hne : exec.extents ≠ []) : touchedChunkList g req exec ≠ [] := by
  obtain ⟨status, hstat⟩ := exists_mem_of_ne_nil _ hne
  have hplan := hplans status.plan (mem_map_of_mem hstat)
  obtain ⟨c, hc⟩ := exists_touched hplan.aligned hplan.length_pos hplan.overlaps
  exact ne_nil_of_mem ((touchedBy_touchedChunkList hplans c).mpr
    ⟨status.plan, mem_map_of_mem hstat, hc⟩)

end Effects

section Commit

variable {size : Nat} {m : Repository} {stores : PayloadStores} {f : Nat → Byte}
  {live : Nat → ChunkEntry}

/-- The execution was begun at this state of the volume. -/
def WriteExecution.AtState (exec : WriteExecution) (state : VolumeState) : Prop :=
  exec.metadataEpoch = state.epoch ∧ exec.metadataRevision = state.revision

def commitRequestAt (state : VolumeState) (exec : WriteExecution) (alloc : AllocationCommit) :
    CommitWriteMetadataRequest :=
  { stateCommitRequest := {
      expectedEpoch := state.epoch
      expectedRevision := state.revision
      idempotencyKey := exec.idempotencyKey
      expectedIdempotencyState := .pending
      committedRevision := state.revision + 1
      attachmentID := exec.attachmentID
      generation := exec.generation
      allowMissingWriteIntent := exec.allowMissingWriteIntent }
    effectsApplyRequest := effectsRequest exec alloc (state.revision + 1) exec.mutationOperation }

variable {base : Nat → ChunkEntry}

theorem commitRequest_ok {state : VolumeState} (hvol : m.volume = some state)
    (hat : exec.AtState state) (alloc : AllocationCommit) :
    commitRequest m exec alloc = .ok (commitRequestAt state exec alloc) := by
  have hexpect : commitExpectation m exec = .ok (state.epoch, state.revision) := by
    unfold commitExpectation
    rw [Repository.getVolumeState, hvol, hat.1, hat.2]
    split
    · simp only [orNotFound, ok_bind, pure_eq_ok, ite_self]
    · rfl
  unfold commitRequest
  rw [hexpect]
  rfl

/-- What a commit sees of its plans: the pages of a plan show the planned entries of the chunks
it touches, and `base` where no plan touches a chunk. -/
structure CommitView (g : Geometry) (rev : Nat → Nat) (req : WriteRequest)
    (planned base : Nat → ChunkEntry) (shown : ExtentWritePlan → Nat → ChunkEntry)
    (plans : List ExtentWritePlan) : Prop where
  shows : ∀ p ∈ plans, PlanShows g rev (shown p) req.offsetBytes req.lengthBytes p
  written : ∀ p ∈ plans, ∀ c,
    p.extent.Touched g.chunkSizeBytes req.offsetBytes req.lengthBytes c →
      writeEntry g req (shown p) c = writeEntry g req planned c
  kept : ∀ p ∈ plans, ∀ c, (∀ q ∈ plans,
    ¬q.extent.Touched g.chunkSizeBytes req.offsetBytes req.lengthBytes c) → shown p c = base c
  normal : ∀ c, (base c).Normal

/-- The map a commit puts its touched chunks into. -/
def commitEntry (planned base : Nat → ChunkEntry) (touched : List Nat) (c : Nat) : ChunkEntry :=
  if c ∈ touched then planned c else base c

theorem writeEntry_commitEntry {touched : List Nat} {c : Nat} (hc : c ∈ touched) :
    writeEntry g req (commitEntry planned base touched) c = writeEntry g req planned c := by
  rw [writeEntry, writeEntry, commitEntry, if_pos hc]

/-- A plan that shows the view can be prepared for it. -/
theorem CommitView.prepareAllocationCommit_ok {rev : Nat → Nat}
    {shown : ExtentWritePlan → Nat → ChunkEntry} (hgeom : req.HasGeometry g)
    (hplans : ∀ p ∈ exec.plans, ChunkPlan g planned req p) (hne : exec.extents ≠ [])
    (hview : CommitView g rev req planned base shown exec.plans) :
    ∃ alloc, prepareAllocationCommit exec req = .ok alloc ∧
      IsAllocationCommit g rev req (commitEntry planned base (touchedChunkList g req exec))
        (touchedChunkList g req exec) alloc ∧
      ((∀ p ∈ exec.plans, shown p = planned) →
        RetiresCovered g req planned (touchedChunkList g req exec) alloc) := by
  obtain ⟨status, hstat⟩ := exists_mem_of_ne_nil _ hne
  have hlen := (hplans status.plan (mem_map_of_mem hstat)).length_pos
  have htouch := touchedBy_touchedChunkList hplans
  have huntouched : ∀ c, c ∉ touchedChunkList g req exec → ∀ q ∈ exec.plans,
      ¬q.extent.Touched g.chunkSizeBytes req.offsetBytes req.lengthBytes c :=
    fun c hc q hq ht => hc ((htouch c).mpr ⟨q, hq, ht⟩)
  obtain ⟨alloc, hprep, halloc, hretires⟩ :=
    Namrbd.prepareAllocationCommit_ok rev
      (commitEntry planned base (touchedChunkList g req exec)) hgeom.pageBytes_eq
      hgeom.chunkSizeBytes_eq hlen (fun c hc => by
        rw [commitEntry, if_neg hc]
        exact hview.normal c) shown (by
        intro status hstat
        have hmem : status.plan ∈ exec.plans := mem_map_of_mem hstat
        have hplan := hplans _ hmem
        have hin : ∀ c ∈ extentChunks g status.plan.extent req.offsetBytes req.lengthBytes,
            c ∈ touchedChunkList g req exec :=
          fun c hc => mem_flatMap.mpr ⟨status, hstat, hc⟩
        have hmem_iff : ∀ {c}, c ∈ extentChunks g status.plan.extent req.offsetBytes
            req.lengthBytes ↔ _ := mem_extentChunks hplan.aligned hplan.length_pos hplan.overlaps
        refine ⟨hplan.aligned, hplan.overlaps, hview.shows _ hmem, ?_, hin, ?_, ?_⟩
        · intro c hc hskip
          have heq := hview.written _ hmem c hc
          rw [writeEntry, writeEntry, if_neg (by rw [hskip]; exact false_ne_true),
            if_neg (by rw [hskip]; exact false_ne_true)] at heq
          rw [(ChunkEntry.mk.inj heq).1]
          exact hplan.mapped c hc hskip
        · intro c hc
          exact (hview.written _ hmem c (hmem_iff.mp hc)).trans
            (writeEntry_commitEntry (hin c hc)).symm
        · intro r _ c _ hc
          rw [commitEntry, if_neg hc]
          exact hview.kept _ hmem c (huntouched c hc))
  refine ⟨alloc, hprep, halloc, fun hshown => ?_⟩
  have heq : commitEntry planned base (touchedChunkList g req exec) = planned := by
    funext c
    unfold commitEntry
    split
    · rfl
    · next hc =>
      have hmem : status.plan ∈ exec.plans := mem_map_of_mem hstat
      rw [← hview.kept _ hmem c (huntouched c hc), hshown _ hmem]
  have hretires := hretires fun status hstat =>
    (hshown _ (mem_map_of_mem hstat)).trans heq.symm
  rw [heq] at hretires
  exact hretires

/-- An execution that can be committed in the metadata `m`. Where the commit merges pages, it
has to retire the chunks that a zero-semantic write covers; where it replaces them, pages that
have not moved have to be the live ones. -/
structure Committable (g : Geometry) (cfg : ExecutorConfig) (m : Repository) (req : WriteRequest)
    (live planned : Nat → ChunkEntry) (exec : WriteExecution) (alloc : AllocationCommit) :
    Prop where
  reserved : Reserved g m req live planned exec.plans
  operation : exec.SendsOperation
  ne_nil : exec.extents ≠ []
  prepared : ∃ rev base, IsAllocationCommit g rev req
      (commitEntry planned base (touchedChunkList g req exec)) (touchedChunkList g req exec)
      alloc ∧
    (cfg.ReplacesPages alloc.pages → ∀ c, c ∉ touchedChunkList g req exec →
      rev (g.pageOf c) = m.pageRevision (g.pageOf c) → base c = m.liveEntry g c)
  retires : ¬cfg.ReplacesPages alloc.pages → ∀ c ∈ touchedChunkList g req exec,
    req.skips g c = true → (live c).physicalChunkID ≠ 0 →
      (live c).physicalChunkID ∈ alloc.retiredPhysicalChunkIDs

section Committable

variable {cfg : ExecutorConfig} {alloc : AllocationCommit} {creq : CommitWriteMetadataRequest}

theorem Committable.isEffects (h : Committable g cfg m req live planned exec alloc)
    (hrequest : commitRequest m exec alloc = .ok creq) :
    IsEffects m alloc creq.effectsApplyRequest := by
  obtain ⟨-, -, revision, heff⟩ := commitRequest_eq_ok hrequest
  rw [heff]
  refine ⟨rfl, rfl, rfl, fun extentID hid => ?_, ?_⟩
  · rcases Table.mem_putAll_id.mp hid with hid | hid
    · obtain ⟨status, hstat, rfl⟩ := mem_map.mp hid
      obtain ⟨e, he, hsame⟩ := h.reserved.exists_extent (mem_map_of_mem (mem_of_mem_filter hstat))
      exact ⟨e, he, hsame.extentID_eq⟩
    · cases hid
  · obtain ⟨op, hmut, hid, hstate⟩ := h.operation
    refine ⟨fun h => ?_, op, hmut, hid, hstate, rfl⟩
    have hlen := congrArg String.length h
    simp [effectsRequest, writeMutationOperationID] at hlen

/-- A commit that is admitted succeeds and makes the planned map the live one. -/
theorem commitMetadata_of_admits (hasync : cfg.asyncWriteEffects = false) (now : Nat)
    (hrep : Represents g size m stores f) (h : Committable g cfg m req live planned exec alloc)
    (hready : exec.canCommitMetadata = true) (hrequest : commitRequest m exec alloc = .ok creq)
    (hadm : Admits cfg m creq) :
    ∃ revision m', commitMetadata cfg now m exec alloc =
        (.ok revision, { repository := m' }) ∧
      IsRunCommitted g cfg m creq (touchedChunkList g req exec) (writeEntry g req planned)
        m' := by
  have heff := h.isEffects hrequest
  have htouch := touchedBy_touchedChunkList h.reserved.each
  obtain ⟨rev, base, halloc, hunmoved⟩ := h.prepared
  obtain ⟨record, m', hrun, hcomm⟩ := runCommit_of_admits hasync now hrep.pagesWF
    hrep.layout.sorted halloc (touchedChunkList_ne_nil h.reserved.each h.ne_nil) heff hadm
    (fun hreplaces hrev page hpage c hc hmem => by
      rw [heff.pages_eq] at hreplaces
      rw [commitEntry, if_neg hmem]
      refine hunmoved hreplaces c hmem ?_
      rw [hc, ← halloc.revision_eq page hpage]
      exact hrev page hpage)
    (fun c hc => (writeEntry_commitEntry hc).symm)
    (fun hmerges c hc => by
      rw [heff.pages_eq] at hmerges
      obtain ⟨p, hp, ht⟩ := (htouch c).mp hc
      unfold mergedEntry
      rw [writeEntry_commitEntry hc, writeEntry]
      by_cases hskip : req.skips g c = true
      · -- the live chunk is zero, or retired by this write
        rw [if_pos hskip, mergeEntry, if_neg (by simp [ChunkEntry.zero])]
        split
        · rfl
        next hid =>
        rcases native_eq_live_or_zero (m := m) (g := g) c with hnat | ⟨-, hnat⟩
        · rw [hnat, h.reserved.same p hp c ht] at hid ⊢
          exact (if_pos (h.retires hmerges c hc hskip hid)).symm
        · exact (hid (by rw [hnat]; rfl)).elim
      · have hid := (h.reserved.each p hp).mapped c ht (by simpa using hskip)
        rw [if_neg hskip, mergeEntry, if_pos hid])
  refine ⟨record.revision, m', ?_, hcomm⟩
  unfold commitMetadata
  rw [hready, if_neg true_eq_false.mp, hrequest]
  dsimp only
  rw [hrun]

/-- No commit under this key is recorded. -/
def Uncommitted (m : Repository) (key : String) : Prop :=
  ∀ record, Table.get? (·.idempotencyKey) key m.idempotency = some record →
    record.resultState ≠ .committed

section

variable (hasync : cfg.asyncWriteEffects = false) (now : Nat) (hrep : Represents g size m stores f)
  (h : Committable g cfg m req live planned exec alloc)

include hasync now hrep h

/-- A commit fails and changes nothing, or is the transaction of its mode. -/
theorem commitMetadata_cases (hkey : Uncommitted m exec.idempotencyKey) :
    (∃ err, commitMetadata cfg now m exec alloc = (.error err, { repository := m })) ∨
      ∃ revision m' creq, commitRequest m exec alloc = .ok creq ∧ Admits cfg m creq ∧
        commitMetadata cfg now m exec alloc = (.ok revision, { repository := m' }) ∧
        IsRunCommitted g cfg m creq (touchedChunkList g req exec) (writeEntry g req planned)
          m' := by
  by_cases hready : exec.canCommitMetadata = true
  · cases hrequest : commitRequest m exec alloc with
    | error err =>
      refine .inl ⟨err, ?_⟩
      unfold commitMetadata
      rw [hready, if_neg true_eq_false.mp, hrequest]
    | ok creq =>
      by_cases hadm : Admits cfg m creq
      · obtain ⟨revision, m', hcommit, hcomm⟩ :=
          commitMetadata_of_admits hasync now hrep h hready hrequest hadm
        exact .inr ⟨revision, m', creq, rfl, hadm, hcommit, hcomm⟩
      obtain ⟨rev, base, halloc, -⟩ := h.prepared
      obtain ⟨err, hrun⟩ := runCommit_of_not_admits now hrep.pagesWF halloc
        (touchedChunkList_ne_nil h.reserved.each h.ne_nil) (h.isEffects hrequest) hadm
      -- the record is not committed, so there is nothing to recover
      have hrecover : recoverCommittedWriteAfterCAS cfg m exec alloc = (.ok none, m) := by
        unfold recoverCommittedWriteAfterCAS
        split
        · rfl
        next record hget =>
        split
        · rfl
        · exact if_pos (hkey record hget)
      left
      unfold commitMetadata
      rw [hready, if_neg true_eq_false.mp, hrequest]
      dsimp only
      rw [hrun]
      cases err with
      | casConflict =>
        dsimp only
        rw [hrecover]
        exact ⟨_, rfl⟩
      | _ => exact ⟨_, rfl⟩
  · left
    unfold commitMetadata
    rw [if_pos (by simpa using hready)]
    exact ⟨_, rfl⟩

end

end Committable

end Commit

end Namrbd
