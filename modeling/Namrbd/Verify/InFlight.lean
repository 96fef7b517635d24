import Namrbd.Verify.Rebase
import Namrbd.Verify.Sequential
import Namrbd.Replication.Calls

/-!
# Writes in flight together

A write in flight keeps its reservation, and can still be committed, while other
writes begin, store their payload and commit, as long as it stays apart from them:
a chunk that it remaps is touched by none of them, and its ids are its own. A chunk
that two writes both overwrite in place keeps its entry under either.
-/

namespace Namrbd

open List Repository Result Window

variable {req req' : WriteRequest} {cfg : ExecutorConfig} {f : Nat → Byte}
  {plans plans' : List ExtentWritePlan} {planned live : Nat → ChunkEntry} {g : Geometry}
  {m : Repository} {size : Nat} {stores : PayloadStores}

/-- The executor commits whole pages. -/
def ExecutorConfig.replacesPages (cfg : ExecutorConfig) : Bool :=
  !cfg.appendOnly && !(cfg.rangeLocal && cfg.effectsApplier) && cfg.pageScoped

theorem ExecutorConfig.replacesPages_iff {pages : List AllocationPageRecord} (h : pages ≠ []) :
    cfg.ReplacesPages pages ↔ cfg.replacesPages = true := by
  have hne : pages.isEmpty = false := by simpa using h
  unfold ReplacesPages replacesPages useAppendOnlyServiceWriteEffects useRangeLocalWriteState
    usePageScopedWriteMetadata
  rw [hne]
  simp only [Bool.not_false, Bool.and_true, Bool.and_eq_true, Bool.not_eq_true', and_assoc]

variable {i : Nat}

theorem patch_eq_self_congr {f' : Nat → Byte} (heq : req.Writes i → f' i = f i)
    (h : patch f req.offsetBytes req.bytes i = f i) :
    patch f' req.offsetBytes req.bytes i = f' i := by
  by_cases hi : req.Writes i
  · rw [patch_congr_writes hi f f', h, heq hi]
  · exact patch_of_not_writes hi f'

/-! ## One write -/

/-- A write in flight whose plans can be committed. Where commits replace pages, a page that
has kept its revision has kept its chunks; where they merge, the chunks that a zero-semantic
write covers are retired, or there is nothing to retire. -/
structure InFlight (g : Geometry) (cfg : ExecutorConfig) (m : Repository) (req : WriteRequest)
    (live planned : Nat → ChunkEntry) (plans : List ExtentWritePlan) : Prop where
  geometry : req.HasGeometry g
  reserved : Reserved g m req live planned plans
  copyOnWrite : ∀ p ∈ plans, p.copyOnWrite = sourceWriteRequiresCopyOnWrite m
  ne_nil : plans ≠ []
  uncommitted : Uncommitted m req.idempotencyKey
  skipped : ∀ c, req.skips g c = true → planned c = live c
  view : ∃ rev base shown, CommitView g rev req planned base shown plans ∧
    (cfg.replacesPages = true → ∀ n, rev n ≤ m.pageRevision n ∧
      (rev n = m.pageRevision n → ∀ c, g.pageOf c = n → base c = m.liveEntry g c)) ∧
    ((∀ p ∈ plans, shown p = planned) ∨ cfg.replacesPages = true ∨
      ∀ p ∈ plans, ∀ c, p.extent.Touched g.chunkSizeBytes req.offsetBytes req.lengthBytes c →
        req.skips g c = true → (live c).physicalChunkID = 0)

structure ExecutionOf (req : WriteRequest) (exec : WriteExecution) : Prop where
  key_eq : exec.idempotencyKey = req.idempotencyKey
  operation : exec.SendsOperation

/-- The payload is stored: in place where chunks are overwritten, and apart where they are
remapped. -/
structure PaidFor (g : Geometry) (req : WriteRequest) (live planned : Nat → ChunkEntry)
    (plans : List ExtentWritePlan) (f : Nat → Byte) (stores : PayloadStores) : Prop where
  paid : Paid g req live planned plans (Window.patch f req.offsetBytes req.bytes) stores
  place : ∀ c, Reserved.InPlace g req live planned plans c → ∀ i, c * g.chunkSizeBytes ≤ i →
    i < c * g.chunkSizeBytes + g.chunkSizeBytes →
      Window.patch f req.offsetBytes req.bytes i = f i

section One

variable {m1 : Repository} {exec exec' : WriteExecution} {state : VolumeState}
  {plan plan' : List ExtentWritePlan}

theorem ExecutionOf.of_samePlans (h : ExecutionOf req exec) (hsame : SamePlans exec exec') :
    ExecutionOf req exec' := by
  obtain ⟨state, extents, rfl, -⟩ := hsame
  exact ⟨h.key_eq, h.operation⟩

theorem InFlight.committable (h : InFlight g cfg m req live planned exec.plans)
    (hexec : ExecutionOf req exec) {alloc : AllocationCommit}
    (halloc : prepareAllocationCommit exec req = .ok alloc) :
    Committable g cfg m req live planned exec alloc := by
  obtain ⟨rev, base, shown, hview, hmoved, hretires⟩ := h.view
  have hexts : exec.extents ≠ [] := fun hnil => h.ne_nil (by rw [WriteExecution.plans, hnil]; rfl)
  obtain ⟨alloc', hprep, hcommit, hcovered⟩ :=
    hview.prepareAllocationCommit_ok h.geometry h.reserved.each hexts
  rw [halloc] at hprep
  cases hprep
  have htouch := touchedBy_touchedChunkList h.reserved.each
  have hpages := hcommit.pages_ne_nil (touchedChunkList_ne_nil h.reserved.each hexts)
  refine ⟨h.reserved, hexec.operation, hexts, ⟨rev, base, hcommit, ?_⟩, ?_⟩
  · intro hreplaces c _ hrev
    exact ((hmoved ((cfg.replacesPages_iff hpages).mp hreplaces)) _).2 hrev c rfl
  intro hmerges c hc hskip hid
  obtain ⟨p, hp, ht⟩ := (htouch c).mp hc
  rcases hretires with hshown | hreplaces | hzero
  · exact (hcovered hshown _).mpr ⟨hid, c, hc, hskip, by rw [h.skipped c hskip]⟩
  · exact absurd ((cfg.replacesPages_iff hpages).mpr hreplaces) hmerges
  · exact absurd (hzero p hp c ht hskip) hid

theorem Planned.length_pos (h : Planned m req state plan plan' m1) (hne : plan' ≠ []) :
    0 < req.lengthBytes := by
  by_contra hzero
  have hprep := h.prepared
  rw [plan_empty (Nat.eq_zero_of_not_pos hzero) h.plans] at hprep
  cases hprep
  exact hne rfl

theorem Planned.inFlight (h : Planned m req state plan plan' m1) (cfg : ExecutorConfig)
    (hgeom : req.HasGeometry g) (hrep : Represents g size m stores f) (hne : plan' ≠ [])
    {idempotency : List IdempotencyRecord} {operations : List MutationOperationRecord}
    (hkey : Uncommitted { m1 with idempotency, operations } req.idempotencyKey) :
    InFlight g cfg { m1 with idempotency, operations } req (m.liveEntry g) (plannedMap g m req)
        plan' ∧
      (∀ p ∈ plan', WriterPlan g (m.liveEntry g) (plannedMap g m req) req p) ∧
      Unpaid g req (m.liveEntry g) (plannedMap g m req) plan' stores := by
  have hlen := h.length_pos hne
  obtain ⟨-, hplans⟩ := h.isWritePlans hrep hgeom hlen
  obtain ⟨hresv, hwriter, hunpaid⟩ := h.reserved hrep hgeom hlen
  obtain ⟨next, rfl, -⟩ := prepareWritePlanAllocations_same h.prepared
  exact ⟨⟨hgeom, hresv.of_records idempotency operations,
    fun p hp => (hplans.each p hp).copyOnWrite_eq, hne, hkey,
    fun c hskip => h.plannedMap_eq_of_skips hrep hgeom hlen hskip, m.pageRevision, m.liveEntry g,
    fun _ => plannedMap g m req, h.commitView hrep hgeom hlen,
    fun _ n => ⟨le_rfl, fun _ c _ => rfl⟩, .inl fun _ _ => rfl⟩, hwriter, hunpaid⟩

theorem InFlight.of_begin (h : InFlight g cfg m req live planned plans) (next : Nat)
    (idempotency : List IdempotencyRecord) (operations : List MutationOperationRecord)
    (hnext : m.getNextChunkID ≤ { m with nextChunkID := next }.getNextChunkID)
    (hkey : Table.get? (·.idempotencyKey) req.idempotencyKey idempotency =
      Table.get? (·.idempotencyKey) req.idempotencyKey m.idempotency) :
    InFlight g cfg { m with nextChunkID := next, idempotency, operations } req live planned
      plans := by
  have hr := h.reserved
  refine ⟨h.geometry, ⟨hr.extents, hr.each, hr.same, hr.targets,
    fun p hp c hc => (hr.lt_next p hp c hc).trans_le hnext, hr.unmapped, hr.remaps, hr.inj⟩,
    h.copyOnWrite, h.ne_nil, fun record hget => h.uncommitted record (hkey ▸ hget), h.skipped,
    h.view⟩

/-- A rebase moves the plans to the current metadata. In the modes that merge pages the chunks
it covers have to be unmapped: the rebased pages retire nothing. -/
theorem InFlight.rebase (h : InFlight g cfg m req live planned exec.plans)
    (hexec : ExecutionOf req exec) (hrep : Represents g size m stores f)
    (hcovered : cfg.replacesPages = true ∨ ∀ p ∈ exec.plans, ∀ c,
      p.extent.Touched g.chunkSizeBytes req.offsetBytes req.lengthBytes c →
        req.skips g c = true → (m.liveEntry g c).physicalChunkID = 0)
    (hrebase : rebaseWritePlanForRetry m exec req = .ok exec') :
    Forall₂ (RebasedPlan g m req planned) exec.plans exec'.plans ∧
      InFlight g cfg m req live planned exec'.plans ∧ ExecutionOf req exec' := by
  obtain ⟨rev, base, shown, hview, -, -⟩ := h.view
  have hexts : exec.extents ≠ [] := fun hnil => h.ne_nil (by rw [WriteExecution.plans, hnil]; rfl)
  obtain ⟨state, extents, rfl, hrel⟩ :=
    rebaseWritePlanForRetry_ok hrep h.geometry h.reserved hexts hview hrebase
  have hreb : Forall₂ (RebasedPlan g m req planned) exec.plans (extents.map (·.plan)) :=
    forall₂_map_left_iff.mpr (forall₂_map_right_iff.mpr (hrel.imp fun _ _ h => h.1))
  have hresv := h.reserved.rebase hrep hreb
  refine ⟨hreb, ⟨h.geometry, hresv, ?_, ?_, h.uncommitted, h.skipped, m.pageRevision,
    m.liveEntry g, _, commitView_of_rebased hrep h.reserved.each hreb,
    fun _ n => ⟨le_rfl, fun _ c _ => rfl⟩, .inr ?_⟩, ⟨hexec.key_eq, hexec.operation⟩⟩
  · intro p' hp'
    obtain ⟨p, hp, hr⟩ := exists_of_mem_right hreb hp'
    rw [hr.copyOnWrite_eq]
    exact h.copyOnWrite p hp
  · intro hnil
    obtain ⟨p, hp⟩ := exists_mem_of_ne_nil _ h.ne_nil
    obtain ⟨p', hp', -⟩ := exists_of_mem_left hreb hp
    rw [WriteExecution.plans] at hnil
    rw [hnil] at hp'
    cases hp'
  · refine hcovered.imp_right fun hzero p' hp' c hc hskip => ?_
    obtain ⟨p, hp, hr⟩ := exists_of_mem_right hreb hp'
    rw [← hresv.same p' hp' c hc]
    exact hzero p hp c (hr.extent.touched_iff.mp hc) hskip

theorem PaidFor.rebase (h : PaidFor g req live planned plans f stores)
    (hreb : Forall₂ (RebasedPlan g m req planned) plans plans') :
    PaidFor g req live planned plans' f stores := by
  refine ⟨?_, ?_⟩
  · intro p' hp' c hc hre r hr
    obtain ⟨p, hp, hrel⟩ := exists_of_mem_right hreb hp'
    rw [hrel.extent.extentID_eq]
    exact h.paid p hp c (hrel.writtenChunks_eq ▸ hc) hre r (hrel.targetIDs_eq ▸ hr)
  · rintro c ⟨⟨p', hp', hc⟩, hre⟩
    obtain ⟨p, hp, hrel⟩ := exists_of_mem_right hreb hp'
    exact h.place c ⟨⟨p, hp, hrel.writtenChunks_eq ▸ hc⟩, hre⟩

end One

/-! ## Two writes -/

def WriteRequest.DisjointFrom (req req' : WriteRequest) : Prop :=
  req.offsetBytes + req.lengthBytes ≤ req'.offsetBytes ∨
    req'.offsetBytes + req'.lengthBytes ≤ req.offsetBytes

theorem WriteRequest.DisjointFrom.not_writes (h : req.DisjointFrom req') (hi : req'.Writes i) :
    ¬req.Writes i := by
  have hlen := req.length_bytes_le
  have hlen' := req'.length_bytes_le
  unfold WriteRequest.DisjointFrom at h
  unfold WriteRequest.Writes at hi ⊢
  omega

/-- The chunks that the first write remaps are not the second's, neither are their new ids. -/
structure Apart (g : Geometry) (req req' : WriteRequest) (live planned planned' : Nat → ChunkEntry)
    (plans plans' : List ExtentWritePlan) : Prop where
  untouched : ∀ p ∈ plans, ∀ c ∈ writtenChunks g req p.extent, Remaps live planned c →
    ∀ q ∈ plans', ¬q.extent.Touched g.chunkSizeBytes req'.offsetBytes req'.lengthBytes c
  ids : ∀ p ∈ plans, ∀ c ∈ writtenChunks g req p.extent, Remaps live planned c →
    ∀ q ∈ plans', ∀ c' ∈ writtenChunks g req' q.extent,
      (planned' c').physicalChunkID ≠ (planned c).physicalChunkID

section Two

variable {m' : Repository} {live' planned' : Nat → ChunkEntry} {plans2 : List ExtentWritePlan}
  {touched : List Nat} {creq : CommitWriteMetadataRequest} {c : Nat}

section

variable (h : Apart g req req' live planned planned' plans plans')

include h

theorem Apart.rebase_left (hreb : Forall₂ (RebasedPlan g m req planned) plans plans2) :
    Apart g req req' live planned planned' plans2 plans' := by
  refine ⟨fun p2 hp2 c hc => ?_, fun p2 hp2 c hc => ?_⟩
  · obtain ⟨p, hp, hrel⟩ := exists_of_mem_right hreb hp2
    exact h.untouched p hp c (hrel.writtenChunks_eq ▸ hc)
  · obtain ⟨p, hp, hrel⟩ := exists_of_mem_right hreb hp2
    exact h.ids p hp c (hrel.writtenChunks_eq ▸ hc)

theorem Apart.rebase_right (hreb : Forall₂ (RebasedPlan g m req' planned') plans' plans2) :
    Apart g req req' live planned planned' plans plans2 := by
  refine ⟨fun p hp c hc hre q2 hq2 ht => ?_, fun p hp c hc hre q2 hq2 c' hc' => ?_⟩
  · obtain ⟨q, hq, hrel⟩ := exists_of_mem_right hreb hq2
    exact h.untouched p hp c hc hre q hq (hrel.extent.touched_iff.mp ht)
  · obtain ⟨q, hq, hrel⟩ := exists_of_mem_right hreb hq2
    exact h.ids p hp c hc hre q hq c' (hrel.writtenChunks_eq ▸ hc')

end

theorem SameExtents.overlapped (h : SameExtents m.extents m'.extents) (off len : Nat) :
    SameExtents (m.overlapped off len) (m'.overlapped off len) :=
  rel_filter (fun e e' he => by
    show e.overlaps off len = true ↔ e'.overlaps off len = true
    rw [ExtentMappingRecord.overlaps, ExtentMappingRecord.overlaps,
      SameExtent.logicalOffset_eq he, SameExtent.endOffset_eq he]) h

theorem PagesAdvance.pageRevision_cases (h : PagesAdvance m m'.pages)
    (hrep : Represents g size m stores f) (hne : m'.pages ≠ [])
    (hnative : m.pages = [] → ∀ c, (m.liveEntry g c).physicalChunkID = 0) (n : Nat) :
    m.pageRevision n ≤ m'.pageRevision n ∧ (m'.pageRevision n = m.pageRevision n →
      ∀ c, g.pageOf c = n → m'.liveEntry g c = m.liveEntry g c) := by
  unfold pageRevision
  rcases h n with heq | ⟨page, hget, hlt⟩
  · rw [heq]
    refine ⟨le_rfl, fun _ c hc => ?_⟩
    have hlive : m'.liveEntry g c = nativeEntry g m.pages c := by
      rw [liveEntry, if_neg hne, nativeEntry, nativeEntry, hc, heq]
    rcases native_eq_live_or_zero (m := m) (g := g) c with hnat | ⟨hnil, hnat⟩
    · rw [hlive, hnat]
    · rw [hlive, hnat, (normal_liveEntry hrep.pagesWF c).eq_zero (hnative hnil c)]
  · unfold pageRevision at hlt
    rw [hget]
    refine ⟨hlt.le, fun heq => ?_⟩
    rw [← heq] at hlt
    exact absurd hlt (lt_irrefl _)

/-- A write in flight survives the commit of another one that it stays apart from. -/
theorem InFlight.of_commit (h : InFlight g cfg m req' live' planned' plans')
    (hother : Reserved g m req live planned plans) (hrep : Represents g size m stores f)
    (hnat : m.pages = [] → ∀ c, (m.liveEntry g c).physicalChunkID = 0)
    (htouch : TouchedBy g req plans touched) (hne : touched ≠ [])
    (hpages : creq.effectsApplyRequest.allocationPages ≠ [])
    (hcommit : IsRunCommitted g cfg m creq touched (writeEntry g req planned) m')
    (hkey : creq.stateCommitRequest.idempotencyKey ≠ req'.idempotencyKey)
    (hdisj : req.DisjointFrom req') (hapart : Apart g req req' live planned planned' plans plans')
    (hapart' : Apart g req' req live' planned' planned plans' plans) :
    InFlight g cfg m' req' live' planned' plans' := by
  have hr := h.reserved
  have hcomm := hcommit.toIsCommitted
  -- the chunks it touches are as they were
  have hlive : ∀ q ∈ plans', ∀ c,
      q.extent.Touched g.chunkSizeBytes req'.offsetBytes req'.lengthBytes c →
        m'.liveEntry g c = m.liveEntry g c := by
    intro q hq c hc
    rcases hother.committed_cases htouch hne hcomm c with
      ⟨-, hskip, -⟩ | ⟨p, hp, hw, heq⟩ | ⟨-, heq | ⟨hnil, heq⟩⟩
    · -- a chunk that a request touches is not covered by a disjoint one
      have hhits : Hits g.chunkSizeBytes req'.offsetBytes req'.lengthBytes c := hc.1
      unfold Hits at hhits
      unfold WriteRequest.DisjointFrom at hdisj
      rw [WriteRequest.skips, Bool.and_eq_true, coversChunk, decide_eq_true_eq] at hskip
      omega
    · rw [heq, hother.planned_eq_live hp hw fun hre => hapart.untouched p hp c hw hre q hq hc,
        ← hrep.plain c]
    · exact heq
    · rw [heq, (normal_liveEntry hrep.pagesWF c).eq_zero (hnat hnil c)]
  have hresv : Reserved g m' req' live' planned' plans' := by
    refine ⟨hr.extents.trans (.overlapped hcomm.extents _ _), hr.each,
      fun q hq c hc => (hlive q hq c hc).trans (hr.same q hq c hc),
      fun q hq r => (hr.targets q hq r).trans hcomm.isWriteTarget_iff.symm,
      fun q hq c hc => by rw [hcomm.getNextChunkID_eq]; exact hr.lt_next q hq c hc,
      fun q hq c hc hre c' heq => ?_, hr.remaps, hr.inj⟩
    obtain ⟨ht, hskip⟩ := (hr.each q hq).mem_writtenChunks.mp hc
    have hid : (m'.liveEntry g c').physicalChunkID ≠ 0 := by
      rw [heq]
      exact (hr.each q hq).mapped c ht hskip
    rcases hother.committed_id htouch hne hcomm hid with ⟨p, hp, hw, hcid⟩ | ⟨-, hcl⟩
    · exact hapart'.ids q hq c hc hre p hp c' hw (hcid.symm.trans heq)
    · rw [hcl] at heq
      exact hr.unmapped q hq c hc hre c' heq
  obtain ⟨rev, base, shown, hview, hmoved, hretires⟩ := h.view
  refine ⟨h.geometry, hresv, fun q hq => ?_, h.ne_nil, fun record' hget => ?_, h.skipped,
    rev, base, shown, hview, fun hreplaces n => ?_, hretires⟩
  · rw [h.copyOnWrite q hq, sourceWriteRequiresCopyOnWrite, sourceWriteRequiresCopyOnWrite,
      listSnapshotRecords, listSnapshotRecords, hcomm.snapshots_eq]
  · rw [hcomm.intents _ hkey] at hget
    exact h.uncommitted record' hget
  obtain ⟨hle, hkept⟩ := (hcommit.advance
    ((cfg.replacesPages_iff hpages).mpr hreplaces)).pageRevision_cases hrep
      (hcomm.effect.ne_nil hne) hnat n
  obtain ⟨hle0, hbase⟩ := hmoved hreplaces n
  refine ⟨hle0.trans hle, fun hrev c hc => ?_⟩
  -- the revision has not moved in between either
  have hsame : m'.pageRevision n = m.pageRevision n := by omega
  rw [hbase (by omega) c hc, hkept hsame c hc]

end Two

end Namrbd
