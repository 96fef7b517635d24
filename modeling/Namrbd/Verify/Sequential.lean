import Namrbd.Verify.CommitMetadata

/-!
# One write

A write that succeeds, with no other write in flight and stores that do not fail,
lays its bytes over the volume's array.
-/

namespace Namrbd

open List Repository Reserved Window

variable {f f' : Nat → Byte} {g : Geometry} {size : Nat} {m : Repository} {stores : PayloadStores}

/-- While a volume has no pages of its own it is zero. -/
def Blank (g : Geometry) (m : Repository) (f : Nat → Byte) : Prop :=
  m.pages = [] → ∀ e ∈ m.extents, ∀ c, e.HasChunk g.chunkSizeBytes c →
    ∀ i, c * g.chunkSizeBytes ≤ i → i < c * g.chunkSizeBytes + g.chunkSizeBytes → f i = 0

theorem Represents.congr_array (h : Represents g size m stores f)
    (heq : ∀ e ∈ m.extents, ∀ c, e.HasChunk g.chunkSizeBytes c → ∀ i, c * g.chunkSizeBytes ≤ i →
      i < c * g.chunkSizeBytes + g.chunkSizeBytes → f' i = f i) : Represents g size m stores f' :=
  { h with
    zero := fun e he c hc hid i hlo hhi => (heq e he c hc i hlo hhi).trans
      (h.zero e he c hc hid i hlo hhi)
    stored := fun e he c hc hid r hr => (h.stored e he c hc hid r hr).trans
      (window_congr fun i hlo hhi => (heq e he c hc i hlo hhi).symm) }

section Step

variable {cfg : ExecutorConfig} {now : Nat} {c c' : Cluster} {req : WriteRequest}
  {plan plan' : List ExtentWritePlan} {m₁ : Repository} {exec : WriteExecution}
  {resp : WriteResponse} {state : VolumeState} {missing : Bool}

theorem writePlanIsZeroNoop_cases (h : writePlanIsZeroNoop plan req = true) :
    req.zeroSemantic = true ∧ 0 < req.lengthBytes ∧ ∀ p ∈ plan, ∀ start length,
      overlapRange p.extent req.offsetBytes req.lengthBytes = .ok (start, length) →
      0 < length → ∀ c ∈ touchedChunks p.chunkSizeBytes start length,
        resolvedAllocationPagesChunkIsZero p.allocationPages c = true := by
  unfold writePlanIsZeroNoop at h
  split at h
  · cases h
  next hcond =>
  simp only [Bool.or_eq_true, Bool.not_eq_true', beq_iff_eq, not_or, Bool.not_eq_false] at hcond
  rw [Bool.and_eq_true, all_eq_true] at h
  refine ⟨hcond.1.1.2, Nat.pos_of_ne_zero hcond.1.2, fun p hp start length hov hlen c hc => ?_⟩
  have hext := h.1 p hp
  split at hext
  · cases hext
  rw [hov] at hext
  rw [Bool.or_eq_true, decide_eq_true_eq, all_eq_true] at hext
  rcases hext with hzero | hall
  · omega
  · exact hall c hc

theorem patch_eq_of_zeroNoop (hrep : Represents g size m stores f) (hgeom : req.HasGeometry g)
    (hplan : planRequest m req = .ok plan) (hnoop : writePlanIsZeroNoop plan req = true)
    {e : ExtentMappingRecord} (he : e ∈ m.extents) {c : Nat} (hin : e.HasChunk g.chunkSizeBytes c)
    {i : Nat} (hlo : c * g.chunkSizeBytes ≤ i) (hhi : i < c * g.chunkSizeBytes + g.chunkSizeBytes) :
    patch f req.offsetBytes req.bytes i = f i := by
  obtain ⟨hzs, hlen, hzero⟩ := writePlanIsZeroNoop_cases hnoop
  rw [planRequest, hgeom.pageBytes_eq, hgeom.chunkSizeBytes_eq] at hplan
  have hplans := planWrite_ok hrep.pagesWF hrep.layout hlen hplan
  have hbytes := req.length_bytes_le
  by_cases hlt : i < req.offsetBytes
  · exact patch_of_lt hlt
  by_cases hge : req.offsetBytes + req.lengthBytes ≤ i
  · exact patch_of_ge (by omega)
  -- the position is written, so its chunk is touched and was zero
  have hhits : Hits g.chunkSizeBytes req.offsetBytes req.lengthBytes c := by
    unfold Hits
    omega
  have hov := overlaps_of_hits hhits hin
  obtain ⟨p, hp, rfl⟩ : ∃ p ∈ plan, p.extent = e :=
    mem_map.mp (hplans.extents_eq ▸ mem_overlapped.mpr ⟨he, hov⟩)
  have hshows := hplans.each p hp
  have ha := hrep.layout.aligned he
  have hpos := overlap_pos ha.length_pos hlen hov
  have hmem : c ∈ extentChunks g p.extent req.offsetBytes req.lengthBytes :=
    (mem_extentChunks ha hlen hov).mpr ⟨hhits, hin⟩
  have hz := hzero p hp _ _ (overlapRange_of_overlaps hov) (by omega) c
    (hshows.chunkSizeBytes_eq ▸ hmem)
  rw [hshows.pages.resolvedAllocationPagesChunkIsZero_eq ⟨hhits, hin⟩, beq_iff_eq] at hz
  rw [hrep.zero p.extent he c hin hz i hlo hhi]
  refine patch_of_mem (by omega) ?_
  rw [WriteRequest.bytes, if_pos hzs, getElem?_replicate, if_pos (by omega)]

variable {exec' : WriteExecution} {plans : List ExtentWritePlan}
  {idempotency : List IdempotencyRecord} {operations : List MutationOperationRecord}
  {stores' : PayloadStores}

theorem SamePlans.plans_eq (h : SamePlans exec exec') : exec'.plans = exec.plans := by
  obtain ⟨state, extents, rfl, hplans⟩ := h
  exact hplans

theorem plans_newWriteExecution (plan : List ExtentWritePlan) (state : VolumeState)
    (missing : Bool) : (newWriteExecution plan req state missing).plans = plan := by
  simp [WriteExecution.plans, newWriteExecution, Function.comp_def]

theorem Reserved.of_records {live planned : Nat → ChunkEntry}
    (h : Reserved g m req live planned plans) (idempotency : List IdempotencyRecord)
    (operations : List MutationOperationRecord) :
    Reserved g { m with idempotency, operations } req live planned plans :=
  ⟨h.extents, h.each, h.same, h.targets, h.lt_next, h.unmapped, h.remaps, h.inj⟩

theorem canCommitMetadata_of_finishWrite (h : finishWrite cfg now c exec req = (.ok resp, c')) :
    exec.canCommitMetadata = true := by
  by_contra hnot
  rw [Bool.not_eq_true] at hnot
  unfold finishWrite at h
  split at h
  · cases h
  next alloc _ =>
  have hcommit : commitMetadataWithRetry cfg now req writeMetadataCommitMaxAttempts c.repository
      exec alloc = (.error (.other "write execution is not ready for metadata commit"),
        { repository := c.repository }) := by
    rw [writeMetadataCommitMaxAttempts, commitMetadataWithRetry, commitMetadata, if_pos hnot]
  rw [hcommit] at h
  cases h

theorem IsWritePlans.plannedMap_eq (hrep : Represents g size m stores f)
    (hlen : 0 < req.lengthBytes)
    (h : IsWritePlans g m (plannedMap g m req) req.offsetBytes req.lengthBytes plans) {c : Nat}
    (hc : ∀ p ∈ plans, c ∉ writtenChunks g req p.extent) :
    plannedMap g m req c = m.liveEntry g c := by
  refine plannedEntry_of_notMem fun hfresh => ?_
  obtain ⟨⟨e, he, htouch⟩, hneeds⟩ := (mem_freshChunks hrep.layout hlen).mp hfresh
  have hov := overlaps_of_hits htouch.1 htouch.2
  obtain ⟨p, hp, rfl⟩ : ∃ p ∈ plans, p.extent = e :=
    mem_map.mp (h.extents_eq ▸ mem_overlapped.mpr ⟨he, hov⟩)
  refine hc p hp (mem_filter.mpr
    ⟨(mem_extentChunks (hrep.layout.aligned he) hlen hov).mpr htouch, ?_⟩)
  exact ((Bool.and_eq_true _ _).mp hneeds).1

section

variable (hplanned : Planned m req state plan plan' m₁) (hrep : Represents g size m stores f)

include hplanned hrep

theorem Planned.represents : Represents g size m₁ stores f := by
  obtain ⟨next, rfl, hnext⟩ := prepareWritePlanAllocations_same hplanned.prepared
  exact hrep.of_same rfl rfl rfl rfl hnext

variable (hgeom : req.HasGeometry g)

include hgeom

theorem Planned.writePayload_ok (hzero : req.ZeroData)
    (hlen : 0 < req.lengthBytes) (hexec : exec.plans = plan')
    (hpay : writePayload .reliable exec req stores = (.ok exec', stores')) :
    StoredPlans g (plannedMap g m req) req (patch f req.offsetBytes req.bytes) plan' stores
      stores' ∧ SamePlans exec exec' := by
  obtain ⟨hresv, hwriter, hunpaid⟩ := hplanned.reserved hrep hgeom hlen
  have hready := hresv.plansReady hwriter (hplanned.represents hrep) hunpaid
  rw [← hexec] at hready
  obtain ⟨hstored, hsame⟩ := Namrbd.writePayload_ok hzero hready hpay
  exact ⟨hexec ▸ hstored, hsame⟩

variable (hlen : 0 < req.lengthBytes)

include hlen

theorem Planned.plannedMap_eq_of_skips {c : Nat} (hskip : req.skips g c = true) :
    plannedMap g m req c = m.liveEntry g c := by
  obtain ⟨-, hplans⟩ := hplanned.isWritePlans hrep hgeom hlen
  obtain ⟨hresv, -, -⟩ := hplanned.reserved hrep hgeom hlen
  refine hplans.plannedMap_eq hrep hlen fun p hp hw => ?_
  rw [((hresv.each p hp).mem_writtenChunks.mp hw).2] at hskip
  exact Bool.false_ne_true hskip

theorem Planned.commitView : CommitView g m.pageRevision req (plannedMap g m req) (m.liveEntry g)
    (fun _ => plannedMap g m req) plan' := by
  obtain ⟨-, hplans⟩ := hplanned.isWritePlans hrep hgeom hlen
  obtain ⟨hresv, -, -⟩ := hplanned.reserved hrep hgeom hlen
  refine ⟨fun p hp => (hplans.each p hp).toPlanShows, fun _ _ _ _ => rfl, fun p _ c hc => ?_,
    normal_liveEntry hrep.pagesWF⟩
  exact hplans.plannedMap_eq hrep hlen fun q hq hw =>
    hc q hq ((hresv.each q hq).mem_writtenChunks.mp hw).1

theorem Planned.payload_eq (hcopies : sourceWriteRequiresCopyOnWrite m = true)
    (hstored : StoredPlans g (plannedMap g m req) req f' plan' stores stores') (r : String)
    (e : Nat) {k : Nat} (hk : k < m.getNextChunkID) :
    stores'.payload r e k = stores.payload r e k := by
  obtain ⟨hresv, -, -⟩ := hplanned.reserved hrep hgeom hlen
  obtain ⟨rfl, hplans⟩ := hplanned.isWritePlans hrep hgeom hlen
  apply hstored.frame.payload_eq
  rintro ⟨p, hp, -, -, c, hc, rfl⟩
  have hmem : p.extent ∈ m.extents := (mem_overlapped.mp (hplans.extents_eq ▸ mem_map_of_mem hp)).1
  obtain ⟨htouch, hskip⟩ := (hresv.each p hp).mem_writtenChunks.mp hc
  have hfresh : c ∈ freshChunks g m req :=
    (mem_freshChunks hrep.layout hlen).mpr
      ⟨⟨p.extent, hmem, htouch⟩, by simp [needsFreshChunk, hskip, hcopies]⟩
  exact absurd hk (Nat.not_lt.mpr (plannedMap_ge hfresh))

end

/-- The record of a write is pending, or it appends and has none. -/
abbrev HasIntent (cfg : ExecutorConfig) (req : WriteRequest) (idempotency : List IdempotencyRecord)
    (missing : Bool) : Prop :=
  (∃ record, Table.get? (·.idempotencyKey) req.idempotencyKey idempotency = some record ∧
      record.resultState = .pending) ∨
    Table.get? (·.idempotencyKey) req.idempotencyKey idempotency = none ∧ missing = true ∧
      cfg.appendOnly = true

/-- A write whose payload is stored commits. -/
theorem finishWrite_commits (hasync : cfg.asyncWriteEffects = false)
    (hrep : Represents g size m stores f) (hgeom : req.HasGeometry g) (hlen : 0 < req.lengthBytes)
    (hplanned : Planned m req state plan plan' m₁)
    (hintent : HasIntent cfg req idempotency missing)
    (hsame : SamePlans (newWriteExecution plan' req state missing) exec)
    (hrepo : c.repository = { m₁ with idempotency, operations })
    (h : finishWrite cfg now c exec req = (.ok resp, c')) :
    resp.replay = false ∧ c'.stores = c.stores ∧ touchedChunkList g req exec ≠ [] ∧
      TouchedBy g req plan' (touchedChunkList g req exec) ∧
      ∃ key, IsCommitted g { m₁ with idempotency, operations } (touchedChunkList g req exec)
        (writeEntry g req (plannedMap g m req)) key c'.repository := by
  obtain ⟨hresv, -, -⟩ := hplanned.reserved hrep hgeom hlen
  obtain ⟨next, rfl, -⟩ := prepareWritePlanAllocations_same hplanned.prepared
  have hrep1 : Represents g size { m with nextChunkID := next, idempotency, operations } stores f :=
    (hplanned.represents hrep).of_same rfl rfl rfl rfl le_rfl
  have hexec : exec.plans = plan' := hsame.plans_eq.trans (plans_newWriteExecution _ _ _)
  have hresv1 := hresv.of_records idempotency operations
  have hready := canCommitMetadata_of_finishWrite h
  have hview := hplanned.commitView hrep hgeom hlen
  rw [← hexec] at hresv1 hview ⊢
  have hexts := extents_ne_nil_of_canCommitMetadata hready
  obtain ⟨alloc, hprep, halloc, hretires⟩ :=
    hview.prepareAllocationCommit_ok hgeom hresv1.each hexts
  have htouch := touchedBy_touchedChunkList hresv1.each
  have hne := touchedChunkList_ne_nil hresv1.each hexts
  have hcommittable : Committable g cfg { m with nextChunkID := next, idempotency, operations } req
      (m.liveEntry g) (plannedMap g m req) exec alloc := by
    obtain ⟨state', extents, rfl, -⟩ := hsame
    refine ⟨hresv1, ⟨_, rfl, rfl, rfl⟩, hexts, ⟨_, _, halloc, fun _ _ _ _ => rfl⟩, ?_⟩
    intro _ c hc hskip hid
    exact (hretires (fun _ _ => rfl) _).mpr
      ⟨hid, c, hc, hskip, by rw [hplanned.plannedMap_eq_of_skips hrep hgeom hlen hskip]⟩
  obtain ⟨state', extents, rfl, -⟩ := hsame
  obtain ⟨record, m', hcommit, hcomm⟩ := commitMetadata_of_admits hasync now hrep1 hcommittable
    hready (commitRequest_ok hplanned.volume ⟨rfl, rfl⟩ alloc)
    (admits_of_unmoved hplanned.volume rfl rfl rfl (halloc.pages_ne_nil hne) hintent
      halloc.revision_eq)
  unfold finishWrite at h
  rw [hprep] at h
  dsimp only at h
  rw [writeMetadataCommitMaxAttempts, commitMetadataWithRetry, hrepo, hcommit] at h
  cases h
  exact ⟨rfl, rfl, hne, htouch, _, hcomm.toIsCommitted⟩

theorem finishWrite_represents (hasync : cfg.asyncWriteEffects = false)
    (hrep : Represents g size m c.stores f) (hblank : Blank g m f) (hgeom : req.HasGeometry g)
    (hzero : req.ZeroData) (hlen : 0 < req.lengthBytes)
    (hplanned : Planned m req state plan plan' m₁) (hintent : HasIntent cfg req idempotency missing)
    (hpay : writePayload .reliable (newWriteExecution plan' req state missing) req c.stores =
      (.ok exec, stores)) (h : finishWrite cfg now { c with
      repository := { m₁ with idempotency, operations }, stores } exec req = (.ok resp, c')) :
    resp.replay = false ∧ c'.repository.pages ≠ [] ∧
      Represents g size c'.repository c'.stores (patch f req.offsetBytes req.bytes) := by
  obtain ⟨hstored, hsame⟩ := hplanned.writePayload_ok hrep hgeom hzero hlen
    (plans_newWriteExecution plan' state missing) hpay
  obtain ⟨hresv, -, -⟩ := hplanned.reserved hrep hgeom hlen
  obtain ⟨next, rfl, -⟩ := prepareWritePlanAllocations_same hplanned.prepared
  obtain ⟨hrep2, hpaid⟩ := hresv.payload_represents (hplanned.represents hrep) hstored
  obtain ⟨hreplay, hstores, hne, htouch, record, hcomm⟩ :=
    finishWrite_commits hasync hrep hgeom hlen hplanned hintent hsame rfl h
  have hresv2 := hresv.of_records idempotency operations
  refine ⟨hreplay, hcomm.effect.ne_nil hne, ?_⟩
  have hfinal := hresv2.commit_represents htouch hne hcomm
    (hrep2.of_same rfl rfl rfl rfl le_rfl) (by rw [patch_paidArray]; exact hpaid)
    (fun c hc i hlo hhi => by
      rw [patch_paidArray, paidArray_of_inPlace hc hlo hhi])
    (fun hpages e he c hin hc i hlo hhi => by
      rw [paidArray_of_not_inPlace _ hlo hhi]
      · exact hblank hpages e he c hin i hlo hhi
      · rintro ⟨⟨p, hp, hw⟩, -⟩
        exact hc ((htouch c).mpr ⟨p, hp, ((hresv2.each p hp).mem_writtenChunks.mp hw).1⟩))
  rw [patch_paidArray] at hfinal
  rw [hstores]
  exact hfinal

/-- What a write step has to meet. -/
structure WriteStep (g : Geometry) (cfg : ExecutorConfig) (c : Cluster) (req : WriteRequest) :
    Prop where
  geometry : req.HasGeometry g
  zeroData : req.ZeroData
  noRecord : cfg.allowMissingWriteIntent = true →
    Table.get? (·.idempotencyKey) req.idempotencyKey c.repository.idempotency = none

def WriteResponse.apply (resp : WriteResponse) (req : WriteRequest) (f : Nat → Byte) :
    Nat → Byte :=
  if resp.replay then f else Window.patch f req.offsetBytes req.bytes

structure Executed (cfg : ExecutorConfig) (now : Nat) (c : Cluster) (req : WriteRequest)
    (resp : WriteResponse) (c' : Cluster) : Prop where
  length_pos : 0 < req.lengthBytes
  steps : ∃ state plan plan' m₁ missing idempotency operations exec stores,
    Planned c.repository req state plan plan' m₁ ∧
    HasIntent cfg req idempotency missing ∧
    writePayload .reliable (newWriteExecution plan' req state missing) req c.stores =
      (.ok exec, stores) ∧
    finishWrite cfg now { c with repository := { m₁ with idempotency, operations }, stores } exec
      req = (.ok resp, c')

/-- A write that succeeds is a replay, or is begun, paid and committed. -/
theorem write_cases (hstep : WriteStep g cfg c req)
    (h : write cfg now .reliable c req = (.ok resp, c')) :
    (resp.replay = true ∧ c' = c) ∨
      (resp.replay = false ∧ ∃ plan idempotency, planRequest c.repository req = .ok plan ∧
        writePlanIsZeroNoop plan req = true ∧
        c' = { c with repository := { c.repository with idempotency } }) ∨
      Executed cfg now c req resp c' := by
  unfold write at h
  split at h
  · cases h
  · next record m' hbegin =>
    cases h
    cases begun_of_beginWrite hbegin with
    | replay _ _ _ => exact .inl ⟨rfl, rfl⟩
  · next revision m' hbegin =>
    cases h
    cases begun_of_beginWrite hbegin with
    | noop state plan _ hvol hplan hnoop hrecs =>
      refine .inr (.inl ⟨rfl, plan, ?_⟩)
      rcases hrecs with rfl | rfl
      · exact ⟨c.repository.idempotency, hplan, hnoop, rfl⟩
      · exact ⟨_, hplan, hnoop, rfl⟩
  · next exec m' hbegin =>
    obtain ⟨state, plan, plan', m₁, missing, idempotency, operations, hplanned, rfl, rfl, -, hintent⟩ :=
      (begun_of_beginWrite hbegin).execution_cases
    split at h
    · cases h
    next exec' stores hpay =>
    rcases Nat.eq_zero_or_pos req.lengthBytes with hlen | hlen
    · -- nothing is planned for an empty range, and an empty plan is not committed
      obtain rfl := plan_empty hlen hplanned.plans
      have hprep := hplanned.prepared
      cases hprep
      cases hpay
      exact (Bool.false_ne_true (canCommitMetadata_of_finishWrite h)).elim
    have hnone : missing = true ∧ cfg.allowMissingWriteIntent = true ∧ cfg.appendOnly = true ∧
        idempotency = c.repository.idempotency →
        Table.get? (·.idempotencyKey) req.idempotencyKey idempotency = none ∧ missing = true ∧
          cfg.appendOnly = true := by
      rintro ⟨hmiss, hallowed, happend, rfl⟩
      exact ⟨hstep.noRecord hallowed, hmiss, happend⟩
    exact .inr (.inr ⟨hlen, state, plan, plan', m₁, missing, idempotency, operations, exec',
      stores, hplanned, hintent.imp_right hnone, hpay, h⟩)

theorem write_represents (hasync : cfg.asyncWriteEffects = false)
    (hrep : Represents g size c.repository c.stores f) (hblank : Blank g c.repository f)
    (hstep : WriteStep g cfg c req) (h : write cfg now .reliable c req = (.ok resp, c')) :
    Represents g size c'.repository c'.stores (resp.apply req f) ∧
      Blank g c'.repository (resp.apply req f) := by
  unfold WriteResponse.apply
  rcases write_cases hstep h with ⟨hreplay, rfl⟩ |
    ⟨hreplay, plan, idempotency, hplan, hnoop, rfl⟩ | ⟨hlen, hexecuted⟩
  · rw [hreplay, if_pos rfl]
    exact ⟨hrep, hblank⟩
  · rw [hreplay, if_neg Bool.false_ne_true]
    have heq : ∀ e ∈ c.repository.extents, ∀ k, e.HasChunk g.chunkSizeBytes k →
        ∀ i, k * g.chunkSizeBytes ≤ i → i < k * g.chunkSizeBytes + g.chunkSizeBytes →
          patch f req.offsetBytes req.bytes i = f i := fun e he k hin i hlo hhi =>
      patch_eq_of_zeroNoop hrep hstep.geometry hplan hnoop he hin hlo hhi
    refine ⟨(hrep.congr_array heq).of_same rfl rfl rfl rfl le_rfl, ?_⟩
    exact fun hnil e he k hin i hlo hhi =>
      (heq e he k hin i hlo hhi).trans (hblank hnil e he k hin i hlo hhi)
  · obtain ⟨state, plan, plan', m₁, missing, idempotency, operations, exec, stores, hplanned,
      hintent, hpay, hfinish⟩ := hexecuted
    obtain ⟨hreplay, hpages, hrep'⟩ := finishWrite_represents hasync hrep hblank hstep.geometry
      hstep.zeroData hlen hplanned hintent hpay hfinish
    rw [hreplay, if_neg Bool.false_ne_true]
    exact ⟨hrep', fun hnil => (hpages hnil).elim⟩

end Step

end Namrbd
