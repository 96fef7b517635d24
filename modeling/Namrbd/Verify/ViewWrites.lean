import Namrbd.Verify.CloneDelta
import Namrbd.Verify.WriterFrame

/-!
# Writes and the views they leave alone

While a volume has a snapshot its writes copy, and writes to a clone always do.
A write that copies stores its payload under ids that were not taken before, so
it changes no object that a view of the volume may be mapped to (`Undisturbed`),
and every other view still stands for the same array.
-/

namespace Namrbd

open Repository Reserved Table WriteExecution

variable {v m : Repository} {g : Geometry} {size : Nat} {f : Nat → Byte} {c' c : Cluster}
  {req : WriteRequest} {resp : WriteResponse} {clone' : CloneRecord} {alloc : AllocationCommit}

/-- The repositories are of one volume: they differ in pages and records only. -/
structure SameVolume (m v : Repository) : Prop where
  extents_eq : v.extents = m.extents
  replicaSets_eq : v.replicaSets = m.replicaSets
  nodes_eq : v.nodes = m.nodes
  nextChunkID_eq : v.nextChunkID = m.nextChunkID

namespace SameVolume

theorem refl (m : Repository) : SameVolume m m := ⟨rfl, rfl, rfl, rfl⟩

theorem view (g : Geometry) (m : Repository) (base delta : List AllocationPageRecord) :
    SameVolume m (m.view g base delta) := ⟨rfl, rfl, rfl, rfl⟩

theorem getNextChunkID_eq (h : SameVolume m v) : v.getNextChunkID = m.getNextChunkID := by
  rw [getNextChunkID, getNextChunkID, h.nextChunkID_eq]

theorem isWriteTarget_iff (h : SameVolume m v) {e : ExtentMappingRecord} {r : String} :
    v.IsWriteTarget e r ↔ m.IsWriteTarget e r := by
  unfold IsWriteTarget replicaSetForPlacement
  rw [h.replicaSets_eq, h.nodes_eq]

theorem represents (h : SameVolume m v) (hpages : v.pages = m.pages) {stores : PayloadStores}
    (hrep : Represents g size m stores f) :
    Represents g size v stores f :=
  hrep.of_same hpages h.extents_eq h.replicaSets_eq h.nodes_eq h.getNextChunkID_eq.ge

end SameVolume

/-- What a write that copies makes of a cluster, as far as other views go: the extents stay where
they are, and no object with an id that was taken before changes. -/
structure Undisturbed (c c' : Cluster) : Prop where
  extents : SameExtents c.repository.extents c'.repository.extents
  replicaSets_eq : c'.repository.replicaSets = c.repository.replicaSets
  nodes_eq : c'.repository.nodes = c.repository.nodes
  next_le : c.repository.getNextChunkID ≤ c'.repository.getNextChunkID
  payload_eq : ∀ r e k, k < c.repository.getNextChunkID →
    c'.stores.payload r e k = c.stores.payload r e k

/-- The metadata changed outside of what is written, the stores did not. -/
theorem Undisturbed.of_stores (hvol : SameVolume c.repository c'.repository)
    (hstores : c'.stores = c.stores) : Undisturbed c c' where
  extents := hvol.extents_eq ▸ SameExtents.refl _
  replicaSets_eq := hvol.replicaSets_eq
  nodes_eq := hvol.nodes_eq
  next_le := hvol.getNextChunkID_eq.ge
  payload_eq := fun r e k _ => by rw [hstores]

theorem Undisturbed.represents {v' w : Repository} {f' : Nat → Byte} (h : Undisturbed c c')
    (hrep : Represents g size v c.stores f) (hv : SameVolume c.repository v)
    (hv' : SameVolume c'.repository v') (hwf : v'.PagesWF g)
    (hlive : ∀ k, v'.liveEntry g k = v.liveEntry g k) (hw : SameVolume c'.repository w)
    (hwriter : Represents g size w c'.stores f') : Represents g size v' c'.stores f := by
  apply hrep.frame hwf hlive
  · rw [hv.extents_eq, hv'.extents_eq]
    exact h.extents
  · rw [hv.replicaSets_eq, hv'.replicaSets_eq]
    exact h.replicaSets_eq
  · rw [hv.nodes_eq, hv'.nodes_eq]
    exact h.nodes_eq
  · rw [hv.getNextChunkID_eq, hv'.getNextChunkID_eq]
    exact h.next_le
  · rw [hv.getNextChunkID_eq]
    exact h.payload_eq
  · intro e he r hr k
    rw [hv'.extents_eq, ← hw.extents_eq] at he
    rw [hv'.isWriteTarget_iff, ← hw.isWriteTarget_iff] at hr
    exact hwriter.foreign e he r hr k
  · intro r e k hk
    rw [hv'.getNextChunkID_eq, ← hw.getNextChunkID_eq] at hk
    exact hwriter.unused r e k hk

section Write

variable {cfg : ExecutorConfig} {now : Nat}

theorem write_undisturbed (hasync : cfg.asyncWriteEffects = false)
    (hrep : Represents g size c.repository c.stores f) (hstep : WriteStep g cfg c req)
    (hcopies : sourceWriteRequiresCopyOnWrite c.repository = true)
    (h : write cfg now .reliable c req = (.ok resp, c')) : Undisturbed c c' := by
  rcases write_cases hstep h with ⟨-, rfl⟩ | ⟨-, plan, idempotency, -, -, rfl⟩ |
    ⟨hlen, state, plan, plan', m1, missing, idempotency, operations, exec, stores, hplan,
      hintent, hpay, hfinish⟩
  · exact .of_stores (.refl _) rfl
  · exact .of_stores ⟨rfl, rfl, rfl, rfl⟩ rfl
  obtain ⟨hstored, hsame⟩ := hplan.writePayload_ok hrep hstep.geometry hstep.zeroData hlen
    (plans_newWriteExecution plan' state missing) hpay
  obtain ⟨-, hstores, -, -, record, hcomm⟩ :=
    finishWrite_commits hasync hrep hstep.geometry hlen hplan hintent hsame rfl hfinish
  have hnext := (writerStep_write cfg now .reliable c req).next_le
  rw [h] at hnext
  obtain ⟨next, rfl, -⟩ := prepareWritePlanAllocations_same hplan.prepared
  refine ⟨hcomm.extents, hcomm.replicaSets_eq, hcomm.nodes_eq, hnext, ?_⟩
  intro r e k hk
  rw [hstores]
  exact hplan.payload_eq hrep hstep.geometry hlen hcopies hstored r e hk

end Write

section Clone

variable {clone : CloneRecord} {cloneID : String} {m' : Repository}

theorem length_pos_of_writeClone {faults : StoreFaults}
    (h : writeClone faults c cloneID req = (.ok resp, c')) : 0 < req.lengthBytes := by
  rw [Nat.pos_iff_ne_zero]
  intro hlen
  unfold writeClone at h
  split at h
  · cases h
  next exec m hbegin =>
  split at h
  · cases h
  next exec' stores hpay =>
  have hnil : exec'.plans = [] := (samePlans_writePayloadFrom hpay).plans_eq.trans
    (plans_of_beginCloneWrite_zero hlen hbegin)
  have hexts : exec'.extents = [] := List.map_eq_nil_iff.mp hnil
  split at h
  · cases h
  next hfinish =>
  obtain ⟨alloc, -, hcommit⟩ := Result.bind_eq_ok.mp hfinish
  simp [commitCloneDeltaMetadata, canCommitMetadata, allExtentsQuorumReached, hexts] at hcommit

theorem DeltaPut.pagesEffect {rev : Nat → Nat} {planned : Nat → ChunkEntry} {touched : List Nat}
    (hput : DeltaPut m clone.cloneID alloc.pages m') (hsame : SameClone clone clone')
    (hclone' : m'.CloneReadable g clone')
    (halloc : IsAllocationCommit g rev req planned touched alloc)
    (hplan : ∀ chunk, chunk ∉ touched → planned chunk = (m.cloneView g clone).liveEntry g chunk) :
    PagesEffect g (m.cloneView g clone) touched (writeEntry g req planned)
      (m'.cloneView g clone').pages := by
  have hdelta := hput.delta clone.cloneID
  rw [if_pos rfl] at hdelta
  have hroots : m'.snapshotPages = m.snapshotPages := by rw [hput.same]
  have hnat : ∀ chunk, nativeEntry g (m'.cloneView g clone').pages chunk =
      ((get? (·.pageNo) (g.pageOf chunk)
        (putAll (·.pageNo) alloc.pages (m.cloneDeltaPages clone.cloneID))).map
          (·.entryAt chunk)).getD
        (nativeEntry g (m.snapshotPages clone.cloneBaseRootID) chunk) := by
    intro chunk
    rw [← hdelta, ← hroots, ← hsame.cloneID_eq, ← hsame.cloneBaseRootID_eq,
      ← liveEntry_view, liveEntry, if_neg view_pages_ne_nil]
    rfl
  refine ⟨hclone'.pagesWF, fun _ => view_pages_ne_nil, ?_, ?_⟩
  · intro chunk hchunk
    obtain ⟨page, hget, hentry⟩ := halloc.deltaShows_touched hchunk
    rw [hnat, hget]
    exact hentry
  · intro chunk hchunk
    left
    rw [hnat]
    by_cases hpage : ∃ page ∈ alloc.pages, page.pageNo = g.pageOf chunk
    · obtain ⟨page, hpage, hno⟩ := hpage
      have hget := halloc.sorted.get?_putAll_of_mem hpage (m.cloneDeltaPages clone.cloneID)
      rw [hno] at hget
      rw [hget, Option.map_some, Option.getD_some,
        halloc.entryAt_eq page hpage chunk hno.symm, if_neg hchunk, hplan chunk hchunk]
    · rw [get?_putAll_of_forall_ne fun page hmem hno => hpage ⟨page, hmem, hno⟩,
        cloneView, liveEntry_view]

structure CloneStep (cloneID : String) (m m' : Repository) : Prop where
  same : m' = { m with
    nextChunkID := m'.nextChunkID, clones := m'.clones, cloneDeltaPages := m'.cloneDeltaPages }
  others : ∀ id, id ≠ cloneID → m'.getCloneRecord id = m.getCloneRecord id ∧
    m'.cloneDeltaPages id = m.cloneDeltaPages id

theorem DeltaPut.cloneStep {pages : List AllocationPageRecord} (h : DeltaPut m cloneID pages m') :
    CloneStep cloneID m m' := by
  obtain ⟨clone, clone', hrec, hsame, hclones⟩ := h.record
  refine ⟨by rw [h.same], fun id hid => ⟨?_, ?_⟩⟩
  · have hkey : clone'.cloneID = cloneID :=
      hsame.cloneID_eq.trans (key_of_get? (orNotFound_eq_ok.mp hrec))
    rw [getCloneRecord, hclones, get?_put_of_ne (by rw [hkey]; exact Ne.symm hid)]
    rfl
  · rw [h.delta, if_neg hid]

structure CloneWritten (g : Geometry) (size : Nat) (c : Cluster) (clone : CloneRecord)
    (req : WriteRequest) (f : Nat → Byte) (state : VolumeState) (plan plan' : List ExtentWritePlan)
    (next : Nat) (exec : WriteExecution) (alloc : AllocationCommit) (c' : Cluster) : Prop where
  length_pos : 0 < req.lengthBytes
  planned : Planned (c.repository.cloneView g clone) req state plan plan'
    { c.repository.cloneView g clone with nextChunkID := next }
  begun : Represents g size { c.repository.cloneView g clone with nextChunkID := next } c.stores f
  stored : StoredPlans g (plannedMap g (c.repository.cloneView g clone) req) req
    (Window.patch f req.offsetBytes req.bytes) plan' c.stores c'.stores
  execution : CloneExecution g (c.repository.cloneView g clone) req exec
  plans_eq : exec.plans = plan'
  touched : touchedChunkList g req exec ≠ []
  commit : IsAllocationCommit g (c.repository.cloneView g clone).pageRevision req
    (plannedMap g (c.repository.cloneView g clone) req) (touchedChunkList g req exec) alloc
  put : DeltaPut { c.repository with nextChunkID := next } clone.cloneID alloc.pages c'.repository

theorem writeClone_written (hclone : c.repository.CloneReadable g clone)
    (hrep : Represents g size (c.repository.cloneView g clone) c.stores f)
    (hgeom : req.HasGeometry g) (hzero : req.ZeroData)
    (h : writeClone .reliable c clone.cloneID req = (.ok resp, c')) :
    ∃ state plan plan' next exec alloc,
      CloneWritten g size c clone req f state plan plan' next exec alloc c' := by
  have hlen := length_pos_of_writeClone h
  unfold writeClone at h
  split at h
  · cases h
  next exec m hbegin =>
  split at h
  · cases h
  next exec' stores hpay =>
  split at h
  · cases h
  next m' hfinish =>
  cases h
  have hexecution := CloneExecution.of_beginCloneWrite hclone hrep.layout hgeom hlen hbegin
  obtain ⟨state, plan, plan', next, hplan, hexec, rfl⟩ :=
    beginCloneWrite_planned hclone hgeom hlen hbegin
  have hplans : exec.plans = plan' := by
    rw [hexec]
    simp [plans, newWriteExecution, Function.comp_def]
  obtain ⟨hstored, hsame⟩ := hplan.writePayload_ok hrep hgeom hzero hlen hplans hpay
  have hexecution' := hexecution.of_samePlans hsame
  obtain ⟨hne, alloc, halloc, hput⟩ := hexecution'.finishCloneWrite_ok hrep.layout hgeom hfinish
  exact ⟨state, plan, plan', next, exec', alloc, hlen, hplan, hplan.represents hrep, hstored,
    hexecution', hsame.plans_eq.trans hplans, hne, halloc, hput⟩

namespace CloneWritten

variable {state : VolumeState} {plan plan' : List ExtentWritePlan} {next : Nat}
  {exec : WriteExecution}

section

variable (h : CloneWritten g size c clone req f state plan plan' next exec alloc c')

include h

theorem sameVolume : SameVolume { c.repository with nextChunkID := next } c'.repository :=
  ⟨by rw [h.put.same], by rw [h.put.same], by rw [h.put.same], by rw [h.put.same]⟩

theorem undisturbed (hrep : Represents g size (c.repository.cloneView g clone) c.stores f)
    (hgeom : req.HasGeometry g) : Undisturbed c c' := by
  have hvol := h.sameVolume
  refine ⟨?_, hvol.replicaSets_eq, hvol.nodes_eq, ?_, fun r e k hk => ?_⟩
  · rw [hvol.extents_eq]
    exact .refl _
  · obtain ⟨-, -, hnext⟩ := prepareWritePlanAllocations_same h.planned.prepared
    exact hnext.trans hvol.getNextChunkID_eq.ge
  · exact h.planned.payload_eq hrep hgeom h.length_pos
      sourceWriteRequiresCopyOnWrite_view h.stored r e hk

theorem readable (hclone : c.repository.CloneReadable g clone) :
    ∃ clone', c'.repository.CloneReadable g clone' ∧ SameClone clone clone' := by
  have hclone1 : CloneReadable g { c.repository with nextChunkID := next } clone :=
    ⟨hclone.record, hclone.state, hclone.pageBytes_eq, hclone.chunkSizeBytes_eq, hclone.base,
      hclone.delta⟩
  exact hclone1.deltaPut h.commit.wf h.put

theorem committed (hclone' : c'.repository.CloneReadable g clone')
    (hsame : SameClone clone clone') :
    IsCommitted g { c.repository.cloneView g clone with nextChunkID := next }
      (touchedChunkList g req exec)
      (writeEntry g req (plannedMap g (c.repository.cloneView g clone) req)) req.idempotencyKey
      (c'.repository.cloneView g clone') := by
  have hvol := h.sameVolume
  refine ⟨h.put.pagesEffect hsame hclone' h.commit fun chunk hchunk =>
    h.execution.plannedMap_eq h.begun.layout hchunk, ?_, hvol.replicaSets_eq, hvol.nodes_eq,
    hvol.nextChunkID_eq, rfl, ?_, fun key _ => ?_⟩
  · change SameExtents c.repository.extents c'.repository.extents
    rw [hvol.extents_eq]
    exact .refl _
  · change c'.repository.snapshotPages = c.repository.snapshotPages
    rw [h.put.same]
  · change get? _ _ c'.repository.idempotency = get? _ _ c.repository.idempotency
    rw [h.put.same]

theorem represents (hrep : Represents g size (c.repository.cloneView g clone) c.stores f)
    (hgeom : req.HasGeometry g) (hclone' : c'.repository.CloneReadable g clone')
    (hsame : SameClone clone clone') :
    Represents g size (c'.repository.cloneView g clone') c'.stores
      (Window.patch f req.offsetBytes req.bytes) := by
  obtain ⟨hresv, -, -⟩ := h.planned.reserved hrep hgeom h.length_pos
  obtain ⟨hpay, hpaid⟩ := hresv.payload_represents h.begun h.stored
  have htouch : TouchedBy g req plan' (touchedChunkList g req exec) := by
    rw [← h.plans_eq]
    exact touchedBy_touchedChunkList fun _ hp => h.execution.chunkPlan h.begun.layout hp
  have hfinal := hresv.commit_represents htouch h.touched
    (h.committed hclone' hsame) hpay (by rw [patch_paidArray]; exact hpaid)
    (fun k hk i hlo hhi => by
      rw [patch_paidArray, paidArray_of_inPlace hk hlo hhi])
    (fun hnil => (view_pages_ne_nil (m := c.repository) hnil).elim)
  rw [patch_paidArray] at hfinal
  exact hfinal.of_same rfl rfl rfl rfl le_rfl

end

end CloneWritten

end Clone

end Namrbd
