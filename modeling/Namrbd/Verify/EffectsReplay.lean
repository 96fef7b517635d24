import Namrbd.Verify.WriterFrame

/-!
# Applying effects again

`replays` is the test whether the effects of a commit are applied already. A transaction
that finalizes an operation leaves a record that passes it, transactions of other
operations leave the record alone (`KeepsOperation`), and a request that passes changes
nothing, alone or in a batch. A request that carries its own copy of the running
operation never looks at the stored record.
-/

namespace Namrbd

open List RepositoryClient Result

variable {req req' : ApplyCommittedWriteEffectsRequest} {m0 m m' m'' : Repository}
  {r r' : RepositoryClient} {operationID : String}

namespace Repository

/-- The stored operation, or the request's own copy, says that the effects are applied. -/
def replays (m : Repository) (req : ApplyCommittedWriteEffectsRequest) : Bool :=
  (m.readCommittedWriteMutationSnapshot req).any (·.committed)

/-- The record of the operation is left alone. -/
def KeepsOperation (operationID : String) (m m' : Repository) : Prop :=
  Table.get? (·.operationID) operationID m'.operations =
    Table.get? (·.operationID) operationID m.operations

theorem KeepsOperation.refl (m : Repository) : KeepsOperation operationID m m :=
  rfl

theorem KeepsOperation.of_eq (h : m'.operations = m.operations) :
    KeepsOperation operationID m m' := by
  unfold KeepsOperation
  rw [h]

theorem KeepsOperation.trans (h : KeepsOperation operationID m m')
    (h' : KeepsOperation operationID m' m'') : KeepsOperation operationID m m'' :=
  Eq.trans h' h

theorem keepsOperation_put {operation : MutationOperationRecord}
    (h : operation.operationID ≠ operationID) :
    KeepsOperation operationID m (m.putMutationOperation operation) :=
  Table.get?_put_of_ne h m.operations

end Repository

open Repository

/-- A request says by itself that it was applied, or has no copy of its operation that fits. -/
def ApplyCommittedWriteEffectsRequest.ReadsOperation (req : ApplyCommittedWriteEffectsRequest) :
    Prop :=
  req.mutationOperationID ≠ "" ∧
    ∀ snapshot ∈ committedWriteMutationSnapshotFromRequest req, snapshot.committed = true

/-- Only the pages and the extents to normalize may differ. -/
def ApplyCommittedWriteEffectsRequest.SameOperation (req req' : ApplyCommittedWriteEffectsRequest) :
    Prop :=
  ∃ allocationPages normalizeExtentMappings,
    req' = { req with allocationPages, normalizeExtentMappings }

theorem replays_sameOperation (h : req.SameOperation req') : m.replays req' = m.replays req := by
  obtain ⟨pages, extentIDs, rfl⟩ := h
  rfl

theorem readsOperation_sameOperation (h : req.SameOperation req') (hreads : req.ReadsOperation) :
    req'.ReadsOperation := by
  obtain ⟨pages, extentIDs, rfl⟩ := h
  exact hreads

/-! ## The test before and after a transaction -/

theorem operationID_of_snapshot : ∀ snapshot ∈ m.readCommittedWriteMutationSnapshot req,
    snapshot.operation.operationID = req.mutationOperationID := by
  intro snapshot h
  unfold readCommittedWriteMutationSnapshot at h
  split at h
  · cases h
  split at h
  · next hcopy =>
    cases h
    unfold committedWriteMutationSnapshotFromRequest at hcopy
    split at hcopy
    · cases hcopy
    dsimp only at hcopy
    split at hcopy
    · cases hcopy
    next hid =>
    split at hcopy
    · cases hcopy
    · cases hcopy
      exact not_not.mp hid
  · obtain ⟨operation, hget, rfl⟩ := Option.map_eq_some_iff.mp h
    exact Table.key_of_get? hget

theorem replays_of_keepsOperation (h : KeepsOperation req.mutationOperationID m m') :
    m'.replays req = m.replays req := by
  unfold replays readCommittedWriteMutationSnapshot
  rw [h]

theorem replays_finalize (hreads : req.ReadsOperation) (hnot : m0.replays req = false)
    (h : m.finalizeWriteMutationOperationFromSnapshot req
      (m0.readCommittedWriteMutationSnapshot req) = .ok m') : m'.replays req = true := by
  obtain ⟨hid, hcopy⟩ := hreads
  -- a copy that fits is committed, and the test would have passed
  have hnone : committedWriteMutationSnapshotFromRequest req = none := by
    cases hfit : committedWriteMutationSnapshotFromRequest req with
    | none => rfl
    | some snapshot =>
      have hcomm := hcopy snapshot hfit
      simp [replays, readCommittedWriteMutationSnapshot, hid, hfit, hcomm] at hnot
  unfold finalizeWriteMutationOperationFromSnapshot at h
  rw [if_neg hid] at h
  split at h
  · cases h
  next snapshot hsnap =>
  have hkey := operationID_of_snapshot snapshot hsnap
  have huncommitted : snapshot.committed = false := by
    simpa [replays, hsnap] using hnot
  rw [huncommitted] at h
  simp only [Bool.false_eq_true, if_false] at h
  split at h
  · cases h
  cases h
  unfold replays readCommittedWriteMutationSnapshot
  rw [if_neg hid, hnone]
  simp [putMutationOperation, Table.get?_put, hkey,
    ApplyCommittedWriteEffectsRequest.matchesCommittedMutationOperation]

theorem keepsOperation_finalize {mutation : Option CommittedWriteMutationSnapshot}
    (h : m.finalizeWriteMutationOperationFromSnapshot req mutation = .ok m')
    (hmut : ∀ snapshot ∈ mutation, snapshot.operation.operationID = req.mutationOperationID)
    (hid : req.mutationOperationID ≠ operationID) : KeepsOperation operationID m m' := by
  unfold finalizeWriteMutationOperationFromSnapshot at h
  split at h
  · cases h
    rfl
  split at h
  · cases h
  next snapshot =>
  split at h
  · cases h
    rfl
  split at h
  · cases h
  · cases h
    exact keepsOperation_put ((hmut snapshot rfl).trans_ne hid)

/-! ## Transactions of other operations -/

section Others

theorem sameOperation_withLegacyBootstrap (h : m.withLegacyBootstrap req = .ok req') :
    req.SameOperation req' := by
  obtain ⟨⟨pages, extentIDs⟩, -, h⟩ := bind_eq_ok.mp h
  cases h
  exact ⟨_, _, rfl⟩

theorem AppliesEffects.keepsOperation
    (h : AppliesEffects m req (m0.readCommittedWriteMutationSnapshot req) m')
    (hid : req.mutationOperationID ≠ operationID) : KeepsOperation operationID m m' := by
  obtain ⟨m1, m2, hpers, hnorm, hfin⟩ := h.steps
  have hkept : KeepsOperation operationID m m2 := .of_eq (by
    rw [normalizeCommittedExtentMappings_frame hnorm, persistCommittedAllocationPages_frame hpers])
  exact hkept.trans (keepsOperation_finalize hfin operationID_of_snapshot hid)

variable {exec : WriteExecution} {wreq : WriteRequest}

theorem CommitTransaction.keepsOperation {alloc : AllocationCommit}
    (hid : writeMutationOperationID exec.idempotencyKey ≠ operationID)
    (h : CommitTransaction exec alloc m m') : KeepsOperation operationID m m' := by
  have hcommit : ∀ {m creq}, commitRequest m exec alloc = .ok creq →
      creq.effectsApplyRequest.mutationOperationID ≠ operationID := by
    intro m creq hreq
    obtain ⟨-, -, revision, heff⟩ := commitRequest_eq_ok hreq
    rw [heff]
    exact hid
  cases h with
  | appendOnly hreq h =>
    obtain ⟨effects, m0, hboot, -, hm0, hm'⟩ := commitAppendOnlyWriteStateAndQueueEffects_eq_ok h
    obtain ⟨pages, extentIDs, rfl⟩ := sameOperation_withLegacyBootstrap hboot
    have hkept : KeepsOperation operationID m m0 := .of_eq (by rw [hm0])
    obtain rfl | happ := hm'
    · exact hkept
    · exact hkept.trans (happ.keepsOperation (hcommit hreq))
  | rangeLocal hreq h => exact .of_eq (by rw [commitRangeLocalWriteState_frame h])
  | pageScoped hreq h =>
    obtain ⟨effects, hboot, h⟩ := bind_eq_ok.mp h
    obtain ⟨bootPages, extentIDs, rfl⟩ := sameOperation_withLegacyBootstrap hboot
    unfold commitPageScopedWriteMetadataWithStore at h
    obtain ⟨-, h⟩ := throwIf_eq_ok.mp h
    obtain ⟨⟨state, record'⟩, -, h⟩ := bind_eq_ok.mp h
    obtain ⟨pages, -, h⟩ := bind_eq_ok.mp h
    obtain ⟨m2, hnorm, h⟩ := bind_eq_ok.mp h
    obtain ⟨m3, hfin, h⟩ := bind_eq_ok.mp h
    cases h
    have hkept : KeepsOperation operationID m m2 :=
      .of_eq (congrArg (·.operations) (normalizeCommittedExtentMappings_frame hnorm))
    exact hkept.trans (keepsOperation_finalize hfin operationID_of_snapshot (hcommit hreq))
  | state hreq h =>
    obtain ⟨state, -, -, hm'⟩ := commitWriteState_frame h
    exact .of_eq (by rw [hm'])
  | volumeScoped hreq h =>
    obtain ⟨effects, state, record', m0, hboot, -, -, happ⟩ := commitWriteMetadata_eq_ok h
    obtain ⟨pages, extentIDs, rfl⟩ := sameOperation_withLegacyBootstrap hboot
    exact happ.keepsOperation (hcommit hreq)
  | effects h =>
    obtain ⟨effects, hboot, rfl | happ⟩ := applyCommittedWriteEffects_eq_ok h
    · rfl
    · obtain ⟨pages, extentIDs, rfl⟩ := sameOperation_withLegacyBootstrap hboot
      exact happ.keepsOperation hid

theorem operations_prepareWritePlanAllocations {plan plan' : List ExtentWritePlan}
    (h : prepareWritePlanAllocations m plan wreq = .ok (plan', m')) :
    m'.operations = m.operations := by
  obtain ⟨next, rfl, -⟩ := prepareWritePlanAllocations_same h
  rfl

theorem Begun.keepsOperation {cfg : ExecutorConfig} {result : BeginWriteResult}
    (hid : writeMutationOperationID wreq.idempotencyKey ≠ operationID)
    (h : Begun cfg m wreq result m') : KeepsOperation operationID m m' := by
  cases h with
  | replay => rfl
  | noop state plan m' hvol hplan hnoop hrecs =>
    rcases hrecs with rfl | rfl
    · rfl
    · exact .of_eq rfl
  | joined state plan plan' m1 existing hplanned | intent state plan plan' m1 hplanned =>
    exact (KeepsOperation.of_eq (operations_prepareWritePlanAllocations hplanned.prepared)).trans
      (keepsOperation_put hid)
  | missing state plan plan' m1 hplanned =>
    exact .of_eq (operations_prepareWritePlanAllocations hplanned.prepared)

end Others

section Clients

variable {reqs : List ApplyCommittedWriteEffectsRequest}

theorem operations_normalizeCommittedExtentMappingsWith {fastPath : Bool}
    (h : m.normalizeCommittedExtentMappingsWith fastPath req = .ok m') :
    m'.operations = m.operations := by
  refine foldlM_of_forall (·.operations = m.operations) h rfl ?_
  intro extentID _ m1 m2 hm1 hstep
  obtain ⟨mapping, -, hput⟩ := bind_eq_ok.mp hstep
  split at hput
  · cases hput
    exact hm1
  · cases hput
    exact hm1

theorem operations_persistCommittedAllocationPagesForBatch
    {items : List CommittedWriteEffectsBatchItem}
    (h : m.persistCommittedAllocationPagesForBatch items = .ok m') :
    m'.operations = m.operations := by
  refine foldlM_of_forall (·.operations = m.operations) h rfl ?_
  intro updates _ m1 m2 hm1 hstep
  split at hstep
  · cases hstep
    exact hm1
  · obtain ⟨finalPage, -, hput⟩ := bind_eq_ok.mp hstep
    cases hput
    exact hm1

section

variable (h : r.applyCommittedWriteEffectsWithStore req = .ok r')

include h

theorem applyCommittedWriteEffectsWithStore_eq_ok : (r.store.replays req = true ∧ r' = r) ∨
      r.store.replays req = false ∧ ∃ m : Repository, m.operations = r.store.operations ∧
        m.finalizeWriteMutationOperationFromSnapshot req
          (r.store.readCommittedWriteMutationSnapshot req) = .ok r'.store := by
  unfold RepositoryClient.applyCommittedWriteEffectsWithStore at h
  dsimp only at h
  split at h
  · next hreplays =>
    cases h
    exact .inl ⟨hreplays, rfl⟩
  next hreplays =>
  obtain ⟨m1, hpers, h⟩ := bind_eq_ok.mp h
  obtain ⟨m2, hnorm, h⟩ := bind_eq_ok.mp h
  obtain ⟨m3, hfin, h⟩ := bind_eq_ok.mp h
  cases h
  refine .inr ⟨Bool.eq_false_iff.mpr hreplays, m2, ?_, hfin⟩
  rw [operations_normalizeCommittedExtentMappingsWith hnorm,
    persistCommittedAllocationPages_frame hpers]

theorem keepsOperation_applyCommittedWriteEffectsWithStore
    (hid : req.mutationOperationID ≠ operationID) :
    KeepsOperation operationID r.store r'.store := by
  rcases applyCommittedWriteEffectsWithStore_eq_ok h with ⟨-, rfl⟩ | ⟨-, m, hops, hfin⟩
  · rfl
  · exact (KeepsOperation.of_eq hops).trans
      (keepsOperation_finalize hfin operationID_of_snapshot hid)

theorem replays_applyCommittedWriteEffectsWithStore (hreads : req.ReadsOperation) :
    r'.store.replays req = true := by
  rcases applyCommittedWriteEffectsWithStore_eq_ok h with ⟨hreplays, rfl⟩ | ⟨hnot, m, -, hfin⟩
  · exact hreplays
  · exact replays_finalize hreads hnot hfin

end

theorem applyCommittedWriteEffectsWithStore_of_replays (h : r.store.replays req = true) :
    r.applyCommittedWriteEffectsWithStore req = .ok r := by
  exact if_pos h

theorem withLegacyBootstrap_eq_ok (h : r.withLegacyBootstrap req = .ok (req', r')) :
    req.SameOperation req' ∧ r'.store = r.store ∧
      r'.asyncWriteMutationFinalize = r.asyncWriteMutationFinalize := by
  obtain ⟨⟨⟨pages, extentIDs⟩, r1⟩, hboot, h⟩ := bind_eq_ok.mp h
  cases h
  refine ⟨⟨_, _, rfl⟩, ?_⟩
  unfold RepositoryClient.prepareLegacyAllocationBootstrap at hboot
  split at hboot
  · cases hboot
    exact ⟨rfl, rfl⟩
  split at hboot
  · cases hboot
    exact ⟨rfl, rfl⟩
  split at hboot
  · cases hboot
    exact ⟨rfl, rfl⟩
  · obtain ⟨bootstrap, -, hboot⟩ := bind_eq_ok.mp hboot
    cases hboot
    exact ⟨rfl, rfl⟩

theorem mapAccumM_withLegacyBootstrap_eq_ok {prepared : List ApplyCommittedWriteEffectsRequest}
    (h : mapAccumM withLegacyBootstrap r reqs = .ok (prepared, r')) :
    Forall₂ ApplyCommittedWriteEffectsRequest.SameOperation reqs prepared ∧
      r'.store = r.store ∧ r'.asyncWriteMutationFinalize = r.asyncWriteMutationFinalize := by
  refine mapAccumM_of_ok
    (fun r' => r'.store = r.store ∧ r'.asyncWriteMutationFinalize = r.asyncWriteMutationFinalize)
    (fun s req req' s' hs hstep => ?_) ⟨rfl, rfl⟩ h
  obtain ⟨hsame, hstore, hasync⟩ := withLegacyBootstrap_eq_ok hstep
  exact ⟨hsame, hstore.trans hs.1, hasync.trans hs.2⟩

variable {item : CommittedWriteEffectsBatchItem}

theorem mem_activeItems (h : item ∈ r.activeItems reqs) :
    item.req ∈ reqs ∧ r.store.replays item.req = false ∧
      item.mutation = r.store.readCommittedWriteMutationSnapshot item.req := by
  obtain ⟨req, hreq, hitem⟩ := mem_filterMap.mp h
  dsimp only at hitem
  split at hitem
  · cases hitem
  · next hnot =>
    cases hitem
    exact ⟨hreq, Bool.eq_false_iff.mpr hnot, rfl⟩

/-- The extents and the operation of one request of a batch; the operation may be left to the
background. -/
theorem finishBatchItem_eq_ok (h : r.finishBatchItem item = .ok r') :
    r'.asyncWriteMutationFinalize = r.asyncWriteMutationFinalize ∧
      ∃ m : Repository, m.operations = r.store.operations ∧
        (r.asyncWriteMutationFinalize = true ∧ r'.store = m ∨
          r.asyncWriteMutationFinalize = false ∧
          m.finalizeWriteMutationOperationFromSnapshot item.req item.mutation = .ok r'.store) := by
  obtain ⟨m, hnorm, h⟩ := bind_eq_ok.mp h
  have hops := operations_normalizeCommittedExtentMappingsWith hnorm
  split at h
  · next hasync =>
    obtain ⟨-, -, h⟩ := bind_eq_ok.mp h
    split at h
    · cases h
      exact ⟨rfl, m, hops, .inl ⟨hasync, rfl⟩⟩
    · cases h
      exact ⟨rfl, m, hops, .inl ⟨hasync, rfl⟩⟩
  · next hasync =>
    obtain ⟨m', hfin, h⟩ := bind_eq_ok.mp h
    cases h
    exact ⟨rfl, m, hops, .inr ⟨Bool.eq_false_iff.mpr hasync, hfin⟩⟩

theorem keepsOperation_finishBatchItem (h : r.finishBatchItem item = .ok r')
    (hmut : ∀ snapshot ∈ item.mutation,
      snapshot.operation.operationID = item.req.mutationOperationID)
    (hid : item.req.mutationOperationID ≠ operationID) :
    KeepsOperation operationID r.store r'.store := by
  obtain ⟨-, m, hops, ⟨-, hm⟩ | ⟨-, hfin⟩⟩ := finishBatchItem_eq_ok h
  · exact .of_eq (hm ▸ hops)
  · exact (KeepsOperation.of_eq hops).trans (keepsOperation_finalize hfin hmut hid)

section

variable (h : r.applyCommittedWriteEffectsBatchWithStore reqs = .ok r')

include h

theorem keepsOperation_applyCommittedWriteEffectsBatchWithStore
    (hids : ∀ req ∈ reqs, req.mutationOperationID ≠ operationID) :
    KeepsOperation operationID r.store r'.store := by
  unfold applyCommittedWriteEffectsBatchWithStore at h
  split at h
  · refine foldlM_of_forall
      (fun r' : RepositoryClient => KeepsOperation operationID r.store r'.store) h (.refl _) ?_
    intro req hreq r1 r2 hr1 hstep
    exact hr1.trans (keepsOperation_applyCommittedWriteEffectsWithStore hstep (hids req hreq))
  · obtain ⟨m, hpers, h⟩ := bind_eq_ok.mp h
    have hstart := operations_persistCommittedAllocationPagesForBatch hpers
    refine foldlM_of_forall (KeepsOperation operationID r.store ·.store) h (.of_eq hstart) ?_
    intro item hitem r1 r2 hr1 hstep
    obtain ⟨hreq, -, hmut⟩ := mem_activeItems hitem
    exact hr1.trans (keepsOperation_finishBatchItem hstep
      (hmut ▸ operationID_of_snapshot) (hids _ hreq))

/-- A batch that finalizes its operations leaves each of its requests applied, if the requests
of one operation are the same. -/
theorem replays_applyCommittedWriteEffectsBatchWithStore
    (hsync : r.asyncWriteMutationFinalize = false) (hreads : req.ReadsOperation)
    (hsame : ∀ other ∈ reqs, other.mutationOperationID = req.mutationOperationID →
      req.SameOperation other)
    (hmem : ∃ other ∈ reqs, other.mutationOperationID = req.mutationOperationID) :
    r'.store.replays req = true := by
  unfold applyCommittedWriteEffectsBatchWithStore at h
  split at h
  · -- one by one: after the first request of the operation the record stays
    have hinv := foldlM_of_ok
      (fun done r' => (∃ other ∈ done, other.mutationOperationID = req.mutationOperationID) →
        r'.store.replays req = true) h (by simp) ?_
    · exact hinv hmem
    intro done other rest r1 r2 hl hr1 hstep hdone
    by_cases hid : other.mutationOperationID = req.mutationOperationID
    · have hother := hsame other (by simp [hl]) hid
      rw [← replays_sameOperation hother]
      exact replays_applyCommittedWriteEffectsWithStore hstep
        (readsOperation_sameOperation hother hreads)
    · have hbefore : ∃ other ∈ done, other.mutationOperationID = req.mutationOperationID := by
        simpa [or_and_right, exists_or, hid] using hdone
      rw [replays_of_keepsOperation (keepsOperation_applyCommittedWriteEffectsWithStore hstep hid)]
      exact hr1 hbefore
  · obtain ⟨m, hpers, h⟩ := bind_eq_ok.mp h
    have hstart : KeepsOperation req.mutationOperationID r.store m :=
      .of_eq (operations_persistCommittedAllocationPagesForBatch hpers)
    have hinv := foldlM_of_ok
      (fun done r' => r'.asyncWriteMutationFinalize = false ∧
        (r.store.replays req = true ∨
            (∃ item ∈ done, item.req.mutationOperationID = req.mutationOperationID) →
          r'.store.replays req = true)) h ?_ ?_
    · apply hinv.2
      cases hreplays : r.store.replays req with
      | true => exact .inl rfl
      | false =>
        obtain ⟨other, hother, hid⟩ := hmem
        have hothersame := hsame other hother hid
        rw [← replays_sameOperation hothersame] at hreplays
        exact .inr ⟨⟨_, _⟩, mem_filterMap.mpr ⟨_, hother, if_neg (Bool.eq_false_iff.mp hreplays)⟩,
          hid⟩
    · refine ⟨hsync, ?_⟩
      rintro (hreplays | ⟨item, hitem, -⟩)
      · exact (replays_of_keepsOperation hstart).trans hreplays
      · cases hitem
    · rintro done item rest r1 r2 hl ⟨hasync, hr1⟩ hstep
      have hitem : item ∈ r.activeItems reqs := by simp [hl]
      obtain ⟨hreq, hnot, hmut⟩ := mem_activeItems hitem
      obtain ⟨hasync', m', hops, ⟨htrue, -⟩ | ⟨-, hfin⟩⟩ := finishBatchItem_eq_ok hstep
      · rw [hasync] at htrue
        cases htrue
      refine ⟨hasync'.trans hasync, fun hdone => ?_⟩
      by_cases hid : item.req.mutationOperationID = req.mutationOperationID
      · have hitem := hsame item.req hreq hid
        rw [← replays_sameOperation hitem]
        rw [hmut] at hfin
        exact replays_finalize (readsOperation_sameOperation hitem hreads) hnot hfin
      · have hkept := keepsOperation_finishBatchItem hstep (hmut ▸ operationID_of_snapshot) hid
        rw [replays_of_keepsOperation hkept]
        refine hr1 (hdone.imp_right fun hfound => ?_)
        simpa [or_and_right, exists_or, hid] using hfound

end

theorem store_applyCommittedWriteEffectsBatch_of_replays
    (h : r.applyCommittedWriteEffectsBatch reqs = .ok r')
    (hreplays : ∀ req ∈ reqs, r.store.replays req = true) : r'.store = r.store := by
  obtain ⟨⟨prepared, r1⟩, hboot, h⟩ := bind_eq_ok.mp h
  obtain ⟨hprep, hstore, -⟩ := mapAccumM_withLegacyBootstrap_eq_ok hboot
  rw [← hstore]
  have hall : ∀ req' ∈ prepared, r1.store.replays req' = true := by
    intro req' hreq'
    obtain ⟨req, hreq, hsame⟩ := exists_of_mem_right hprep hreq'
    rw [replays_sameOperation hsame, hstore]
    exact hreplays req hreq
  dsimp only at h
  unfold applyCommittedWriteEffectsBatchWithStore at h
  split at h
  · refine foldlM_of_forall (·.store = r1.store) h rfl ?_
    intro req' hmem r2 r3 hr2 hstep
    have hreq' := hall req' hmem
    rw [← hr2] at hreq'
    rw [applyCommittedWriteEffectsWithStore_of_replays hreq'] at hstep
    cases hstep
    exact hr2
  · have hnone : r1.activeItems prepared = [] := by
      apply eq_nil_iff_forall_not_mem.mpr
      intro item hitem
      obtain ⟨hreq', hnot, -⟩ := mem_activeItems hitem
      rw [hall _ hreq'] at hnot
      cases hnot
    simp only [hnone] at h
    cases h
    rfl

/-- In a batch with requests of other operations, a request that is applied already is as if it
were not there. -/
theorem applyCommittedWriteEffectsBatchWithStore_of_replays
    {before after : List ApplyCommittedWriteEffectsRequest} (hreplays : r.store.replays req = true)
    (hothers : ∀ other ∈ before ++ after, other.mutationOperationID ≠ req.mutationOperationID) :
    r.applyCommittedWriteEffectsBatchWithStore (before ++ req :: after) =
      r.applyCommittedWriteEffectsBatchWithStore (before ++ after) := by
  have hduplicate : hasDuplicateMutationOperationIDs (before ++ req :: after) =
      hasDuplicateMutationOperationIDs (before ++ after) := by
    unfold hasDuplicateMutationOperationIDs
    rw [decide_eq_decide, not_iff_not]
    by_cases hid : req.mutationOperationID = ""
    · simp [hid]
    have hnotMem : req.mutationOperationID ∉
        ((before ++ after).map (·.mutationOperationID)).filter (· ≠ "") := by
      intro hmem
      obtain ⟨other, hother, heq⟩ := mem_map.mp (mem_of_mem_filter hmem)
      exact hothers other hother heq
    simp only [map_append, map_cons, filter_append] at hnotMem ⊢
    rw [filter_cons_of_pos (by simpa using hid), nodup_middle, nodup_cons]
    exact and_iff_right hnotMem
  have hactive : r.activeItems (before ++ req :: after) = r.activeItems (before ++ after) := by
    unfold activeItems
    rw [filterMap_append, filterMap_append, filterMap_cons_none]
    exact if_pos hreplays
  unfold applyCommittedWriteEffectsBatchWithStore
  rw [hduplicate, hactive]
  split
  · -- the requests before it keep the record it reads
    rw [foldlM_append, foldlM_append]
    cases hbefore : before.foldlM RepositoryClient.applyCommittedWriteEffectsWithStore r with
    | error err => rfl
    | ok r1 =>
      have hkept : KeepsOperation req.mutationOperationID r.store r1.store := by
        refine foldlM_of_forall
          (fun r' : RepositoryClient => KeepsOperation req.mutationOperationID r.store r'.store)
          hbefore (.refl _) ?_
        intro other hmem r2 r3 hr2 hstep
        exact hr2.trans (keepsOperation_applyCommittedWriteEffectsWithStore hstep
          (hothers other (mem_append_left _ hmem)))
      have hreplays1 : r1.store.replays req = true :=
        (replays_of_keepsOperation hkept).trans hreplays
      rw [ok_bind, ok_bind, foldlM_cons,
        applyCommittedWriteEffectsWithStore_of_replays hreplays1, ok_bind]
  · rfl

end Clients

/-! ## Applied once -/

/-- The effects of a request go through, alone or in a batch that names its operation for this
request only. -/
inductive AppliesOnce (req : ApplyCommittedWriteEffectsRequest) (r r' : RepositoryClient) : Prop
  | single (h : r.applyCommittedWriteEffects req = .ok r')
  | batch (reqs : List ApplyCommittedWriteEffectsRequest) (hreq : req ∈ reqs)
      (hothers : ∀ other ∈ reqs, other.mutationOperationID = req.mutationOperationID → other = req)
      (h : r.applyCommittedWriteEffectsBatch reqs = .ok r')

/-- A transaction of some other write: its intent, its commit in any mode, its effects alone or
in a batch, or its failure. -/
inductive OtherWrite (operationID : String) : Repository → Repository → Prop
  | begins {m m' : Repository} (cfg : ExecutorConfig) (wreq : WriteRequest)
      (result : BeginWriteResult) (hid : writeMutationOperationID wreq.idempotencyKey ≠ operationID)
      (h : beginWrite cfg m wreq = .ok (result, m')) : OtherWrite operationID m m'
  | commits {m m' : Repository} (exec : WriteExecution) (alloc : AllocationCommit)
      (hid : writeMutationOperationID exec.idempotencyKey ≠ operationID)
      (h : CommitTransaction exec alloc m m') : OtherWrite operationID m m'
  | fails {m : Repository} (exec : WriteExecution) (message : String)
      (hid : writeMutationOperationID exec.idempotencyKey ≠ operationID) :
      OtherWrite operationID m (markFailed m exec message)
  | effects {r r' : RepositoryClient} (req : ApplyCommittedWriteEffectsRequest)
      (hid : req.mutationOperationID ≠ operationID)
      (h : r.applyCommittedWriteEffects req = .ok r') : OtherWrite operationID r.store r'.store
  | effectsBatch {r r' : RepositoryClient} (reqs : List ApplyCommittedWriteEffectsRequest)
      (hids : ∀ req ∈ reqs, req.mutationOperationID ≠ operationID)
      (h : r.applyCommittedWriteEffectsBatch reqs = .ok r') :
      OtherWrite operationID r.store r'.store

theorem OtherWrite.keepsOperation (h : OtherWrite operationID m m') :
    KeepsOperation operationID m m' := by
  cases h with
  | begins cfg wreq result hid h => exact (begun_of_beginWrite h).keepsOperation hid
  | commits exec alloc hid h => exact h.keepsOperation hid
  | fails exec message hid =>
    unfold markFailed
    split
    · rfl
    · exact keepsOperation_put hid
  | effects req hid h =>
    obtain ⟨⟨req', r1⟩, hboot, h⟩ := bind_eq_ok.mp h
    obtain ⟨⟨pages, extentIDs, rfl⟩, hstore, -⟩ := withLegacyBootstrap_eq_ok hboot
    have hkept := keepsOperation_applyCommittedWriteEffectsWithStore h hid
    rwa [hstore] at hkept
  | effectsBatch reqs hids h =>
    obtain ⟨⟨prepared, r1⟩, hboot, h⟩ := bind_eq_ok.mp h
    obtain ⟨hprep, hstore, -⟩ := mapAccumM_withLegacyBootstrap_eq_ok hboot
    have hids' : ∀ req' ∈ prepared, req'.mutationOperationID ≠ operationID := by
      intro req' hreq'
      obtain ⟨req, hreq, pages, extentIDs, rfl⟩ := exists_of_mem_right hprep hreq'
      exact hids req hreq
    have hkept := keepsOperation_applyCommittedWriteEffectsBatchWithStore h hids'
    rwa [hstore] at hkept

theorem keepsOperation_of_otherWrites (h : Relation.ReflTransGen (OtherWrite operationID) m m') :
    KeepsOperation operationID m m' := by
  induction h with
  | refl => rfl
  | tail _ hwrite ih => exact ih.trans hwrite.keepsOperation

theorem AppliesOnce.replays (h : AppliesOnce req r r')
    (hsync : r.asyncWriteMutationFinalize = false) (hreads : req.ReadsOperation) :
    r'.store.replays req = true := by
  cases h with
  | single h =>
    obtain ⟨⟨req', r1⟩, hboot, h⟩ := bind_eq_ok.mp h
    obtain ⟨hsame, -, -⟩ := withLegacyBootstrap_eq_ok hboot
    rw [← replays_sameOperation hsame]
    exact replays_applyCommittedWriteEffectsWithStore h (readsOperation_sameOperation hsame hreads)
  | batch reqs hreq hothers h =>
    obtain ⟨⟨prepared, r1⟩, hboot, h⟩ := bind_eq_ok.mp h
    obtain ⟨hprep, -, hasync⟩ := mapAccumM_withLegacyBootstrap_eq_ok hboot
    refine replays_applyCommittedWriteEffectsBatchWithStore h (hasync.trans hsync) hreads ?_ ?_
    · intro other' hother' hid
      obtain ⟨other, hother, hsame⟩ := exists_of_mem_right hprep hother'
      have hotherID : other.mutationOperationID = req.mutationOperationID := by
        obtain ⟨pages, extentIDs, rfl⟩ := hsame
        exact hid
      rw [← hothers other hother hotherID]
      exact hsame
    · obtain ⟨req', hreq', pages, extentIDs, rfl⟩ := exists_of_mem_left hprep hreq
      exact ⟨_, hreq', rfl⟩

/-- A request that reads its operation and was applied by a repository that finalizes in the
transaction changes nothing when it is applied again, after any transactions of other writes:
alone, in a batch of requests that are all applied, and in a batch with others. -/
theorem effects_applied_once (req : ApplyCommittedWriteEffectsRequest) (hreads : req.ReadsOperation)
    (r r' : RepositoryClient) (hsync : r.asyncWriteMutationFinalize = false)
    (hfirst : AppliesOnce req r r') (later : RepositoryClient)
    (hwrites : Relation.ReflTransGen (OtherWrite req.mutationOperationID) r'.store later.store) :
    (∀ again, later.applyCommittedWriteEffects req = .ok again → again.store = later.store) ∧
    (∀ reqs again, (∀ other ∈ reqs, other = req ∨ later.store.replays other = true) →
      later.applyCommittedWriteEffectsBatch reqs = .ok again → again.store = later.store) ∧
    ∀ before after, (∀ other ∈ before ++ after,
        other.mutationOperationID ≠ req.mutationOperationID) →
      later.applyCommittedWriteEffectsBatchWithStore (before ++ req :: after) =
        later.applyCommittedWriteEffectsBatchWithStore (before ++ after) := by
  have hreplays : later.store.replays req = true :=
    (replays_of_keepsOperation (keepsOperation_of_otherWrites hwrites)).trans
      (hfirst.replays hsync hreads)
  refine ⟨fun again h => ?_, fun reqs again hreqs h => ?_, fun before after hothers => ?_⟩
  · obtain ⟨⟨req', r1⟩, hboot, h⟩ := bind_eq_ok.mp h
    obtain ⟨hsame, hstore, -⟩ := withLegacyBootstrap_eq_ok hboot
    have hreplays' : r1.store.replays req' = true := by
      rw [replays_sameOperation hsame, hstore]
      exact hreplays
    have hagain := applyCommittedWriteEffectsWithStore_of_replays hreplays'
    cases hagain.symm.trans h
    exact hstore
  · refine store_applyCommittedWriteEffectsBatch_of_replays h fun other hother => ?_
    rcases hreqs other hother with rfl | hother
    · exact hreplays
    · exact hother
  · exact applyCommittedWriteEffectsBatchWithStore_of_replays hreplays hothers

/-! ## Two writes of one chunk -/

namespace OneChunk

def operation (operationID : String) : MutationOperationRecord :=
  { operationID, kind := "write", state := .running }

def page (revision : Nat) (extents : List AllocationExtentRecord) : AllocationPageRecord :=
  { pageNo := 0, pageBytes := 4, chunkSizeBytes := 4, revision, extents }

/-- The effects of a write that stored the chunk, with or without its own copy of the operation. -/
def request (operationID : String) (revision physicalChunk : Nat) (copied : Bool) :
    ApplyCommittedWriteEffectsRequest where
  committedRevision := revision
  allocationPages := [page 0
    [{ logicalChunkStart := 0, chunkCount := 1, kind := .data, physicalChunkStart := physicalChunk }]]
  normalizeExtentMappings := []
  mutationOperationID := operationID
  expectedMutationState := .running
  affectedExtentIDs := []
  affectedPageNos := [0]
  affectedPageChunkRanges := [{ pageNo := 0, startChunk := 0, endChunk := 1 }]
  retiredPhysicalChunkIDs := []
  mutationOperation := if copied then some (operation operationID) else none

def start : RepositoryClient where
  store := { pages := [page 0 [{ logicalChunkStart := 0, chunkCount := 1, kind := .zero }]]
             operations := [operation "a", operation "b"] }

def mapped (r : RepositoryClient) : List (Nat × Nat) :=
  r.store.pages.flatMap fun page => page.extents.map fun e => (e.physicalChunkStart, page.revision)

def mappedAfter (r : RepositoryClient) (reqs : List ApplyCommittedWriteEffectsRequest) :
    Option (List (Nat × Nat)) :=
  (reqs.foldlM RepositoryClient.applyCommittedWriteEffects r).toOption.map mapped

/-- A write is applied, another one writes the chunk, and the first is applied again: with its own
copy of the operation, without an operation, and before its operation is finalized in the
background. -/
theorem applied_again_overwrites :
    mappedAfter start [request "a" 1 10 true, request "b" 2 20 true] = some [(20, 2)] ∧
    mappedAfter start [request "a" 1 10 true, request "b" 2 20 true, request "a" 1 10 true] =
      some [(10, 1)] ∧
    mappedAfter start [request "" 1 10 false, request "b" 2 20 true, request "" 1 10 false] =
      some [(10, 1)] ∧
    ((do
      let r ← { start with asyncWriteMutationFinalize := true }.applyCommittedWriteEffectsBatch
        [request "a" 1 10 false]
      let r ← r.applyCommittedWriteEffects (request "b" 2 20 true)
      r.applyCommittedWriteEffectsBatch [request "a" 1 10 false]).toOption.map mapped) =
      some [(10, 1)] := by
  decide

def applied (r : RepositoryClient) (req : ApplyCommittedWriteEffectsRequest) : RepositoryClient :=
  (r.applyCommittedWriteEffects req).toOption.getD r

theorem apply_eq_ok_applied (h : (r.applyCommittedWriteEffects req).toOption.isSome = true) :
    r.applyCommittedWriteEffects req = .ok (applied r req) := by
  unfold applied
  cases happly : r.applyCommittedWriteEffects req with
  | error err =>
    rw [happly] at h
    cases h
  | ok r' => rfl

/-- A request that reads its operation leaves the later write alone. -/
theorem applied_again_unchanged : let first := applied start (request "a" 1 10 false)
    let later := applied first (request "b" 2 20 true)
    let again := applied later (request "a" 1 10 false)
    mapped first = [(10, 1)] ∧ mapped later = [(20, 2)] ∧ again.store = later.store := by
  intro first later again
  have hfirst : start.applyCommittedWriteEffects (request "a" 1 10 false) = .ok first :=
    apply_eq_ok_applied (by decide)
  have hlater : first.applyCommittedWriteEffects (request "b" 2 20 true) = .ok later :=
    apply_eq_ok_applied (by decide)
  have hagain : later.applyCommittedWriteEffects (request "a" 1 10 false) = .ok again :=
    apply_eq_ok_applied (by decide)
  have hwrites : Relation.ReflTransGen (OtherWrite "a") first.store later.store :=
    .single (.effects (request "b" 2 20 true) (by decide) hlater)
  have honce := effects_applied_once (request "a" 1 10 false)
    ⟨by decide, by rintro _ ⟨⟩⟩ start first rfl (.single hfirst) later hwrites
  exact ⟨by decide, by decide, honce.1 again hagain⟩

end OneChunk

end Namrbd
