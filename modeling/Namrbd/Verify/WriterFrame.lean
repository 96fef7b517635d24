import Namrbd.Replication.WriteService
import Namrbd.Verify.BeginWrite
import Namrbd.Verify.CommitTransactions

/-!
# What a writer leaves alone

Writers change the live pages, the extent mappings, the id counter and their
records. They leave the specification, the snapshots and the clones alone, never
move an extent and never lower the id counter.
-/

namespace Namrbd

variable {m m' m'' : Repository}

def ExtentMappingRecord.SameRange (extent extent' : ExtentMappingRecord) : Prop :=
  extent.extentID = extent'.extentID ∧ extent.logicalOffset = extent'.logicalOffset ∧
    extent.lengthBytes = extent'.lengthBytes

structure WriterStep (m m' : Repository) : Prop where
  spec : m'.spec = m.spec
  snapshots : m'.snapshots = m.snapshots
  snapshotPages : m'.snapshotPages = m.snapshotPages
  clones : m'.clones = m.clones
  cloneDeltaPages : m'.cloneDeltaPages = m.cloneDeltaPages
  next_le : m.getNextChunkID ≤ m'.getNextChunkID
  sorted : Table.Sorted (·.pageNo) m.pages → Table.Sorted (·.pageNo) m'.pages
  extents : ∀ extent ∈ m'.extents, ∃ extent' ∈ m.extents, extent.SameRange extent'

variable {req : WriteRequest}

theorem WriterStep.refl (m : Repository) : WriterStep m m :=
  ⟨rfl, rfl, rfl, rfl, rfl, le_rfl, id, fun extent hext => ⟨extent, hext, rfl, rfl, rfl⟩⟩

theorem WriterStep.trans (h : WriterStep m m') (h' : WriterStep m' m'') : WriterStep m m'' where
  spec := h'.spec.trans h.spec
  snapshots := h'.snapshots.trans h.snapshots
  snapshotPages := h'.snapshotPages.trans h.snapshotPages
  clones := h'.clones.trans h.clones
  cloneDeltaPages := h'.cloneDeltaPages.trans h.cloneDeltaPages
  next_le := h.next_le.trans h'.next_le
  sorted := h'.sorted ∘ h.sorted
  extents extent hext := by
    obtain ⟨extent', hext', hid, hoffset, hlen⟩ := h'.extents extent hext
    obtain ⟨extent'', hext'', hid', hoffset', hlen'⟩ := h.extents extent' hext'
    exact ⟨extent'', hext'', hid.trans hid', hoffset.trans hoffset', hlen.trans hlen'⟩

/-- Only records, counters of pages and the volume change. -/
theorem WriterStep.records {volume : Option VolumeState} {idempotency : List IdempotencyRecord}
    {operations : List MutationOperationRecord}
    {rangeLocalWriteStates : List RangeLocalWriteStateRecord} {lastAppendOnlyRevision : Nat}
    (hm' : m' = { m with
      volume, idempotency, operations, rangeLocalWriteStates, lastAppendOnlyRevision }) :
    WriterStep m m' := by
  subst hm'
  exact ⟨rfl, rfl, rfl, rfl, rfl, le_rfl, id, fun extent hext => ⟨extent, hext, rfl, rfl, rfl⟩⟩

section Effects

variable {req : ApplyCommittedWriteEffectsRequest}

theorem writerStep_persistCommittedAllocationPages
    (h : m.persistCommittedAllocationPages req = .ok m') : WriterStep m m' := by
  refine Result.foldlM_of_forall (WriterStep m) h (.refl m) ?_
  intro page _ m1 m2 hm1 hstep
  obtain ⟨merged, -, hput⟩ := Result.bind_eq_ok.mp hstep
  cases hput
  refine hm1.trans ⟨rfl, rfl, rfl, rfl, rfl, le_rfl, fun hsort => hsort.put merged, ?_⟩
  exact fun extent hext => ⟨extent, hext, rfl, rfl, rfl⟩

theorem writerStep_normalizeCommittedExtentMappings
    (h : m.normalizeCommittedExtentMappings req = .ok m') : WriterStep m m' := by
  refine Result.foldlM_of_forall (WriterStep m) h (.refl m) ?_
  intro extentID _ m1 m2 hm1 hstep
  obtain ⟨mapping, hget, hput⟩ := Result.bind_eq_ok.mp hstep
  cases hput
  refine hm1.trans ⟨rfl, rfl, rfl, rfl, rfl, le_rfl, id, fun extent hext => ?_⟩
  rcases Table.mem_put hext with rfl | hext
  · exact ⟨mapping, Table.mem_of_get? (orNotFound_eq_ok.mp hget), rfl, rfl, rfl⟩
  · exact ⟨extent, hext, rfl, rfl, rfl⟩

theorem AppliesEffects.writerStep {mutation : Option CommittedWriteMutationSnapshot}
    (h : AppliesEffects m req mutation m') : WriterStep m m' := by
  obtain ⟨m1, m2, hpers, hnorm, hfin⟩ := h.steps
  have hrecs := finalizeWriteMutationOperationFromSnapshot_frame hfin
  exact ((writerStep_persistCommittedAllocationPages hpers).trans
    (writerStep_normalizeCommittedExtentMappings hnorm)).trans (.records hrecs)

theorem writerStep_applyCommittedWriteEffects (h : m.applyCommittedWriteEffects req = .ok m') :
    WriterStep m m' := by
  obtain ⟨effects, -, rfl | happ⟩ := applyCommittedWriteEffects_eq_ok h
  · exact .refl _
  · exact happ.writerStep

end Effects

/-! ## Commits -/

theorem CommitTransaction.writerStep {exec : WriteExecution} {alloc : AllocationCommit}
    (h : CommitTransaction exec alloc m m') : WriterStep m m' := by
  cases h with
  | appendOnly _ h =>
    obtain ⟨effects, m0, -, -, hm0, rfl | happ⟩ :=
      commitAppendOnlyWriteStateAndQueueEffects_eq_ok h
    · exact .records hm0
    · exact (WriterStep.records hm0).trans happ.writerStep
  | rangeLocal _ h => exact .records (commitRangeLocalWriteState_frame h)
  | pageScoped _ h =>
    obtain ⟨effects, pages, effects', m1, m2, -, -, hm1, hnorm, hm'⟩ :=
      commitPageScopedWriteMetadata_eq_ok h
    have hput : WriterStep m m1 := by
      rw [hm1]
      exact ⟨rfl, rfl, rfl, rfl, rfl, le_rfl, fun hsort => hsort.putAll pages,
        fun extent hext => ⟨extent, hext, rfl, rfl, rfl⟩⟩
    exact (hput.trans (writerStep_normalizeCommittedExtentMappings hnorm)).trans (.records hm')
  | state _ h =>
    obtain ⟨state, -, -, hm'⟩ := commitWriteState_frame h
    exact .records hm'
  | volumeScoped _ h =>
    obtain ⟨effects, state, record', mutation, -, -, -, happ⟩ := commitWriteMetadata_eq_ok h
    exact (WriterStep.records rfl).trans happ.writerStep
  | effects h => exact writerStep_applyCommittedWriteEffects h

theorem writerStep_commitMetadata (cfg : ExecutorConfig) (now : Nat) (m : Repository)
    (exec : WriteExecution) (alloc : AllocationCommit) :
    WriterStep m (commitMetadata cfg now m exec alloc).2.repository :=
  (commitMetadata_transactions cfg now m exec alloc).induct (.refl m)
    fun _ _ hstep ih => ih.trans hstep.writerStep

theorem writerStep_markFailed (m : Repository) (exec : WriteExecution) (message : String) :
    WriterStep m (markFailed m exec message) := by
  unfold markFailed
  split
  · exact .refl m
  · exact .records rfl

/-! ## Beginning a write -/

theorem writerStep_prepareWritePlanAllocations {plan plan' : List ExtentWritePlan}
    (h : prepareWritePlanAllocations m plan req = .ok (plan', m')) : WriterStep m m' := by
  obtain ⟨next, rfl, hnext⟩ := prepareWritePlanAllocations_same h
  exact ⟨rfl, rfl, rfl, rfl, rfl, hnext, id, fun extent hext => ⟨extent, hext, rfl, rfl, rfl⟩⟩

theorem Begun.writerStep {cfg : ExecutorConfig} {result : BeginWriteResult}
    (h : Begun cfg m req result m') : WriterStep m m' := by
  cases h with
  | replay => exact .refl m
  | noop state plan m' hvol hplan hnoop hrecs =>
    rcases hrecs with rfl | rfl
    · exact .refl _
    · exact .records rfl
  | joined state plan plan' m1 existing hplanned | intent state plan plan' m1 hplanned =>
    exact (writerStep_prepareWritePlanAllocations hplanned.prepared).trans (.records rfl)
  | missing state plan plan' m1 hplanned =>
    exact writerStep_prepareWritePlanAllocations hplanned.prepared

/-! ## Whole calls -/

theorem writerStep_commitMetadataWithRetry (cfg : ExecutorConfig) (now : Nat) (req : WriteRequest)
    (attempts : Nat) (m : Repository) (exec : WriteExecution) (alloc : AllocationCommit) :
    WriterStep m (commitMetadataWithRetry cfg now req attempts m exec alloc).2.repository := by
  induction attempts generalizing m exec alloc with
  | zero => exact .refl m
  | succ attempts ih =>
    have hcommit := writerStep_commitMetadata cfg now m exec alloc
    rw [commitMetadataWithRetry]
    split
    · next outcome heq =>
      rw [heq] at hcommit
      split
      · exact hcommit
      split
      · exact hcommit
      · split
        · exact hcommit
        · exact hcommit.trans (ih _ _ _)
    · exact hcommit

theorem writerStep_finishWrite (cfg : ExecutorConfig) (now : Nat) (c : Cluster)
    (exec : WriteExecution) (req : WriteRequest) :
    WriterStep c.repository (finishWrite cfg now c exec req).2.repository := by
  unfold finishWrite
  split
  · exact writerStep_markFailed _ _ _
  next alloc _ =>
  have hcommit := writerStep_commitMetadataWithRetry cfg now req writeMetadataCommitMaxAttempts
    c.repository exec alloc
  split
  · next heq =>
    rw [heq] at hcommit
    exact hcommit.trans (writerStep_markFailed _ _ _)
  · next heq =>
    rw [heq] at hcommit
    exact hcommit

theorem writerStep_write (cfg : ExecutorConfig) (now : Nat) (faults : StoreFaults) (c : Cluster)
    (req : WriteRequest) : WriterStep c.repository (write cfg now faults c req).2.repository := by
  unfold write
  split
  · exact .refl _
  · next hbegin => exact (begun_of_beginWrite hbegin).writerStep
  · next hbegin => exact (begun_of_beginWrite hbegin).writerStep
  next exec m hbegin =>
  have hbegun := (begun_of_beginWrite hbegin).writerStep
  split
  · exact hbegun.trans (writerStep_markFailed _ _ _)
  · next exec' stores _ =>
    exact hbegun.trans (writerStep_finishWrite cfg now { c with repository := m, stores } exec' req)

end Namrbd
