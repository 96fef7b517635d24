import Namrbd.Verify.CommitEffects

/-!
# The commit modes

Every commit mode checks the epoch and the intent, some check revisions, and
then all of them apply the same effects. For each mode: when its checks pass it
succeeds and leaves a committed state (`IsCommitted`), and when they fail the
commit fails with the error of the check and changes nothing.
-/

namespace Namrbd

open List Repository Result Table

variable {g : Geometry} {m : Repository}

/-! ## Extents of the same layout -/

/-- The mapping was at most normalized: it may have lost its own chunk ids. -/
structure SameExtent (e e' : ExtentMappingRecord) : Prop where
  extentID_eq : e'.extentID = e.extentID
  logicalOffset_eq : e'.logicalOffset = e.logicalOffset
  lengthBytes_eq : e'.lengthBytes = e.lengthBytes
  placementRef_eq : e'.placementRef = e.placementRef
  chunkID_eq : e'.chunkID = e.chunkID ∨ e'.chunkID = 0

theorem SameExtent.refl (e : ExtentMappingRecord) : SameExtent e e := ⟨rfl, rfl, rfl, rfl, .inl rfl⟩

theorem SameExtent.trans {e e' e'' : ExtentMappingRecord} (h : SameExtent e e')
    (h' : SameExtent e' e'') : SameExtent e e'' where
  extentID_eq := h'.extentID_eq.trans h.extentID_eq
  logicalOffset_eq := h'.logicalOffset_eq.trans h.logicalOffset_eq
  lengthBytes_eq := h'.lengthBytes_eq.trans h.lengthBytes_eq
  placementRef_eq := h'.placementRef_eq.trans h.placementRef_eq
  chunkID_eq := by
    rcases h'.chunkID_eq with h1 | h1
    · rw [h1]
      exact h.chunkID_eq
    · exact .inr h1

def SameExtents (es es' : List ExtentMappingRecord) : Prop := List.Forall₂ SameExtent es es'

theorem SameExtents.refl (es : List ExtentMappingRecord) : SameExtents es es :=
  forall₂_same.mpr fun e _ => .refl e

variable {es es' : List ExtentMappingRecord}

section

variable (h : SameExtents es es')

include h

theorem SameExtents.trans {es'' : List ExtentMappingRecord}
    (h' : SameExtents es' es'') : SameExtents es es'' :=
  (forall₂_comp h h').imp fun _ _ ⟨_, h1, h2⟩ => h1.trans h2

theorem SameExtents.tiles {start stop : Nat}
    (htiles : Runs.Tiles (·.logicalOffset) (·.lengthBytes) start es stop) :
    Runs.Tiles (·.logicalOffset) (·.lengthBytes) start es' stop := by
  induction h generalizing start with
  | nil => exact htiles
  | cons hsame _ ih =>
    obtain ⟨hst, hct, hrest⟩ := htiles
    dsimp only at hst hct hrest
    rw [← hsame.lengthBytes_eq] at hct hrest
    exact ⟨hsame.logicalOffset_eq.trans hst, hct, ih hrest⟩

theorem SameExtents.map_extentID : es'.map (·.extentID) = es.map (·.extentID) := by
  induction h with
  | nil => rfl
  | cons hsame _ ih => rw [map_cons, map_cons, hsame.extentID_eq, ih]

theorem SameExtents.sorted (hsort : Sorted (·.extentID) es) :
    Sorted (·.extentID) es' := by
  have hlt : (es.map (·.extentID)).Pairwise (· < ·) := pairwise_map.mpr hsort
  rw [← h.map_extentID] at hlt
  exact pairwise_map.mp hlt

end

theorem Layout.of_sameExtents {size : Nat} (hlay : Layout g size es) (h : SameExtents es es') :
    Layout g size es' where
  tiles := h.tiles hlay.tiles
  start_dvd := by
    intro e' he'
    obtain ⟨e, he, hsame⟩ := exists_of_mem_right h he'
    rw [hsame.logicalOffset_eq]
    exact hlay.start_dvd e he
  length_dvd := by
    intro e' he'
    obtain ⟨e, he, hsame⟩ := exists_of_mem_right h he'
    rw [hsame.lengthBytes_eq]
    exact hlay.length_dvd e he
  sorted := h.sorted hlay.sorted

section Effects

variable {req : ApplyCommittedWriteEffectsRequest}

variable (req) in
theorem normalizeCommittedExtentMappings_ok (hsort : Sorted (·.extentID) m.extents)
    (hids : NamesExtents m req.normalizeExtentMappings) :
    ∃ extents, m.normalizeCommittedExtentMappings req = .ok { m with extents } ∧
      SameExtents m.extents extents := by
  have hloop : ∃ m', m.normalizeCommittedExtentMappings req = .ok m' ∧
      (m' = { m with extents := m'.extents } ∧ SameExtents m.extents m'.extents) := by
    refine foldlM_ok_of_forall (fun (m' : Repository) =>
      m' = { m with extents := m'.extents } ∧ SameExtents m.extents m'.extents)
      ⟨rfl, .refl _⟩ ?_
    rintro id hid m' ⟨hm', hsame⟩
    obtain ⟨e, he, rfl⟩ := hids id hid
    obtain ⟨e', he', hee'⟩ := exists_of_mem_left hsame he
    have hsort' := hsame.sorted hsort
    have hget : get? (·.extentID) e.extentID m'.extents = some e' := by
      rw [← hee'.extentID_eq]
      exact hsort'.get?_of_mem he'
    refine ⟨m'.putExtentMapping { e' with
        chunkID := 0, revision := max e'.revision req.committedRevision }, ?_, ?_, ?_⟩
    · rw [getExtentMapping, hget]
      rfl
    · rw [putExtentMapping, hm']
    refine hsame.trans (hsort'.forall₂_put SameExtent.refl (x := e') ?_ ?_)
    · rw [← hee'.extentID_eq] at hget
      exact hget
    · exact ⟨rfl, rfl, rfl, rfl, .inr rfl⟩
  obtain ⟨m', hrun, hm', hsame⟩ := hloop
  exact ⟨m'.extents, by rw [hrun, ← hm'], hsame⟩

/-- The writer sends its own copy of its running operation. -/
def SendsRunningOperation (req : ApplyCommittedWriteEffectsRequest) : Prop :=
  req.mutationOperationID ≠ "" ∧
    ∃ op, req.mutationOperation = some op ∧ op.operationID = req.mutationOperationID ∧
      op.state = .running ∧ req.expectedMutationState = .running

theorem SendsRunningOperation.snapshot (h : SendsRunningOperation req) :
    ∃ op, op.state = req.expectedMutationState ∧ ∀ m : Repository,
      m.readCommittedWriteMutationSnapshot req = some { operation := op, committed := false } := by
  obtain ⟨hne, op, hop, hid, hstate, hexp⟩ := h
  refine ⟨op, by rw [hstate, hexp], fun m => ?_⟩
  have hmatch : req.matchesCommittedMutationOperation op = false := by
    unfold ApplyCommittedWriteEffectsRequest.matchesCommittedMutationOperation
    rw [hstate]
    rfl
  unfold readCommittedWriteMutationSnapshot committedWriteMutationSnapshotFromRequest
  rw [if_neg hne, hop]
  simp [hid, hmatch, hstate, hexp]

theorem finalize_ok {op : MutationOperationRecord} (hop : op.state = req.expectedMutationState) :
    ∃ operations, m.finalizeWriteMutationOperationFromSnapshot req
      (some { operation := op, committed := false }) = .ok { m with operations } := by
  unfold finalizeWriteMutationOperationFromSnapshot
  split
  · exact ⟨m.operations, rfl⟩
  · simp only [Bool.false_eq_true, if_false, hop, ne_eq, not_true_eq_false]
    exact ⟨_, rfl⟩

end Effects

/-- The effects request carries what a write has prepared. -/
structure IsEffects (m : Repository) (alloc : AllocationCommit)
    (req : ApplyCommittedWriteEffectsRequest) : Prop where
  pages_eq : req.allocationPages = alloc.pages
  ranges_eq : req.affectedPageChunkRanges = alloc.affectedPageChunkRanges
  retired_eq : req.retiredPhysicalChunkIDs = alloc.retiredPhysicalChunkIDs
  names : NamesExtents m req.normalizeExtentMappings
  operation : SendsRunningOperation req

/-- What a commit that merges pages makes of a touched chunk. -/
def mergedEntry (g : Geometry) (m : Repository) (wreq : WriteRequest) (entry : Nat → ChunkEntry)
    (alloc : AllocationCommit) (chunk : Nat) : ChunkEntry :=
  mergeEntry alloc.retiredPhysicalChunkIDs (Repository.nativeEntry g m.pages chunk)
    (writeEntry g wreq entry chunk)

/-- The stored intent or the epoch is not the one the request expects. -/
def Repository.LosesConflict (m : Repository) (req : CommitWriteStateRequest) : Prop :=
  ∃ state record, m.volume = some state ∧
    Table.get? (·.idempotencyKey) req.idempotencyKey m.idempotency = some record ∧
    (state.epoch ≠ req.expectedEpoch ∨ record.resultState ≠ req.expectedIdempotencyState)

/-- The write intents under other keys are left alone. -/
def KeepsOtherIntents (key : String) (m m' : Repository) : Prop :=
  ∀ key', key ≠ key' → Table.get? (·.idempotencyKey) key' m'.idempotency =
    Table.get? (·.idempotencyKey) key' m.idempotency

/-- The metadata after a commit under the key that gave the touched chunks the entries of
`target`. -/
structure IsCommitted (g : Geometry) (m : Repository) (touched : List Nat)
    (target : Nat → ChunkEntry) (key : String) (m' : Repository) : Prop where
  effect : PagesEffect g m touched target m'.pages
  extents : SameExtents m.extents m'.extents
  replicaSets_eq : m'.replicaSets = m.replicaSets
  nodes_eq : m'.nodes = m.nodes
  nextChunkID_eq : m'.nextChunkID = m.nextChunkID
  snapshots_eq : m'.snapshots = m.snapshots
  snapshotPages_eq : m'.snapshotPages = m.snapshotPages
  intents : KeepsOtherIntents key m m'

section Modes

variable {rev : Nat → Nat} {wreq : WriteRequest} {entry : Nat → ChunkEntry} {touched : List Nat}
  {alloc : AllocationCommit} {req : CommitWriteMetadataRequest}
  {effects : ApplyCommittedWriteEffectsRequest} {m' : Repository} {target : Nat → ChunkEntry}

theorem IsEffects.bootstrap (h : IsEffects m alloc effects)
    (halloc : IsAllocationCommit g rev wreq entry touched alloc) :
    ∃ pages ids, m.withLegacyBootstrap effects =
        .ok { effects with allocationPages := pages, normalizeExtentMappings := ids } ∧
      IsBootstrapped g m alloc.pages pages ∧ NamesExtents m ids := by
  rw [← h.pages_eq]
  exact withLegacyBootstrap_ok (h.pages_eq ▸ halloc.wf) (h.pages_eq ▸ halloc.sorted) h.names

theorem IsEffects.congr (h : IsEffects m alloc effects) (hexts : m'.extents = m.extents) :
    IsEffects m' alloc effects :=
  { h with names := by rw [NamesExtents, hexts]; exact h.names }

theorem PagesEffect.congr {stored : List AllocationPageRecord}
    (h : PagesEffect g m' touched target stored) (hpages : m'.pages = m.pages)
    (hexts : m'.extents = m.extents) : PagesEffect g m touched target stored := by
  refine ⟨h.wf, h.ne_nil, h.touched_eq, fun chunk hchunk => ?_⟩
  rw [← liveEntry_congr hpages hexts, ← hpages]
  exact h.untouched chunk hchunk

/-- Effects that are not applied yet can be applied. -/
theorem applyEffects_ok (hwf : m.PagesWF g) (hsort : Sorted (·.extentID) m.extents)
    (halloc : IsAllocationCommit g rev wreq entry touched alloc) {allocationPages ids}
    (hboot : IsBootstrapped g m alloc.pages allocationPages) (hids : NamesExtents m ids)
    (heff : IsEffects m alloc effects) (committedRevision : Nat)
    (m1 : Repository) (hpages : m1.pages = m.pages) (hexts : m1.extents = m.extents) :
    let effects := { effects with
      allocationPages, normalizeExtentMappings := ids, committedRevision }
    ∃ pages extents operations op,
      (∀ m : Repository, m.readCommittedWriteMutationSnapshot effects =
        some { operation := op, committed := false }) ∧
      m1.persistCommittedAllocationPages effects = .ok { m1 with pages } ∧
      { m1 with pages }.normalizeCommittedExtentMappings effects = .ok { m1 with pages, extents } ∧
      { m1 with pages, extents }.finalizeWriteMutationOperationFromSnapshot effects
          (some { operation := op, committed := false }) =
        .ok { m1 with pages, extents, operations } ∧
      PagesEffect g m touched (mergedEntry g m wreq entry alloc) pages ∧
      SameExtents m.extents extents := by
  have hwf1 : m1.PagesWF g := by
    unfold PagesWF
    rw [hpages]
    exact hwf
  have hids1 : NamesExtents m1 ids := by
    unfold NamesExtents
    rw [hexts]
    exact hids
  have hsort1 : Sorted (·.extentID) m1.extents := by rw [hexts]; exact hsort
  intro effects
  have hrun : SendsRunningOperation effects := heff.operation
  obtain ⟨pages, hpers, heffect⟩ := persist_effect hwf1 hsort1 halloc
    (show IsBootstrapped g m1 _ effects.allocationPages from hboot.congr hpages hexts)
    heff.ranges_eq heff.retired_eq hids1
  obtain ⟨extents, hnorm, hsame⟩ := normalizeCommittedExtentMappings_ok
    effects (m := { m1 with pages }) hsort1 hids1
  obtain ⟨op, hop, hsnap⟩ := hrun.snapshot
  obtain ⟨operations, hfinal⟩ := finalize_ok (m := { m1 with pages, extents }) hop
  refine ⟨pages, extents, operations, op, hsnap, hpers, hnorm, hfinal, ?_, ?_⟩
  · have heff := heffect.congr hpages hexts
    rw [hpages] at heff
    exact heff
  · rw [← hexts]
    exact hsame

variable {sreq : CommitWriteStateRequest} {state : VolumeState} {record : IdempotencyRecord}

theorem readAndValidateWriteCommitState_eq_ok {out : VolumeState × IdempotencyRecord} :
    m.readAndValidateWriteCommitState sreq = .ok out ↔
      ∃ state record, m.volume = some state ∧ state.epoch = sreq.expectedEpoch ∧
        state.revision = sreq.expectedRevision ∧
        get? (·.idempotencyKey) sreq.idempotencyKey m.idempotency = some record ∧
        record.resultState = sreq.expectedIdempotencyState ∧
        out = ({ state with revision := sreq.committedRevision },
          { record with revision := sreq.committedRevision, resultState := .committed }) := by
  unfold readAndValidateWriteCommitState getVolumeState getIdempotencyRecord
  constructor
  · intro h
    obtain ⟨state, hstate, h⟩ := bind_eq_ok.mp h
    split at h
    · cases h
    next hcheck =>
    obtain ⟨record, hrec, h⟩ := bind_eq_ok.mp h
    split at h
    · cases h
    next hresult =>
    cases h
    exact ⟨state, record, orNotFound_eq_ok.mp hstate, by tauto, by tauto,
      orNotFound_eq_ok.mp hrec, by tauto, rfl⟩
  · rintro ⟨state, record, hstate, hepoch, hrev, hrec, hresult, rfl⟩
    rw [hstate, hrec]
    simp [hepoch, hrev, hresult]

theorem readAndValidatePageScopedWriteCommitState_eq_ok :
    m.readAndValidatePageScopedWriteCommitState sreq = .ok (state, record) ↔
      m.volume = some state ∧ state.epoch = sreq.expectedEpoch ∧
        get? (·.idempotencyKey) sreq.idempotencyKey m.idempotency = some record ∧
        record.resultState = sreq.expectedIdempotencyState := by
  unfold readAndValidatePageScopedWriteCommitState getVolumeState getIdempotencyRecord
  constructor
  · intro h
    obtain ⟨state', hstate, h⟩ := bind_eq_ok.mp h
    split at h
    · cases h
    next hcheck =>
    obtain ⟨record', hrec, h⟩ := bind_eq_ok.mp h
    split at h
    · cases h
    · next hresult =>
      cases h
      exact ⟨orNotFound_eq_ok.mp hstate, by tauto, orNotFound_eq_ok.mp hrec, by tauto⟩
  · rintro ⟨hstate, hepoch, hrec, hresult⟩
    rw [hstate, hrec]
    simp [hepoch, hresult]

theorem idempotencyKey_of_readAndValidateWriteCommitState
    (h : m.readAndValidateWriteCommitState sreq = .ok (state, record)) :
    record.idempotencyKey = sreq.idempotencyKey := by
  obtain ⟨state0, record0, -, -, -, hget, -, hout⟩ := readAndValidateWriteCommitState_eq_ok.mp h
  have hkey : record0.idempotencyKey = sreq.idempotencyKey := key_of_get? hget
  rw [(Prod.mk.inj hout).2, ← hkey]

theorem keepsOtherIntents_put (m : Repository)
    (h : m'.idempotency = put (·.idempotencyKey) record m.idempotency)
    (hkey : record.idempotencyKey = sreq.idempotencyKey) :
    KeepsOtherIntents sreq.idempotencyKey m m' := by
  intro key hne
  rw [h, get?_put_of_ne (by rw [hkey]; exact hne)]

/-- The batched check is the single one, except that it loses a conflict with a stored
intent. -/
theorem readAndValidateAppendOnlyWriteCommitSnapshot_cases (m : Repository)
    (req : CommitWriteStateRequest) :
    (m.LosesConflict req ∧ m.readAndValidateAppendOnlyWriteCommitSnapshot req = .ok none ∧
        m.readAndValidateAppendOnlyWriteCommitState req = .error .casConflict) ∨
      (¬m.LosesConflict req ∧ m.readAndValidateAppendOnlyWriteCommitSnapshot req =
        some <$> m.readAndValidateAppendOnlyWriteCommitState req) := by
  unfold LosesConflict readAndValidateAppendOnlyWriteCommitSnapshot
    readAndValidateAppendOnlyWriteCommitState getVolumeState
  cases m.volume with
  | none => exact .inr ⟨fun h => (by obtain ⟨_, _, h, -⟩ := h; cases h), rfl⟩
  | some state =>
    cases get? (·.idempotencyKey) req.idempotencyKey m.idempotency with
    | none => exact .inr ⟨fun h => (by obtain ⟨_, _, -, h, -⟩ := h; cases h), rfl⟩
    | some record =>
      by_cases hepoch : state.epoch = req.expectedEpoch <;>
        by_cases hresult : record.resultState = req.expectedIdempotencyState <;>
        simp [hepoch, hresult] <;> rfl

theorem idempotencyKey_of_readAndValidateAppendOnlyWriteCommitState :
    m.readAndValidateAppendOnlyWriteCommitState sreq = .ok (state, record) →
      record.idempotencyKey = sreq.idempotencyKey := by
  intro h
  obtain ⟨state', -, h⟩ := bind_eq_ok.mp h
  split at h
  · next record' hget =>
    obtain ⟨-, h⟩ := throwIf_eq_ok.mp h
    obtain ⟨-, h⟩ := throwIf_eq_ok.mp h
    cases h
    exact key_of_get? hget
  · obtain ⟨-, h⟩ := throwIf_eq_ok.mp h
    obtain ⟨-, h⟩ := throwIf_eq_ok.mp h
    obtain ⟨-, h⟩ := throwIf_eq_ok.mp h
    cases h
    rfl

theorem writeAppendOnlySnapshot_eq (now floor : Nat)
    (snapshot : Option (VolumeState × IdempotencyRecord)) :
    ∃ record idempotency, record.revision = m.nextAppendOnlyWriteRevision now floor ∧
      m.writeAppendOnlySnapshot now floor snapshot =
        (record, { m with lastAppendOnlyRevision := record.revision, idempotency }) := by
  cases snapshot with
  | none => exact ⟨_, m.idempotency, rfl, rfl⟩
  | some snapshot => exact ⟨_, _, rfl, rfl⟩

theorem keepsOtherIntents_writeAppendOnlySnapshot
    {snapshot : Option (VolumeState × IdempotencyRecord)} (now floor : Nat)
    (h : m.readAndValidateAppendOnlyWriteCommitSnapshot sreq = .ok snapshot) :
    KeepsOtherIntents sreq.idempotencyKey m (m.writeAppendOnlySnapshot now floor snapshot).2 := by
  cases snapshot with
  | none => exact fun _ _ => rfl
  | some snapshot =>
    obtain ⟨-, hlost, -⟩ | ⟨-, heq⟩ := readAndValidateAppendOnlyWriteCommitSnapshot_cases m sreq
    · rw [hlost] at h
      cases h
    · rw [heq] at h
      obtain ⟨out, hout, hsome⟩ := map_eq_ok.mp h
      cases hsome
      have hkey := idempotencyKey_of_readAndValidateAppendOnlyWriteCommitState hout
      exact keepsOtherIntents_put m rfl hkey

section

variable (hwf : m.PagesWF g) (hsort : Sorted (·.extentID) m.extents)
  (halloc : IsAllocationCommit g rev wreq entry touched alloc)

include hwf hsort halloc

theorem commitWriteMetadata_ok (heff : IsEffects m alloc req.effectsApplyRequest)
    (hvalid : m.readAndValidateWriteCommitState req.stateCommitRequest = .ok (state, record)) :
    ∃ m', m.commitWriteMetadata req = .ok (record, m') ∧
      IsCommitted g m touched (mergedEntry g m wreq entry alloc)
        req.stateCommitRequest.idempotencyKey m' := by
  obtain ⟨pages, ids, hboot, hpages, hids⟩ := heff.bootstrap halloc
  obtain ⟨pages', extents, operations, op, hsnap, hpers, hnorm, hfinal, heffect, hsame⟩ :=
    applyEffects_ok hwf hsort halloc hpages hids heff _
      (m.persistCommittedWriteState state record) rfl rfl
  refine ⟨{ m.persistCommittedWriteState state record with
    pages := pages', extents, operations }, ?_, ⟨heffect, hsame, rfl, rfl, rfl, rfl, rfl,
      keepsOtherIntents_put m rfl (idempotencyKey_of_readAndValidateWriteCommitState hvalid)⟩⟩
  unfold commitWriteMetadata
  rw [hboot, ok_bind, commitWriteMetadataWithStore, hvalid, ok_bind]
  dsimp only
  rw [hpers, ok_bind, hnorm, ok_bind, finalizeWriteMutationOperation, hsnap, hfinal]
  rfl

theorem commitAppendOnly_ok (heff : IsEffects m alloc req.effectsApplyRequest) (now : Nat)
    {snapshot : Option (VolumeState × IdempotencyRecord)}
    (hvalid : m.readAndValidateAppendOnlyWriteCommitSnapshot req.stateCommitRequest =
      .ok snapshot) :
    ∃ record m', m.commitAppendOnlyWriteStateAndQueueEffects now req = .ok (record, m') ∧
      IsCommitted g m touched (mergedEntry g m wreq entry alloc)
        req.stateCommitRequest.idempotencyKey m' := by
  obtain ⟨pages, ids, hboot, hpages, hids⟩ := heff.bootstrap halloc
  obtain ⟨record, idempotency, -, hwrite⟩ := writeAppendOnlySnapshot_eq (m := m) now
    req.stateCommitRequest.committedRevision snapshot
  have hintents := keepsOtherIntents_writeAppendOnlySnapshot now
    req.stateCommitRequest.committedRevision hvalid
  rw [hwrite] at hintents
  let m1 := { m with lastAppendOnlyRevision := record.revision, idempotency }
  obtain ⟨pages', extents, operations, op, hsnap, hpers, hnorm, hfinal, heffect, hsame⟩ :=
    applyEffects_ok hwf hsort halloc hpages hids heff (if record.revision ≠ 0 then record.revision
      else req.effectsApplyRequest.committedRevision) m1 rfl rfl
  refine ⟨record, { m1 with pages := pages', extents, operations }, ?_,
    ⟨heffect, hsame, rfl, rfl, rfl, rfl, rfl, hintents⟩⟩
  unfold commitAppendOnlyWriteStateAndQueueEffects
  rw [hboot, ok_bind, commitAppendOnlyWriteMetadataBatchWithStore, hvalid, ok_bind]
  rw [hwrite]
  dsimp only
  rw [hsnap]
  simp only [Option.any_some, Bool.false_eq_true, if_false]
  rw [hpers, ok_bind, hnorm, ok_bind, hfinal]
  rfl

/-! ## State first, effects after -/

theorem applyCommittedWriteEffects_ok (heff : IsEffects m alloc effects) (m1 : Repository)
    (hpages1 : m1.pages = m.pages) (hexts1 : m1.extents = m.extents) :
    ∃ pages extents operations,
      m1.applyCommittedWriteEffects effects = .ok { m1 with pages, extents, operations } ∧
      PagesEffect g m touched (mergedEntry g m wreq entry alloc) pages ∧
      SameExtents m.extents extents := by
  obtain ⟨pages, ids, hboot, hpages, hids⟩ := (heff.congr hexts1).bootstrap halloc
  have hids' : NamesExtents m ids := by
    rw [NamesExtents, ← hexts1]
    exact hids
  obtain ⟨pages', extents, operations, op, hsnap, hpers, hnorm, hfinal, heffect, hsame⟩ :=
    applyEffects_ok hwf hsort halloc (hpages.congr hpages1.symm hexts1.symm) hids' heff _
      m1 hpages1 hexts1
  refine ⟨pages', extents, operations, ?_, heffect, hsame⟩
  unfold applyCommittedWriteEffects
  rw [hboot, ok_bind, applyCommittedWriteEffectsWithStore]
  rw [hsnap]
  simp only [Option.any_some, Bool.false_eq_true, if_false]
  rw [hpers, ok_bind, hnorm, ok_bind, hfinal]

end

theorem advanceRangeLocalWriteState_eq (idempotencyKey : String)
    (pages : List AllocationPageRecord) :
    ∃ rangeLocalWriteStates, (m.advanceRangeLocalWriteState idempotencyKey pages).2 =
      { m with rangeLocalWriteStates } := by
  refine foldlRecOn (motive := fun acc : Nat × Repository => ∃ rangeLocalWriteStates,
    acc.2 = { m with rangeLocalWriteStates }) pages _ ⟨m.rangeLocalWriteStates, rfl⟩ ?_
  rintro ⟨n, _⟩ ⟨r, rfl⟩ page -
  exact ⟨_, rfl⟩

theorem commitRangeLocalWriteState_ok (halloc : IsAllocationCommit g rev wreq entry touched alloc)
    (htouch : touched ≠ []) (heff : IsEffects m alloc req.effectsApplyRequest)
    (hvalid : m.readAndValidatePageScopedWriteCommitState req.stateCommitRequest =
      .ok (state, record)) :
    ∃ record' rangeLocalWriteStates, m.commitRangeLocalWriteState req =
        .ok (record', { m with rangeLocalWriteStates }.putIdempotencyRecord record') ∧
      record'.idempotencyKey = record.idempotencyKey := by
  obtain ⟨pages, ids, hboot, hpages, hids⟩ := heff.bootstrap halloc
  have hne : pages ≠ [] := hpages.ne_nil (halloc.pages_ne_nil htouch)
  obtain ⟨states, hstates⟩ :=
    advanceRangeLocalWriteState_eq (m := m) req.stateCommitRequest.idempotencyKey pages
  unfold commitRangeLocalWriteState
  rw [hboot, ok_bind, commitRangeLocalWriteStateWithStore, if_neg hne, hvalid, ok_bind]
  dsimp only
  rw [hstates]
  exact ⟨_, states, rfl, rfl⟩

/-! ## Whole pages -/

/-- A page-scoped commit whose pages are current succeeds. -/
theorem commitPageScoped_ok (hwf : m.PagesWF g) (hsort : Sorted (·.extentID) m.extents)
    (halloc : IsAllocationCommit g rev wreq entry touched alloc) (htouch : touched ≠ [])
    (heff : IsEffects m alloc req.effectsApplyRequest)
    (hrev : ∀ page ∈ alloc.pages, page.revision = m.pageRevision page.pageNo)
    (hentry : ∀ page ∈ alloc.pages, ∀ chunk, g.pageOf chunk = page.pageNo → chunk ∉ touched →
      entry chunk = m.liveEntry g chunk)
    (hvalid : m.readAndValidatePageScopedWriteCommitState req.stateCommitRequest =
      .ok (state, record)) :
    ∃ record' m', m.commitPageScopedWriteMetadata req = .ok (record', m') ∧
      PagesAdvance m m'.pages ∧ IsCommitted g m touched (writeEntry g wreq entry)
        req.stateCommitRequest.idempotencyKey m' := by
  obtain ⟨pages, ids, hboot, hpages, hids⟩ := heff.bootstrap halloc
  have hne : pages ≠ [] := hpages.ne_nil (halloc.pages_ne_nil htouch)
  have hpageWF : ∀ page ∈ pages, page.WF g := hpages.forall_wf halloc.wf
  have hunmoved : ∀ page ∈ pages, page.revision = m.pageRevision page.pageNo := by
    intro page hpage
    rcases hpages.added page hpage with hown | ⟨-, hlive, -⟩
    · exact hrev page hown
    · exact hlive.revision_eq
  have hprep := preparePageScopedCommittedAllocationPages_eq hwf hpageWF
  rw [if_pos hunmoved] at hprep
  let maxRevision := ((pages.map bumpRevision).map (·.revision)).foldl max 0
  let committedRevision :=
    if maxRevision = 0 then req.stateCommitRequest.committedRevision else maxRevision
  let record' : IdempotencyRecord :=
    { record with revision := committedRevision, resultState := .committed }
  let effects : ApplyCommittedWriteEffectsRequest := { req.effectsApplyRequest with
    normalizeExtentMappings := ids
    committedRevision := committedRevision
    allocationPages := pages.map bumpRevision }
  let m1 := { m.putIdempotencyRecord record' with
    pages := putAll (·.pageNo) (pages.map bumpRevision) m.pages }
  obtain ⟨extents, hnorm, hsame⟩ := normalizeCommittedExtentMappings_ok effects (m := m1) hsort hids
  have hrun : SendsRunningOperation effects := heff.operation
  obtain ⟨op, hop, hsnap⟩ := hrun.snapshot
  obtain ⟨operations, hfinal⟩ := finalize_ok (m := { m1 with extents }) hop
  obtain ⟨-, -, hget, -⟩ := readAndValidatePageScopedWriteCommitState_eq_ok.mp hvalid
  have hkey : record.idempotencyKey = req.stateCommitRequest.idempotencyKey := key_of_get? hget
  refine ⟨record', { m1 with extents, operations }, ?_,
    pagesAdvance_bumpRevision hpages.sorted hunmoved,
    ⟨replace_effect hwf halloc hpages hentry, hsame, rfl, rfl, rfl, rfl, rfl,
      keepsOtherIntents_put m rfl hkey⟩⟩
  unfold commitPageScopedWriteMetadata
  rw [hboot, ok_bind, commitPageScopedWriteMetadataWithStore, if_neg hne, hvalid, ok_bind]
  dsimp only
  rw [hprep, ok_bind]
  show (do
    let m ← m1.normalizeCommittedExtentMappings effects
    let m ← m.finalizeWriteMutationOperation effects
    return (record', m)) = _
  rw [hnorm, ok_bind, finalizeWriteMutationOperation, hsnap, hfinal]
  rfl

theorem IsCommitted.congr_target {target' : Nat → ChunkEntry}
    (h : IsCommitted g m touched target sreq.idempotencyKey m')
    (heq : ∀ chunk ∈ touched, target' chunk = target chunk) :
    IsCommitted g m touched target' sreq.idempotencyKey m' :=
  { h with effect := ⟨h.effect.wf, h.effect.ne_nil, fun chunk hchunk =>
      (h.effect.touched_eq chunk hchunk).trans (heq chunk hchunk).symm, h.effect.untouched⟩ }

theorem commitRequest_eq_ok {exec : WriteExecution} (h : commitRequest m exec alloc = .ok req) :
    req.stateCommitRequest.idempotencyKey = exec.idempotencyKey ∧
      req.stateCommitRequest.committedRevision = req.stateCommitRequest.expectedRevision + 1 ∧
      ∃ revision, req.effectsApplyRequest =
        effectsRequest exec alloc revision exec.mutationOperation := by
  obtain ⟨⟨epoch, revision⟩, -, h⟩ := bind_eq_ok.mp h
  cases h
  exact ⟨rfl, rfl, _, rfl⟩

end Modes

end Namrbd
