import Namrbd.Metadata.CommitBatch
import Namrbd.Verify.CommitModes

/-!
# What a commit goes through and what it leaves alone

For every commit mode, and for any request, what a successful commit went through
(`_eq_ok`) and the fields of the repository it may change (`_frame`). Nothing is
asked of the pages or of the request.
-/

namespace Namrbd

open Repository Result Table

variable {m m' : Repository} {req : ApplyCommittedWriteEffectsRequest}

/-! ## The parts of the effects half -/

theorem persistCommittedAllocationPages_frame
    (h : m.persistCommittedAllocationPages req = .ok m') : m' = { m with pages := m'.pages } := by
  refine foldlM_of_forall (fun b => b = { m with pages := b.pages }) h rfl ?_
  intro page _ b b' hb hstep
  obtain ⟨merged, -, hput⟩ := bind_eq_ok.mp hstep
  cases hput
  rw [hb]
  rfl

theorem normalizeCommittedExtentMappings_frame
    (h : m.normalizeCommittedExtentMappings req = .ok m') :
    m' = { m with extents := m'.extents } := by
  refine foldlM_of_forall (fun b => b = { m with extents := b.extents }) h rfl ?_
  intro extentID _ b b' hb hstep
  obtain ⟨mapping, -, hput⟩ := bind_eq_ok.mp hstep
  cases hput
  rw [hb]
  rfl

variable {mutation : Option CommittedWriteMutationSnapshot}

theorem finalizeWriteMutationOperationFromSnapshot_frame
    (h : m.finalizeWriteMutationOperationFromSnapshot req mutation = .ok m') :
    m' = { m with operations := m'.operations } := by
  unfold finalizeWriteMutationOperationFromSnapshot at h
  split at h
  · cases h
    rfl
  split at h
  · cases h
  split at h
  · cases h
    rfl
  split at h
  · cases h
  · cases h
    rfl

/-- The effects half went through: pages, extent mappings, operation. -/
structure AppliesEffects (m : Repository) (req : ApplyCommittedWriteEffectsRequest)
    (mutation : Option CommittedWriteMutationSnapshot) (m' : Repository) : Prop where
  steps : ∃ m₁ m₂, m.persistCommittedAllocationPages req = .ok m₁ ∧
    m₁.normalizeCommittedExtentMappings req = .ok m₂ ∧
      m₂.finalizeWriteMutationOperationFromSnapshot req mutation = .ok m'

theorem AppliesEffects.frame (h : AppliesEffects m req mutation m') :
    m' = { m with pages := m'.pages, extents := m'.extents, operations := m'.operations } := by
  obtain ⟨m₁, m₂, hpers, hnorm, hfin⟩ := h.steps
  rw [finalizeWriteMutationOperationFromSnapshot_frame hfin,
    normalizeCommittedExtentMappings_frame hnorm,
    persistCommittedAllocationPages_frame hpers]

theorem AppliesEffects.pages (h : AppliesEffects m req mutation m') :
    ∃ m₁, m.persistCommittedAllocationPages req = .ok m₁ ∧ m'.pages = m₁.pages := by
  obtain ⟨m₁, m₂, hpers, hnorm, hfin⟩ := h.steps
  refine ⟨m₁, hpers, ?_⟩
  rw [finalizeWriteMutationOperationFromSnapshot_frame hfin,
    normalizeCommittedExtentMappings_frame hnorm]

theorem applyCommittedWriteEffects_eq_ok (h : m.applyCommittedWriteEffects req = .ok m') :
    ∃ effects, m.withLegacyBootstrap req = .ok effects ∧
      (m' = m ∨ AppliesEffects m effects (m.readCommittedWriteMutationSnapshot effects) m') := by
  obtain ⟨effects, hboot, h⟩ := bind_eq_ok.mp h
  refine ⟨effects, hboot, ?_⟩
  unfold applyCommittedWriteEffectsWithStore at h
  dsimp only at h
  split at h
  · cases h
    exact .inl rfl
  · obtain ⟨m₁, hpers, h⟩ := bind_eq_ok.mp h
    obtain ⟨m₂, hnorm, hfin⟩ := bind_eq_ok.mp h
    exact .inr ⟨m₁, m₂, hpers, hnorm, hfin⟩

section Modes

variable {creq : CommitWriteMetadataRequest} {effects : ApplyCommittedWriteEffectsRequest}
  {record : IdempotencyRecord}

theorem commitWriteMetadataWithStore_eq_ok
    (h : m.commitWriteMetadataWithStore creq effects = .ok (record, m')) :
    ∃ state record', ∃ m0 : Repository, m.volume = some state ∧
      state.revision = creq.stateCommitRequest.expectedRevision ∧
      AppliesEffects (m.persistCommittedWriteState
        { state with revision := creq.stateCommitRequest.committedRevision } record')
        effects (m0.readCommittedWriteMutationSnapshot effects) m' := by
  obtain ⟨out, hread, h⟩ := bind_eq_ok.mp h
  obtain ⟨state, record', hvol, -, hrev, -, -, rfl⟩ :=
    readAndValidateWriteCommitState_eq_ok.mp hread
  obtain ⟨m₁, hpers, h⟩ := bind_eq_ok.mp h
  obtain ⟨m₂, hnorm, h⟩ := bind_eq_ok.mp h
  obtain ⟨m3, hfin, h⟩ := bind_eq_ok.mp h
  cases h
  exact ⟨state, _, m₂, hvol, hrev, m₁, m₂, hpers, hnorm, hfin⟩

theorem commitWriteMetadata_eq_ok (h : m.commitWriteMetadata creq = .ok (record, m')) :
    ∃ effects state record', ∃ m0 : Repository,
      m.withLegacyBootstrap creq.effectsApplyRequest = .ok effects ∧ m.volume = some state ∧
      state.revision = creq.stateCommitRequest.expectedRevision ∧
      AppliesEffects (m.persistCommittedWriteState
        { state with revision := creq.stateCommitRequest.committedRevision } record')
        effects (m0.readCommittedWriteMutationSnapshot effects) m' := by
  obtain ⟨effects, hboot, h⟩ := bind_eq_ok.mp h
  obtain ⟨state, record', m0, h⟩ := commitWriteMetadataWithStore_eq_ok h
  exact ⟨effects, state, record', m0, hboot, h⟩

theorem commitWriteState_frame {sreq : CommitWriteStateRequest}
    (h : m.commitWriteState sreq = .ok (record, m')) :
    ∃ state, m.volume = some state ∧ state.revision = sreq.expectedRevision ∧
      m' = { m with
        volume := some { state with revision := sreq.committedRevision }
        idempotency := m'.idempotency } := by
  obtain ⟨out, hread, h⟩ := bind_eq_ok.mp h
  obtain ⟨state, record', hvol, -, hrev, -, -, rfl⟩ :=
    readAndValidateWriteCommitState_eq_ok.mp hread
  cases h
  exact ⟨state, hvol, hrev, rfl⟩

theorem commitPageScopedWriteMetadataWithStore_eq_ok
    (h : m.commitPageScopedWriteMetadataWithStore creq effects = .ok (record, m')) :
    ∃ pages effects', ∃ m₁ m₂ : Repository,
      m.preparePageScopedCommittedAllocationPages effects.allocationPages = .ok pages ∧
      m₁ = { m with
        pages := Table.putAll (·.pageNo) pages m.pages, idempotency := m₁.idempotency } ∧
      m₁.normalizeCommittedExtentMappings effects' = .ok m₂ ∧
      m' = { m₂ with operations := m'.operations } := by
  unfold commitPageScopedWriteMetadataWithStore at h
  split at h
  · cases h
  obtain ⟨out, -, h⟩ := bind_eq_ok.mp h
  obtain ⟨pages, hpages, h⟩ := bind_eq_ok.mp h
  obtain ⟨m₂, hnorm, h⟩ := bind_eq_ok.mp h
  obtain ⟨m3, hfin, h⟩ := bind_eq_ok.mp h
  cases h
  exact ⟨pages, _, _, m₂, hpages, rfl, hnorm,
    finalizeWriteMutationOperationFromSnapshot_frame hfin⟩

theorem commitPageScopedWriteMetadata_eq_ok
    (h : m.commitPageScopedWriteMetadata creq = .ok (record, m')) :
    ∃ effects pages effects', ∃ m₁ m₂ : Repository,
      m.withLegacyBootstrap creq.effectsApplyRequest = .ok effects ∧
      m.preparePageScopedCommittedAllocationPages effects.allocationPages = .ok pages ∧
      m₁ = { m with
        pages := Table.putAll (·.pageNo) pages m.pages, idempotency := m₁.idempotency } ∧
      m₁.normalizeCommittedExtentMappings effects' = .ok m₂ ∧
      m' = { m₂ with operations := m'.operations } := by
  obtain ⟨effects, hboot, h⟩ := bind_eq_ok.mp h
  obtain ⟨pages, effects', m₁, m₂, h⟩ := commitPageScopedWriteMetadataWithStore_eq_ok h
  exact ⟨effects, pages, effects', m₁, m₂, hboot, h⟩

theorem commitRangeLocalWriteStateWithStore_frame
    (h : m.commitRangeLocalWriteStateWithStore creq effects = .ok (record, m')) :
    m' = { m with
      idempotency := m'.idempotency, rangeLocalWriteStates := m'.rangeLocalWriteStates } := by
  unfold commitRangeLocalWriteStateWithStore at h
  by_cases hpages : effects.allocationPages = []
  · rw [if_pos hpages] at h
    cases h
  rw [if_neg hpages] at h
  obtain ⟨⟨state, record'⟩, -, h⟩ := bind_eq_ok.mp h
  obtain ⟨states, hframe⟩ := advanceRangeLocalWriteState_eq (m := m)
    creq.stateCommitRequest.idempotencyKey effects.allocationPages
  generalize m.advanceRangeLocalWriteState creq.stateCommitRequest.idempotencyKey
    effects.allocationPages = advanced at h hframe
  cases h
  rw [hframe]
  rfl

theorem commitRangeLocalWriteState_frame
    (h : m.commitRangeLocalWriteState creq = .ok (record, m')) :
    m' = { m with
      idempotency := m'.idempotency, rangeLocalWriteStates := m'.rangeLocalWriteStates } := by
  obtain ⟨effects, -, h⟩ := bind_eq_ok.mp h
  exact commitRangeLocalWriteStateWithStore_frame h

theorem commitAppendOnlyWriteMetadataBatchWithStore_eq_ok {now : Nat}
    (h : m.commitAppendOnlyWriteMetadataBatchWithStore now creq effects = .ok (record, m')) :
    ∃ m0 : Repository, record.revision =
        m.nextAppendOnlyWriteRevision now creq.stateCommitRequest.committedRevision ∧
      m0 = { m with lastAppendOnlyRevision := record.revision, idempotency := m0.idempotency } ∧
      let effects' := { effects with
        committedRevision := if record.revision ≠ 0 then record.revision
          else effects.committedRevision }
      (m' = m0 ∨ AppliesEffects m0 effects' (m0.readCommittedWriteMutationSnapshot effects') m') := by
  obtain ⟨snapshot, -, h⟩ := bind_eq_ok.mp h
  obtain ⟨record', idempotency, hrevision, heq⟩ := writeAppendOnlySnapshot_eq (m := m) now
    creq.stateCommitRequest.committedRevision snapshot
  rw [heq] at h
  -- the effects may be applied already
  obtain ⟨-, h⟩ | ⟨-, h⟩ := ite_eq_iff.mp h
  · cases h
    exact ⟨_, hrevision, rfl, .inl rfl⟩
  obtain ⟨m₁, hpers, h⟩ := bind_eq_ok.mp h
  obtain ⟨m₂, hnorm, h⟩ := bind_eq_ok.mp h
  obtain ⟨m3, hfin, h⟩ := bind_eq_ok.mp h
  cases h
  exact ⟨_, hrevision, rfl, .inr ⟨m₁, m₂, hpers, hnorm, hfin⟩⟩

theorem commitAppendOnlyWriteStateAndQueueEffects_eq_ok {now : Nat}
    (h : m.commitAppendOnlyWriteStateAndQueueEffects now creq = .ok (record, m')) :
    ∃ effects, ∃ m0 : Repository, m.withLegacyBootstrap creq.effectsApplyRequest = .ok effects ∧
      record.revision =
        m.nextAppendOnlyWriteRevision now creq.stateCommitRequest.committedRevision ∧
      m0 = { m with lastAppendOnlyRevision := record.revision, idempotency := m0.idempotency } ∧
      let effects' := { effects with
        committedRevision := if record.revision ≠ 0 then record.revision
          else effects.committedRevision }
      (m' = m0 ∨ AppliesEffects m0 effects' (m0.readCommittedWriteMutationSnapshot effects') m') := by
  obtain ⟨effects, hboot, h⟩ := bind_eq_ok.mp h
  obtain ⟨m0, h⟩ := commitAppendOnlyWriteMetadataBatchWithStore_eq_ok h
  exact ⟨effects, m0, hboot, h⟩

end Modes

/-! ## The state halves of a batch -/

section Batch

variable {volumes volumes' : String → Repository}
  {reqs : List (Nat × String × CommitWriteStateRequest)}

/-- The volume is missing, or the intent is and cannot be made up. -/
def Repository.RefusesMissing (m : Repository) (req : CommitWriteStateRequest) : Prop :=
  ∀ state ∈ m.volume, Table.get? (·.idempotencyKey) req.idempotencyKey m.idempotency = none ∧
    (req.allowMissingWriteIntent = false ∨ req.expectedIdempotencyState ≠ .pending ∨
      state.epoch ≠ req.expectedEpoch)

/-- Checking in turn is checking every request in the store at the start: the check of a
request does not see the commit of another key. -/
theorem inTurn_eq_mapM (hkeys : (reqs.map fun r => (r.2.1, r.2.2.idempotencyKey)).Nodup)
    (heq : ∀ r ∈ reqs, (volumes' r.2.1).readAndValidateAppendOnlyWriteCommitState r.2.2 =
      (volumes r.2.1).readAndValidateAppendOnlyWriteCommitState r.2.2) :
    (·.1) <$> commitAppendOnlyWriteStatesInTurn volumes' reqs = reqs.mapM fun r =>
      (volumes r.2.1).readAndValidateAppendOnlyWriteCommitState r.2.2 := by
  -- `volumes'` are the volumes after the requests before these
  induction reqs generalizing volumes' with
  | nil => rfl
  | cons r reqs ih =>
    obtain ⟨now, volumeID, req⟩ := r
    obtain ⟨hfresh, hkeys⟩ := List.nodup_cons.mp hkeys
    obtain ⟨heq0, heq⟩ := List.forall_mem_cons.mp heq
    rw [List.mapM_cons, commitAppendOnlyWriteStatesInTurn, mapAccumM]
    dsimp only at heq0 ⊢
    rw [← heq0, commitAppendOnlyWriteState]
    cases hcheck : (volumes' volumeID).readAndValidateAppendOnlyWriteCommitState req with
    | error err => rfl
    | ok checked =>
      have hkey := idempotencyKey_of_readAndValidateAppendOnlyWriteCommitState hcheck
      have hrest := @ih (Function.update volumes' volumeID ((volumes' volumeID).writeAppendOnlyRecord
        now req.committedRevision checked.2).2) hkeys ?_
      · rw [← hrest, commitAppendOnlyWriteStatesInTurn]
        simp only [ok_bind, pure_bind]
        cases mapAccumM _ _ reqs <;> rfl
      rintro ⟨now', volumeID', req'⟩ hr
      refine Eq.trans ?_ (heq _ hr)
      by_cases hvol : volumeID' = volumeID
      · subst hvol
        rw [Function.update_self]
        unfold readAndValidateAppendOnlyWriteCommitState writeAppendOnlyRecord putIdempotencyRecord
        rw [get?_put_of_ne fun hkey' => ?_]
        · rfl
        exact hfresh (List.mem_map.mpr ⟨_, hr, by rw [← hkey', hkey]⟩)
      · rw [Function.update_of_ne hvol]

theorem refusesMissing_iff (m : Repository) (req : CommitWriteStateRequest) :
    m.RefusesMissing req ↔
      ∀ out, m.readAndValidateAppendOnlyWriteCommitSnapshot req ≠ .ok out := by
  unfold RefusesMissing readAndValidateAppendOnlyWriteCommitSnapshot
    readAndValidateAppendOnlyWriteCommitState getVolumeState
  cases m.volume with
  | none => exact ⟨fun _ out h => (by cases h), fun _ state h => (by cases h)⟩
  | some state =>
    cases get? (·.idempotencyKey) req.idempotencyKey m.idempotency with
    | none =>
      by_cases hallow : req.allowMissingWriteIntent = true <;>
        by_cases hpending : req.expectedIdempotencyState = .pending <;>
        by_cases hepoch : state.epoch = req.expectedEpoch <;>
        simp [hallow, hpending, hepoch, Functor.map, Except.map, bind, Except.bind, throw,
          throwThe, MonadExceptOf.throw]
    | some record =>
      by_cases h : state.epoch ≠ req.expectedEpoch ∨
        record.resultState ≠ req.expectedIdempotencyState <;> simp [h]

/-- The check of a batch accepts what checking and committing request after request accepts,
with the same states and records, except for a batch with a request whose stored intent
conflicts and none that is refused for what is missing. -/
theorem readAndValidateAppendOnlyWriteCommitStatesBatch_iff (batchReader : Bool)
    (hkeys : (reqs.map fun r => (r.2.1, r.2.2.idempotencyKey)).Nodup) :
    (readAndValidateAppendOnlyWriteCommitStatesBatch batchReader volumes
        (reqs.map (·.2))).toOption =
        (commitAppendOnlyWriteStatesInTurn volumes reqs).toOption.map (·.1.map some) ↔
      (batchReader = true → (∃ r ∈ reqs, (volumes r.2.1).LosesConflict r.2.2) →
        ∃ r ∈ reqs, (volumes r.2.1).RefusesMissing r.2.2) := by
  let single := fun r : Nat × String × CommitWriteStateRequest =>
    (volumes r.2.1).readAndValidateAppendOnlyWriteCommitState r.2.2
  have hturn : (commitAppendOnlyWriteStatesInTurn volumes reqs).toOption.map (·.1.map some) =
      (reqs.mapM single).toOption.map (·.map some) := by
    rw [← inTurn_eq_mapM hkeys fun _ _ => rfl]
    cases commitAppendOnlyWriteStatesInTurn volumes reqs <;> rfl
  rw [hturn, readAndValidateAppendOnlyWriteCommitStatesBatch, List.mapM_map]
  cases batchReader with
  | false => exact iff_of_true (toOption_mapM_some fun _ _ => rfl) (by simp)
  | true =>
    simp only [refusesMissing_iff, forall_const]
    refine toOption_mapM_eq_iff fun r _ => ?_
    obtain ⟨hlost, hok, herr⟩ | ⟨hlost, heq⟩ :=
      readAndValidateAppendOnlyWriteCommitSnapshot_cases (volumes r.2.1) r.2.2
    · exact .inl ⟨hlost, ⟨_, hok⟩, _, herr⟩
    · exact .inr ⟨hlost, heq⟩

def pendingIntent : IdempotencyRecord :=
  { idempotencyKey := "k", attachmentID := "a", generation := 1, epoch := 2, revision := 1
    operation := "write", resultState := .pending }

def intentVolume : Repository :=
  { volume := some { epoch := 2, revision := 1 }, idempotency := [pendingIntent] }

def commitPendingIntent (expectedEpoch : Nat) : CommitWriteStateRequest :=
  { expectedEpoch, expectedRevision := 1, idempotencyKey := "k"
    expectedIdempotencyState := .pending, committedRevision := 2, attachmentID := "a"
    generation := 1, allowMissingWriteIntent := false }

/-- A missing volume refuses the batch of three; the first request alone passes. -/
theorem readAndValidateBatch_two_volumes :
    let volumes := fun volumeID => if volumeID = "w" then {} else intentVolume
    let reqs := [(5, "u", commitPendingIntent 2), (6, "v", commitPendingIntent 1),
      (7, "w", commitPendingIntent 2)]
    (readAndValidateAppendOnlyWriteCommitStatesBatch true volumes (reqs.map (·.2))).toOption =
        (commitAppendOnlyWriteStatesInTurn volumes reqs).toOption.map (·.1.map some) ∧
      (readAndValidateAppendOnlyWriteCommitStatesBatch true volumes
          ((reqs.take 1).map (·.2))).toOption =
        (commitAppendOnlyWriteStatesInTurn volumes (reqs.take 1)).toOption.map (·.1.map some) ∧
      (commitAppendOnlyWriteStatesInTurn volumes (reqs.take 1)).toOption.isSome := by
  intro volumes reqs
  refine ⟨(readAndValidateAppendOnlyWriteCommitStatesBatch_iff true (by decide)).mpr
      fun _ _ => ⟨(7, "w", commitPendingIntent 2), by simp [reqs], fun state h => by cases h⟩,
    (readAndValidateAppendOnlyWriteCommitStatesBatch_iff true (by decide)).mpr fun _ hlost => ?_,
    rfl⟩
  obtain ⟨r, hr, state, record, hvolume, hget, hne⟩ := hlost
  obtain rfl := List.mem_singleton.mp hr
  cases hvolume
  cases hget
  exact absurd hne (by decide)

/-- A stale epoch passes the check of a batch, with empty records. -/
theorem readAndValidateBatch_loses_conflict :
    readAndValidateAppendOnlyWriteCommitStatesBatch true (fun _ => intentVolume)
        [("v", commitPendingIntent 1)] = .ok [none] ∧
      intentVolume.readAndValidateAppendOnlyWriteCommitState (commitPendingIntent 1) =
        .error .casConflict :=
  ⟨rfl, rfl⟩

end Batch

end Namrbd
