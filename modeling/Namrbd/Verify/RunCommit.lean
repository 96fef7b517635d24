import Namrbd.Verify.CommitModes

/-!
# Committing in the selected mode

`Admits` is the check of the commit mode that the configuration selects. A commit
that is admitted leaves a committed state, and one that is not changes nothing:
with effects applied at once there is nothing in between.
-/

namespace Namrbd

open Repository Result Table

def Admits (cfg : ExecutorConfig) (m : Repository) (req : CommitWriteMetadataRequest) : Prop :=
  let pages := req.effectsApplyRequest.allocationPages
  if cfg.useAppendOnlyServiceWriteEffects pages then
    ∃ out, m.readAndValidateAppendOnlyWriteCommitSnapshot req.stateCommitRequest = .ok out
  else if cfg.useRangeLocalWriteState pages then
    ∃ out, m.readAndValidatePageScopedWriteCommitState req.stateCommitRequest = .ok out
  else if cfg.usePageScopedWriteMetadata pages then
    (∃ out, m.readAndValidatePageScopedWriteCommitState req.stateCommitRequest = .ok out) ∧
      ∀ page ∈ pages, page.revision = m.pageRevision page.pageNo
  else ∃ out, m.readAndValidateWriteCommitState req.stateCommitRequest = .ok out

def ExecutorConfig.ReplacesPages (cfg : ExecutorConfig) (pages : List AllocationPageRecord) :
    Prop :=
  cfg.useAppendOnlyServiceWriteEffects pages = false ∧
    cfg.useRangeLocalWriteState pages = false ∧ cfg.usePageScopedWriteMetadata pages = true

/-- The metadata after a commit request was admitted. -/
structure IsRunCommitted (g : Geometry) (cfg : ExecutorConfig) (m : Repository)
    (req : CommitWriteMetadataRequest) (touched : List Nat) (target : Nat → ChunkEntry)
    (m' : Repository) : Prop
    extends IsCommitted g m touched target req.stateCommitRequest.idempotencyKey m' where
  advance : cfg.ReplacesPages req.effectsApplyRequest.allocationPages → PagesAdvance m m'.pages

section Run

variable {g : Geometry} {m : Repository} {rev : Nat → Nat} {wreq : WriteRequest}
  {entry : Nat → ChunkEntry} {touched : List Nat} {alloc : AllocationCommit}
  {req : CommitWriteMetadataRequest} {cfg : ExecutorConfig}

theorem applyEffectsAfter_ok (hasync : cfg.asyncWriteEffects = false)
    (hwf : m.PagesWF g) (hsort : Sorted (·.extentID) m.extents)
    (halloc : IsAllocationCommit g rev wreq entry touched alloc)
    (heff : IsEffects m alloc req.effectsApplyRequest) (record : IdempotencyRecord)
    (m1 : Repository) (hpages : m1.pages = m.pages) (hexts : m1.extents = m.extents) :
    ∃ pages extents operations, applyEffectsAfter cfg req m (.ok (record, m1)) =
        (.ok record, { repository := { m1 with pages, extents, operations } }) ∧
      PagesEffect g m touched (mergedEntry g m wreq entry alloc) pages ∧
      SameExtents m.extents extents := by
  have heff1 : IsEffects m alloc { req.effectsApplyRequest with
      committedRevision := if record.revision ≠ 0 then record.revision
        else req.stateCommitRequest.committedRevision } := { heff with }
  obtain ⟨pages, extents, operations, happly, heffect, hsame⟩ :=
    applyCommittedWriteEffects_ok hwf hsort halloc heff1 m1 hpages hexts
  refine ⟨pages, extents, operations, ?_, heffect, hsame⟩
  unfold applyEffectsAfter
  simp only [hasync, Bool.false_eq_true, if_false, happly]

/-- An admitted commit gives the touched chunks the entries of the write. Where whole pages
are replaced, the chunks beside the touched ones have to be the live ones. -/
theorem runCommit_of_admits (hasync : cfg.asyncWriteEffects = false) (now : Nat) (hwf : m.PagesWF g)
    (hsort : Sorted (·.extentID) m.extents)
    (halloc : IsAllocationCommit g rev wreq entry touched alloc) (htouch : touched ≠ [])
    (heff : IsEffects m alloc req.effectsApplyRequest) (hadm : Admits cfg m req)
    (hentry : cfg.ReplacesPages req.effectsApplyRequest.allocationPages →
      (∀ page ∈ alloc.pages, page.revision = m.pageRevision page.pageNo) →
      ∀ page ∈ alloc.pages, ∀ chunk, g.pageOf chunk = page.pageNo → chunk ∉ touched →
        entry chunk = m.liveEntry g chunk) {target : Nat → ChunkEntry}
    (hwrit : ∀ chunk ∈ touched, target chunk = writeEntry g wreq entry chunk)
    (hmerged : ¬cfg.ReplacesPages req.effectsApplyRequest.allocationPages →
      ∀ chunk ∈ touched, target chunk = mergedEntry g m wreq entry alloc chunk) :
    ∃ record m', runCommit cfg now m req = (.ok record, { repository := m' }) ∧
      IsRunCommitted g cfg m req touched target m' := by
  unfold Admits at hadm
  unfold runCommit
  dsimp only at hadm ⊢
  split
  · -- append-only
    next hao =>
    rw [if_pos hao] at hadm
    obtain ⟨snapshot, hvalid⟩ := hadm
    obtain ⟨record, m', hcommit, hcomm⟩ := commitAppendOnly_ok hwf hsort halloc heff now hvalid
    have hother : ¬cfg.ReplacesPages req.effectsApplyRequest.allocationPages :=
      fun h => by rw [h.1] at hao; cases hao
    rw [hcommit]
    exact ⟨record, m', rfl, hcomm.congr_target (hmerged hother), fun h => absurd h hother⟩
  · next hao =>
    rw [if_neg hao] at hadm
    split
    · -- range-local
      next hrl =>
      rw [if_pos hrl] at hadm
      obtain ⟨⟨state, record⟩, hvalid⟩ := hadm
      obtain ⟨-, -, hget, -⟩ := readAndValidatePageScopedWriteCommitState_eq_ok.mp hvalid
      obtain ⟨record', states, hcommit, hkey⟩ :=
        commitRangeLocalWriteState_ok halloc htouch heff hvalid
      rw [hcommit]
      obtain ⟨pages, extents, operations, hrun, heffect, hsame⟩ := applyEffectsAfter_ok hasync hwf
        hsort halloc heff record'
        ({ m with rangeLocalWriteStates := states }.putIdempotencyRecord record') rfl rfl
      have hother : ¬cfg.ReplacesPages req.effectsApplyRequest.allocationPages :=
        fun h => by rw [h.2.1] at hrl; cases hrl
      exact ⟨record', _, hrun, .congr_target ⟨heffect, hsame, rfl, rfl, rfl, rfl, rfl,
        keepsOtherIntents_put m rfl (hkey.trans (key_of_get? hget))⟩ (hmerged hother),
        fun h => absurd h hother⟩
    · next hrl =>
      rw [if_neg hrl] at hadm
      split
      · -- page-scoped
        next hps =>
        rw [if_pos hps] at hadm
        obtain ⟨⟨⟨state, record⟩, hvalid⟩, hrev⟩ := hadm
        rw [heff.pages_eq] at hrev
        have hreplaces : cfg.ReplacesPages req.effectsApplyRequest.allocationPages :=
          ⟨by simpa using hao, by simpa using hrl, hps⟩
        obtain ⟨record', m', hcommit, hadv, hcomm⟩ := commitPageScoped_ok hwf
          hsort halloc htouch heff hrev (hentry hreplaces hrev) hvalid
        rw [hcommit]
        exact ⟨record', m', rfl, hcomm.congr_target hwrit, fun _ => hadv⟩
      · next hps =>
        rw [if_neg hps] at hadm
        obtain ⟨⟨state, record⟩, hvalid⟩ := hadm
        have hother : ¬ cfg.ReplacesPages req.effectsApplyRequest.allocationPages :=
          fun h => hps h.2.2
        have hkey := idempotencyKey_of_readAndValidateWriteCommitState hvalid
        split
        · -- state and effects apart
          rw [commitWriteState, hvalid, ok_bind]
          obtain ⟨pages, extents, operations, hrun, heffect, hsame⟩ := applyEffectsAfter_ok hasync
            hwf hsort halloc heff record (m.persistCommittedWriteState state record) rfl rfl
          exact ⟨record, _, hrun, .congr_target ⟨heffect, hsame, rfl, rfl, rfl, rfl, rfl,
            keepsOtherIntents_put m rfl hkey⟩ (hmerged hother), fun h => absurd h hother⟩
        · -- one transaction
          obtain ⟨m', hcommit, hcomm⟩ := commitWriteMetadata_ok hwf hsort halloc heff hvalid
          rw [hcommit]
          exact ⟨record, m', rfl, hcomm.congr_target (hmerged hother), fun h => absurd h hother⟩

/-- The commits that open a transaction by the bootstrap and then check. -/
theorem bind_error_of_forall_ne {α β : Type} {result : Except Err α} {next : α → Except Err β}
    (h : ¬ ∃ out, result = .ok out) : ∃ err, (result >>= next) = .error err := by
  cases result with
  | error err => exact ⟨err, rfl⟩
  | ok out => exact absurd ⟨out, rfl⟩ h

/-- A commit that is not admitted fails. -/
theorem runCommit_of_not_admits (now : Nat) (hwf : m.PagesWF g)
    (halloc : IsAllocationCommit g rev wreq entry touched alloc) (htouch : touched ≠ [])
    (heff : IsEffects m alloc req.effectsApplyRequest) (hadm : ¬ Admits cfg m req) :
    ∃ err, runCommit cfg now m req = (.error err, { repository := m }) := by
  obtain ⟨pages, ids, hboot, hpages, hids⟩ := heff.bootstrap halloc
  have hne : pages ≠ [] := hpages.ne_nil (halloc.pages_ne_nil htouch)
  unfold Admits at hadm
  unfold runCommit
  dsimp only at hadm ⊢
  split
  · next hao =>
    rw [if_pos hao] at hadm
    rw [commitAppendOnlyWriteStateAndQueueEffects, hboot, ok_bind,
      commitAppendOnlyWriteMetadataBatchWithStore]
    obtain ⟨err, herr⟩ := bind_error_of_forall_ne hadm
    exact ⟨err, by rw [herr]; rfl⟩
  · next hao =>
    rw [if_neg hao] at hadm
    split
    · next hrl =>
      rw [if_pos hrl] at hadm
      rw [commitRangeLocalWriteState, hboot, ok_bind, commitRangeLocalWriteStateWithStore,
        if_neg hne]
      obtain ⟨err, herr⟩ := bind_error_of_forall_ne hadm
      exact ⟨err, by rw [herr]; rfl⟩
    · next hrl =>
      rw [if_neg hrl] at hadm
      split
      · next hps =>
        rw [if_pos hps] at hadm
        rw [commitPageScopedWriteMetadata, hboot, ok_bind,
          commitPageScopedWriteMetadataWithStore, if_neg hne]
        by_cases hvalid : ∃ out,
            m.readAndValidatePageScopedWriteCommitState req.stateCommitRequest = .ok out
        · -- some page has moved
          have hmoved : ¬ ∀ page ∈ pages, page.revision = m.pageRevision page.pageNo := by
            intro hrev
            refine hadm ⟨hvalid, fun page hpage => hrev page (hpages.keeps page ?_)⟩
            exact heff.pages_eq ▸ hpage
          obtain ⟨⟨state, record⟩, hvalid⟩ := hvalid
          rw [hvalid, ok_bind]
          rw [preparePageScopedCommittedAllocationPages_eq hwf (hpages.forall_wf halloc.wf),
            if_neg hmoved]
          exact ⟨.casConflict, rfl⟩
        · obtain ⟨err, herr⟩ := bind_error_of_forall_ne hvalid
          exact ⟨err, by rw [herr]; rfl⟩
      · next hps =>
        rw [if_neg hps] at hadm
        split
        · rw [commitWriteState]
          obtain ⟨err, herr⟩ := bind_error_of_forall_ne hadm
          exact ⟨err, by rw [herr]; rfl⟩
        · rw [commitWriteMetadata, hboot, ok_bind, commitWriteMetadataWithStore]
          obtain ⟨err, herr⟩ := bind_error_of_forall_ne hadm
          exact ⟨err, by rw [herr]; rfl⟩

/-- The intent of the write is pending, or may be missing in the append-only mode. -/
def IntentPending (cfg : ExecutorConfig) (m : Repository) (sreq : CommitWriteStateRequest) : Prop :=
  (∃ record, Table.get? (·.idempotencyKey) sreq.idempotencyKey m.idempotency = some record ∧
      record.resultState = .pending) ∨
    Table.get? (·.idempotencyKey) sreq.idempotencyKey m.idempotency = none ∧
      sreq.allowMissingWriteIntent = true ∧ cfg.appendOnly = true

/-- When nothing has moved since the plan was made, every mode admits the commit. -/
theorem admits_of_unmoved {state : VolumeState} (hvol : m.volume = some state)
    (hepoch : state.epoch = req.stateCommitRequest.expectedEpoch)
    (hrevision : state.revision = req.stateCommitRequest.expectedRevision)
    (hexp : req.stateCommitRequest.expectedIdempotencyState = .pending)
    (hne : req.effectsApplyRequest.allocationPages ≠ [])
    (hintent : IntentPending cfg m req.stateCommitRequest)
    (hrev : ∀ page ∈ req.effectsApplyRequest.allocationPages,
      page.revision = m.pageRevision page.pageNo) : Admits cfg m req := by
  unfold Admits
  dsimp only
  by_cases hao : cfg.appendOnly = true
  · have hmode : cfg.useAppendOnlyServiceWriteEffects req.effectsApplyRequest.allocationPages =
        true := by
      simp [ExecutorConfig.useAppendOnlyServiceWriteEffects, hao, hne]
    rw [if_pos hmode]
    unfold readAndValidateAppendOnlyWriteCommitSnapshot readAndValidateAppendOnlyWriteCommitState
      getVolumeState
    rw [hvol]
    rcases hintent with ⟨record, hget, hpend⟩ | ⟨hget, hmiss, -⟩
    · rw [hget]
      exact ⟨some (state, record), by simp [hepoch, hpend, hexp]⟩
    · rw [hget]
      simp [hepoch, hmiss, hexp]
  · have hmode : cfg.useAppendOnlyServiceWriteEffects req.effectsApplyRequest.allocationPages =
        false := by
      simp [ExecutorConfig.useAppendOnlyServiceWriteEffects, hao]
    rw [hmode, if_neg Bool.false_ne_true]
    -- the other modes need a stored intent
    obtain ⟨record, hget, hpend⟩ : ∃ record, get? (·.idempotencyKey)
        req.stateCommitRequest.idempotencyKey m.idempotency = some record ∧
        record.resultState = .pending := by
      rcases hintent with h | ⟨-, -, h⟩
      · exact h
      · exact absurd h hao
    have hscoped : ∃ out,
        m.readAndValidatePageScopedWriteCommitState req.stateCommitRequest = .ok out :=
      ⟨(state, record), readAndValidatePageScopedWriteCommitState_eq_ok.mpr
        ⟨hvol, hepoch, hget, hpend.trans hexp.symm⟩⟩
    split
    · exact hscoped
    split
    · exact ⟨hscoped, hrev⟩
    · exact ⟨_, readAndValidateWriteCommitState_eq_ok.mpr
        ⟨state, record, hvol, hepoch, hrevision, hget, hpend.trans hexp.symm, rfl⟩⟩

end Run

end Namrbd
