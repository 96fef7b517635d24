import Namrbd.Maintenance.VolumeTasks
import Namrbd.Verify.CommitTransactions

/-!
# The volume record only advances

Failover, expansion and the write commits each move the volume record on by one epoch
or one revision. The maintenance tasks put back the copy they have read; in a run in
which every such copy still has the stored epoch and revision, the record only ever
advances. A failover between the read and the put of `ReconcileVolumeStatus` is undone.
-/

namespace Namrbd

open Result Repository Option

variable {m m' m'' : Repository}

/-! ## Advancing -/

/-- The record of `m'` is that of `m`, or one epoch or one revision on. The status
is not compared. -/
def VolumeAdvances (m m' : Repository) : Prop :=
  ∀ v, m.volume = some v → ∃ v', m'.volume = some v' ∧
    (v'.epoch = v.epoch ∧ v'.revision = v.revision ∨
      v'.epoch = v.epoch + 1 ∧ v'.revision = v.revision ∨
      v'.epoch = v.epoch ∧ v'.revision = v.revision + 1)

def VolumeLE (m m' : Repository) : Prop :=
  ∀ v, m.volume = some v → ∃ v', m'.volume = some v' ∧
    v.epoch ≤ v'.epoch ∧ v.revision ≤ v'.revision

variable {held : VolumeState}

theorem VolumeLE.refl (m : Repository) : VolumeLE m m :=
  fun v hv => ⟨v, hv, le_rfl, le_rfl⟩

theorem VolumeLE.trans (h : VolumeLE m m') (h' : VolumeLE m' m'') : VolumeLE m m'' := by
  intro v hv
  obtain ⟨v', hv', hepoch, hrev⟩ := h v hv
  obtain ⟨v'', hv'', hepoch', hrev'⟩ := h' v' hv'
  exact ⟨v'', hv'', hepoch.trans hepoch', hrev.trans hrev'⟩

theorem VolumeAdvances.volumeLE (h : VolumeAdvances m m') : VolumeLE m m' := by
  intro v hv
  obtain ⟨v', hv', hcases⟩ := h v hv
  exact ⟨v', hv', by omega, by omega⟩

theorem VolumeAdvances.of_volume_eq (h : m'.volume = m.volume) : VolumeAdvances m m' :=
  fun v hv => ⟨v, by rw [h, hv], .inl ⟨rfl, rfl⟩⟩

/-- A change that follows does not touch the record. -/
theorem VolumeAdvances.congr_right (h : VolumeAdvances m m') (heq : m''.volume = m'.volume) :
    VolumeAdvances m m'' := by
  intro v hv
  obtain ⟨v', hv', hcases⟩ := h v hv
  exact ⟨v', by rw [heq, hv'], hcases⟩

theorem VolumeAdvances.orUnchanged {x : Except Err Repository}
    (h : ∀ m', x = .ok m' → VolumeAdvances m m') : VolumeAdvances m (m.orUnchanged x) := by
  cases x with
  | error err => exact .of_volume_eq rfl
  | ok m' => exact h m' rfl

/-! ## The transactions -/

theorem volumeAdvances_commitPrimaryFailover {req : CommitPrimaryFailoverRequest}
    (h : m.commitPrimaryFailover req = .ok m') : VolumeAdvances m m' := by
  obtain ⟨state, hstate, h⟩ := bind_eq_ok.mp h
  have hvol := orNotFound_eq_ok.mp hstate
  obtain ⟨-, h⟩ := throwIf_eq_ok.mp h
  obtain ⟨replicaSet, -, h⟩ := bind_eq_ok.mp h
  obtain ⟨-, h⟩ := throwIf_eq_ok.mp h
  obtain ⟨-, h⟩ := throwIf_eq_ok.mp h
  cases h
  intro v hv
  cases hvol.symm.trans hv
  exact ⟨_, rfl, .inr (.inl ⟨rfl, rfl⟩)⟩

theorem volumeAdvances_expandVolume {targetSizeBytes : Nat}
    (h : m.expandVolume targetSizeBytes = .ok m') : VolumeAdvances m m' := by
  unfold expandVolume at h
  obtain ⟨-, h⟩ := throwIf_eq_ok.mp h
  obtain ⟨state, hstate, h⟩ := bind_eq_ok.mp h
  have hvol := orNotFound_eq_ok.mp hstate
  obtain ⟨spec, -, h⟩ := bind_eq_ok.mp h
  obtain ⟨-, h⟩ := throwIf_eq_ok.mp h
  obtain ⟨-, h⟩ := throwIf_eq_ok.mp h
  obtain ⟨-, h⟩ := throwIf_eq_ok.mp h
  split at h
  · cases h
    exact .of_volume_eq rfl
  cases h
  intro v hv
  cases hvol.symm.trans hv
  exact ⟨_, rfl, .inr (.inr ⟨rfl, rfl⟩)⟩

theorem volume_eq_of_applyCommittedWriteEffects {req : ApplyCommittedWriteEffectsRequest}
    (h : m.applyCommittedWriteEffects req = .ok m') : m'.volume = m.volume := by
  obtain ⟨effects, -, rfl | happ⟩ := applyCommittedWriteEffects_eq_ok h
  · rfl
  · rw [happ.frame]

section Commit

variable {req : CommitWriteMetadataRequest}

theorem volumeAdvances_of_expected {state : VolumeState} (hvol : m.volume = some state)
    (hrev : state.revision = req.stateCommitRequest.expectedRevision)
    (hnext : req.stateCommitRequest.committedRevision =
      req.stateCommitRequest.expectedRevision + 1) (hvol' : m'.volume =
      some { state with revision := req.stateCommitRequest.committedRevision }) :
    VolumeAdvances m m' := by
  intro v hv
  cases hvol.symm.trans hv
  exact ⟨_, hvol', .inr (.inr ⟨rfl, by rw [hrev, ← hnext]⟩)⟩

theorem volumeAdvances_transaction {exec : WriteExecution} {alloc : AllocationCommit}
    (h : CommitTransaction exec alloc m m') : VolumeAdvances m m' := by
  cases h with
  | appendOnly _ h =>
    refine .of_volume_eq ?_
    obtain ⟨effects, m0, -, -, hm0, rfl | happ⟩ := commitAppendOnlyWriteStateAndQueueEffects_eq_ok h
    · rw [hm0]
    · rw [happ.frame, hm0]
  | rangeLocal _ h => exact .of_volume_eq (by rw [commitRangeLocalWriteState_frame h])
  | pageScoped _ h =>
    obtain ⟨_, _, _, m1, m2, -, -, hm1, hnorm, hm'⟩ := commitPageScopedWriteMetadata_eq_ok h
    exact .of_volume_eq (by rw [hm', normalizeCommittedExtentMappings_frame hnorm, hm1])
  | state hreq h =>
    obtain ⟨state, hvol, hrev, hm'⟩ := commitWriteState_frame h
    exact volumeAdvances_of_expected hvol hrev (commitRequest_eq_ok hreq).2.1 (by rw [hm'])
  | volumeScoped hreq h =>
    obtain ⟨effects, state, record', m0, -, hvol, hrev, happ⟩ := commitWriteMetadata_eq_ok h
    exact volumeAdvances_of_expected hvol hrev (commitRequest_eq_ok hreq).2.1 (by rw [happ.frame]; rfl)
  | effects h => exact .of_volume_eq (volume_eq_of_applyCommittedWriteEffects h)

end Commit

/-! ## The tasks -/

def VolumeState.IsCurrent (held : VolumeState) (m : Repository) : Prop :=
  ∃ v, m.volume = some v ∧ v.epoch = held.epoch ∧ v.revision = held.revision

/-- A copy is put back only while it is current. -/
def PutsCurrent (m : Repository) : VolumeAction → VolumeTask → Prop
  | .putReconciled _, .reconciling held => held.IsCurrent m
  | .raise _, .evaluating held => held.IsCurrent m
  | .publish, .publishing held => held.IsCurrent m
  | _, _ => True

theorem VolumeState.IsCurrent.volumeAdvances_status (h : held.IsCurrent m) (status : VolumeStatus) :
    VolumeAdvances m (m.putVolumeState { held with status }) := by
  obtain ⟨v, hvol, hepoch, hrev⟩ := h
  intro v' hv'
  cases hvol.symm.trans hv'
  exact ⟨_, rfl, .inl ⟨hepoch.symm, hrev.symm⟩⟩

theorem readVolume_fst (m : Repository) (next : VolumeState → VolumeTask) :
    (readVolume m next).1 = m := by
  unfold readVolume
  split <;> rfl

/-- A task that puts back a current copy moves the record forward only. -/
theorem volumeAdvances_taskStep {a : VolumeAction} {task task' : VolumeTask}
    (hcur : PutsCurrent m a task) (h : taskStep m a task = some (m', task')) :
    VolumeAdvances m m' := by
  have hread : ∀ next, some (readVolume m next) = some (m', task') → VolumeAdvances m m' := by
    intro next heq
    have hm : (readVolume m next).1 = m' := congrArg Prod.fst (some.inj heq)
    rw [readVolume_fst] at hm
    exact .of_volume_eq (by rw [hm])
  unfold taskStep at h
  split at h
  · exact hread _ h
  · cases h
    exact VolumeState.IsCurrent.volumeAdvances_status hcur _
  · exact hread _ h
  · -- the failover of the node health reconciliation
    split at h
    · cases h
      exact .of_volume_eq rfl
    next m1 hfailover =>
    have hm : (readVolume m1 .evaluating).1 = m' := congrArg Prod.fst (some.inj h)
    rw [readVolume_fst] at hm
    exact (volumeAdvances_commitPrimaryFailover hfailover).congr_right (by rw [hm])
  · cases h
    unfold raiseAffectedVolumeStatus
    split
    · exact .of_volume_eq rfl
    · split
      · exact .of_volume_eq rfl
      · exact hcur.volumeAdvances_status _
  · cases h
    exact .of_volume_eq rfl
  · cases h
    exact .of_volume_eq rfl
  · exact hread _ h
  · -- the legacy view is materialized before the revision is raised
    split at h
    · cases h
      exact .of_volume_eq rfl
    · next happly =>
      cases h
      obtain ⟨m1, hpers, hnorm⟩ := bind_eq_ok.mp happly
      refine .of_volume_eq ?_
      rw [normalizeCommittedExtentMappings_frame hnorm,
        persistCommittedAllocationPages_frame hpers]
  · cases h
    obtain ⟨v, hvol, hepoch, hrev⟩ := hcur
    intro v' hv'
    cases hvol.symm.trans hv'
    exact ⟨_, rfl, .inr (.inr ⟨hepoch.symm, congrArg (· + 1) hrev.symm⟩)⟩
  · cases h
    exact .orUnchanged fun _ => volumeAdvances_commitPrimaryFailover
  · cases h
    exact .orUnchanged fun _ => volumeAdvances_expandVolume
  · cases h
    exact (commitMetadata_ends (.of_volume_eq rfl)
      (fun _ _ _ _ hrun h => hrun.congr_right (volume_eq_of_applyCommittedWriteEffects h))
      (fun _ => volumeAdvances_transaction) _ _).1
  · cases h
    exact .orUnchanged fun _ happly =>
      .of_volume_eq (volume_eq_of_applyCommittedWriteEffects happly)
  · cases h
    exact .of_volume_eq rfl
  · cases h

section Runs

variable {ι : Type} [DecidableEq ι] {s t u : VolumeTasks ι}

def VolumeTasks.CurrentStep (s t : VolumeTasks ι) : Prop :=
  ∃ i a, PutsCurrent s.repository a (s.task i) ∧ s.step i a = some t

theorem VolumeTasks.CurrentStep.volumeAdvances (h : s.CurrentStep t) :
    VolumeAdvances s.repository t.repository := by
  obtain ⟨i, a, hcur, hstep⟩ := h
  obtain ⟨⟨m', task'⟩, htask, rfl⟩ := map_eq_some_iff.mp hstep
  exact volumeAdvances_taskStep hcur htask

/-- In every run of any tasks that keep to current copies, epoch and revision never
decrease from one state to a later one, and each step leaves them or moves one of
them on by one. -/
theorem volume_record_only_advances (hrun : Relation.ReflTransGen VolumeTasks.CurrentStep s t) :
    VolumeLE s.repository t.repository ∧
      ∀ u, t.CurrentStep u → VolumeAdvances t.repository u.repository := by
  refine ⟨?_, fun u hstep => hstep.volumeAdvances⟩
  induction hrun with
  | refl => exact .refl _
  | tail _ hstep ih => exact ih.trans hstep.volumeAdvances.volumeLE

end Runs

/-! ## A volume with two replicas -/

namespace FailoverVolume

def repository : Repository :=
  { volume := some { epoch := 1, revision := 1 }
    replicaSets := [{ replicaSetID := "rs", placementRef := "p", epoch := 1
                      replicas := [⟨"n1", "r1", .primary, "z1"⟩, ⟨"n2", "r2", .secondary, "z2"⟩]
                      primaryReplicaID := "r1", writeQuorum := 1 }] }

def tasks : VolumeTasks Bool := { repository, task := fun _ => .idle }

def failover : VolumeAction := .failover ⟨"rs", 1, 1, "r1", "r2"⟩

def epochAfter (accesses : List (Bool × VolumeAction)) : Option Nat :=
  (tasks.steps accesses).bind fun s => s.repository.volume.map (·.epoch)

/-- A failover that commits while `ReconcileVolumeStatus` evaluates is undone when the
copy read before it is put back. -/
theorem failover_undone : epochAfter [(false, .beginReconcile), (true, failover)] = some 2 ∧
      epochAfter [(false, .beginReconcile), (true, failover),
        (false, .putReconciled .degraded)] = some 1 := by
  decide

/-- A reconcile that begins after the failover keeps its epoch. -/
theorem failover_kept : ∃ t, tasks.steps [(true, failover), (false, .beginReconcile),
        (false, .putReconciled .degraded)] = some t ∧
      t.repository.volume = some { epoch := 2, revision := 1, status := .degraded } ∧
      VolumeLE tasks.repository t.repository := by
  refine ⟨_, rfl, rfl, (volume_record_only_advances ?_).1⟩
  refine .head ⟨true, failover, trivial, rfl⟩ ?_
  refine .head ⟨false, .beginReconcile, trivial, rfl⟩ ?_
  exact .head ⟨false, .putReconciled .degraded, ⟨_, rfl, rfl, rfl⟩, rfl⟩ .refl

end FailoverVolume

end Namrbd
