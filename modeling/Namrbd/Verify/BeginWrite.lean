import Namrbd.Verify.Plan
import Namrbd.Replication.Executor

/-!
# Beginning a write

The ways `beginWrite` can end: a replay of a committed record, a zero write that
changes nothing, or an execution with a plan of its own. An execution joins an
intent that is still pending, puts an intent, or goes without one.
-/

namespace Namrbd

open Result Table

/-- The plan of a request and the ids it has got. -/
structure Planned (m : Repository) (req : WriteRequest) (state : VolumeState)
    (plan plan' : List ExtentWritePlan) (m₁ : Repository) : Prop where
  volume : m.volume = some state
  plans : planRequest m req = .ok plan
  prepared : prepareWritePlanAllocations m plan req = .ok (plan', m₁)

/-- What a begin that succeeds has returned and left. -/
inductive Begun (cfg : ExecutorConfig) (m : Repository) (req : WriteRequest) :
    BeginWriteResult → Repository → Prop
  | replay (record : IdempotencyRecord)
      (hrecord : Table.get? (·.idempotencyKey) req.idempotencyKey m.idempotency = some record)
      (hcommitted : record.resultState = .committed) : Begun cfg m req (.replay record) m
  | noop (state : VolumeState) (plan : List ExtentWritePlan) (m' : Repository)
      (hvolume : m.volume = some state) (hplan : planRequest m req = .ok plan)
      (hnoop : writePlanIsZeroNoop plan req = true)
      (hrecords : m' = m ∨
        m' = m.putIdempotencyRecord (writeIdempotencyRecord state req .committed)) :
      Begun cfg m req (.noop state.revision) m'
  | joined (state : VolumeState) (plan plan' : List ExtentWritePlan) (m₁ : Repository)
      (existing : IdempotencyRecord) (hplanned : Planned m req state plan plan' m₁)
      (hrecord : Table.get? (·.idempotencyKey) req.idempotencyKey m.idempotency = some existing)
      (hpending : existing.resultState = .pending) :
      Begun cfg m req (.execution (newWriteExecution plan' req state false))
        (m₁.putMutationOperation (newWriteMutationOperationRecord state req.idempotencyKey))
  | intent (state : VolumeState) (plan plan' : List ExtentWritePlan) (m₁ : Repository)
      (hplanned : Planned m req state plan plan' m₁) :
      Begun cfg m req (.execution (newWriteExecution plan' req state false))
        (m₁.putWriteIntent (writeIdempotencyRecord state req .pending)
          (newWriteMutationOperationRecord state req.idempotencyKey))
  | missing (state : VolumeState) (plan plan' : List ExtentWritePlan) (m₁ : Repository)
      (hplanned : Planned m req state plan plan' m₁) (hallowed : cfg.allowMissingWriteIntent = true)
      (happend : cfg.appendOnly = true) :
      Begun cfg m req (.execution (newWriteExecution plan' req state true)) m₁

section Begin

variable {cfg : ExecutorConfig} {m m' : Repository} {req : WriteRequest}
  {result : BeginWriteResult} {state : VolumeState} {plan : List ExtentWritePlan}

theorem begun_of_beginNewWriteWithPlan (cfg' : ExecutorConfig)
    (hcfg : cfg'.allowMissingWriteIntent = true → cfg' = cfg) (hvol : m.volume = some state)
    (hplan : planRequest m req = .ok plan)
    (h : beginNewWriteWithPlan cfg' m state req plan = .ok (result, m')) :
    Begun cfg m req result m' := by
  unfold beginNewWriteWithPlan at h
  split at h
  · next hnoop =>
    unfold beginWriteZeroNoop at h
    split at h
    · cases h
      exact .noop state plan m hvol hplan hnoop (.inl rfl)
    · cases h
      exact .noop state plan _ hvol hplan hnoop (.inr rfl)
  · obtain ⟨⟨plan', m₁⟩, hprep, h⟩ := bind_eq_ok.mp h
    dsimp only at h
    split at h
    · next hmiss =>
      cases h
      simp only [ExecutorConfig.canUseMissingWriteIntent, Bool.and_eq_true] at hmiss
      obtain rfl := hcfg hmiss.1.1
      exact .missing state plan plan' _ ⟨hvol, hplan, hprep⟩ hmiss.1.1 hmiss.1.2
    · cases h
      exact .intent state plan plan' _ ⟨hvol, hplan, hprep⟩

theorem begun_of_beginWriteFromRecord (hvol : m.volume = some state)
    (h : beginWriteFromRecord cfg m state req = .ok (result, m')) : Begun cfg m req result m' := by
  have hnew : (do
      let plan ← planRequest m req
      beginNewWriteWithPlan { cfg with allowMissingWriteIntent := false } m state req plan) =
        .ok (result, m') → Begun cfg m req result m' := by
    intro h
    obtain ⟨plan, hplan, h⟩ := bind_eq_ok.mp h
    exact begun_of_beginNewWriteWithPlan _ (fun hflag => (Bool.false_ne_true hflag).elim) hvol
      hplan h
  unfold beginWriteFromRecord at h
  cases hrec : get? (·.idempotencyKey) req.idempotencyKey m.idempotency with
  | none =>
    rw [hrec] at h
    exact hnew h
  | some existing =>
    rw [hrec] at h
    dsimp only at h
    split at h
    · cases h
    cases hstate : existing.resultState with
    | committed =>
      rw [hstate] at h
      dsimp only at h
      split at h
      · split at h
        · cases h
        · cases h
          exact .replay existing hrec hstate
      · cases h
        exact .replay existing hrec hstate
    | pending =>
      rw [hstate] at h
      obtain ⟨plan, hplan, h⟩ := bind_eq_ok.mp h
      obtain ⟨⟨plan', m₁⟩, hprep, h⟩ := bind_eq_ok.mp h
      cases h
      exact .joined state plan plan' m₁ existing ⟨hvol, hplan, hprep⟩ hrec hstate
    | failed =>
      rw [hstate] at h
      exact hnew h

theorem begun_of_beginWrite (h : beginWrite cfg m req = .ok (result, m')) :
    Begun cfg m req result m' := by
  obtain ⟨state, hstate, h⟩ := bind_eq_ok.mp h
  have hvol : m.volume = some state := by
    unfold Repository.getVolumeState orNotFound at hstate
    split at hstate
    · next heq => rw [heq]; cases hstate; rfl
    · cases hstate
  unfold beginWriteWithState at h
  by_cases hflag : cfg.allowMissingWriteIntent = true
  · rw [if_pos hflag] at h
    obtain ⟨plan, hplan, h⟩ := bind_eq_ok.mp h
    split at h
    · exact begun_of_beginNewWriteWithPlan cfg (fun _ => rfl) hvol hplan h
    · exact begun_of_beginWriteFromRecord hvol h
  · rw [if_neg hflag] at h
    exact begun_of_beginWriteFromRecord hvol h

theorem prepareWritePlanAllocations_same {plan' : List ExtentWritePlan} {m₁ : Repository}
    (h : prepareWritePlanAllocations m plan req = .ok (plan', m₁)) :
    ∃ next, m₁ = { m with nextChunkID := next } ∧ m.getNextChunkID ≤ m₁.getNextChunkID := by
  obtain ⟨⟨states, pending⟩, -, h⟩ := bind_eq_ok.mp h
  dsimp only at h
  split at h
  · cases h
    exact ⟨m.nextChunkID, rfl, le_rfl⟩
  obtain ⟨⟨start, m2⟩, hallocate, h⟩ := bind_eq_ok.mp h
  cases h
  unfold Repository.allocateChunkIDs at hallocate
  split at hallocate
  · cases hallocate
    exact ⟨m.nextChunkID, rfl, le_rfl⟩
  obtain ⟨state, -, hallocate⟩ := bind_eq_ok.mp hallocate
  cases hallocate
  refine ⟨_, rfl, ?_⟩
  rw [m.getNextChunkID_advance]
  exact Nat.le_add_right _ _

/-- An execution that has begun: its plan, and the metadata with its records. The intent is
pending, or there is none and the configuration allows that. -/
theorem Begun.execution_cases {exec : WriteExecution} {m2 : Repository}
    (h : Begun cfg m req (.execution exec) m2) :
    ∃ state plan plan' m₁ missing idempotency operations,
      Planned m req state plan plan' m₁ ∧ exec = newWriteExecution plan' req state missing ∧
      m2 = { m₁ with idempotency, operations } ∧
      (∀ key, key ≠ req.idempotencyKey → get? (·.idempotencyKey) key idempotency =
        get? (·.idempotencyKey) key m.idempotency) ∧
      ((∃ record, get? (·.idempotencyKey) req.idempotencyKey idempotency = some record ∧
          record.resultState = .pending) ∨
        (missing = true ∧ cfg.allowMissingWriteIntent = true ∧ cfg.appendOnly = true ∧
          idempotency = m.idempotency)) := by
  cases h with
  | joined state plan plan' m₁ existing hplan hrec hpend =>
    obtain ⟨next, rfl, -⟩ := prepareWritePlanAllocations_same hplan.prepared
    exact ⟨state, plan, plan', _, false, m.idempotency, _, hplan, rfl, rfl, fun _ _ => rfl,
      .inl ⟨existing, hrec, hpend⟩⟩
  | intent state plan plan' m₁ hplan =>
    obtain ⟨next, rfl, -⟩ := prepareWritePlanAllocations_same hplan.prepared
    refine ⟨state, plan, plan', _, false, _, _, hplan, rfl, rfl, fun key hkey => ?_,
      .inl ⟨writeIdempotencyRecord state req .pending, ?_, rfl⟩⟩
    · have hne : (writeIdempotencyRecord state req .pending).idempotencyKey ≠ key := Ne.symm hkey
      exact get?_put_of_ne hne m.idempotency
    · exact get?_put_self (writeIdempotencyRecord state req .pending) _
  | missing state plan plan' m₁ hplan hallowed happend =>
    obtain ⟨next, rfl, -⟩ := prepareWritePlanAllocations_same hplan.prepared
    exact ⟨state, plan, plan', _, true, m.idempotency, _, hplan, rfl, rfl, fun _ _ => rfl,
      .inr ⟨rfl, hallowed, happend, rfl⟩⟩

end Begin

end Namrbd
