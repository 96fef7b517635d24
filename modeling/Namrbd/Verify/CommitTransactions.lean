import Mathlib.Logic.Relation
import Namrbd.Verify.CommitFrame

/-!
# A commit as a sequence of transactions

Whatever mode a commit takes and however it ends, what it does to the metadata
is a sequence of transactions of its execution: a commit in one of the modes,
effects applied on their own, or nothing. What every transaction keeps, a commit
keeps (`commitMetadata_transactions`).
-/

namespace Namrbd

variable {exec : WriteExecution} {alloc : AllocationCommit} {m : Repository}

/-- The transactions that commit an execution, one for each mode. -/
inductive CommitTransaction (exec : WriteExecution) (alloc : AllocationCommit) :
    Repository → Repository → Prop
  | appendOnly {m m' : Repository} {now : Nat} {req : CommitWriteMetadataRequest}
      {record : IdempotencyRecord} (hreq : commitRequest m exec alloc = .ok req)
      (h : m.commitAppendOnlyWriteStateAndQueueEffects now req = .ok (record, m')) :
      CommitTransaction exec alloc m m'
  | rangeLocal {m m' : Repository} {req : CommitWriteMetadataRequest}
      {record : IdempotencyRecord} (hreq : commitRequest m exec alloc = .ok req)
      (h : m.commitRangeLocalWriteState req = .ok (record, m')) : CommitTransaction exec alloc m m'
  | pageScoped {m m' : Repository} {req : CommitWriteMetadataRequest}
      {record : IdempotencyRecord} (hreq : commitRequest m exec alloc = .ok req)
      (h : m.commitPageScopedWriteMetadata req = .ok (record, m')) :
      CommitTransaction exec alloc m m'
  | state {m m' : Repository} {req : CommitWriteMetadataRequest} {record : IdempotencyRecord}
      (hreq : commitRequest m exec alloc = .ok req)
      (h : m.commitWriteState req.stateCommitRequest = .ok (record, m')) :
      CommitTransaction exec alloc m m'
  | volumeScoped {m m' : Repository} {req : CommitWriteMetadataRequest}
      {record : IdempotencyRecord} (hreq : commitRequest m exec alloc = .ok req)
      (h : m.commitWriteMetadata req = .ok (record, m')) : CommitTransaction exec alloc m m'
  | effects {m m' : Repository} {committedRevision : Nat}
      {mutationOperation : Option MutationOperationRecord}
      (h : m.applyCommittedWriteEffects
        (effectsRequest exec alloc committedRevision mutationOperation) = .ok m') :
      CommitTransaction exec alloc m m'

/-- Some transactions lead from `m` to the outcome, and the effects put off are those of
the execution. -/
structure CommitOutcome.Transacts (exec : WriteExecution) (alloc : AllocationCommit)
    (m : Repository) (outcome : CommitOutcome) : Prop where
  repository : Relation.ReflTransGen (CommitTransaction exec alloc) m outcome.repository
  deferred : ∀ effects ∈ outcome.deferred, ∃ committedRevision mutationOperation,
    effects = effectsRequest exec alloc committedRevision mutationOperation

theorem CommitOutcome.Transacts.induct {outcome : CommitOutcome} {P : Repository → Prop}
    (h : outcome.Transacts exec alloc m) (hm : P m)
    (hstep : ∀ m1 m2, CommitTransaction exec alloc m1 m2 → P m1 → P m2) : P outcome.repository := by
  obtain ⟨hrepo, -⟩ := h
  generalize outcome.repository = m' at hrepo
  induction hrepo with
  | refl => exact hm
  | tail _ htransaction ih => exact hstep _ _ htransaction ih

variable {req : CommitWriteMetadataRequest}

/-- The metadata satisfies `R`, and the effects put off are those of the execution. -/
def CommitOutcome.Ends (exec : WriteExecution) (alloc : AllocationCommit) (R : Repository → Prop)
    (outcome : CommitOutcome) : Prop :=
  R outcome.repository ∧ ∀ effects ∈ outcome.deferred, ∃ committedRevision mutationOperation,
    effects = effectsRequest exec alloc committedRevision mutationOperation

section Ends

variable {R : Repository → Prop} {cfg : ExecutorConfig} (hm : R m)

include hm

theorem ends_inTransaction {α : Type} {result : Except Err (α × Repository)}
    (h : ∀ a m', result = .ok (a, m') → R m') :
    (inTransaction m result).2.Ends exec alloc R := by
  unfold inTransaction
  split
  · next a m' => exact ⟨h a m' rfl, nofun⟩
  · exact ⟨hm, nofun⟩

variable (heffects : ∀ m1 m2 committedRevision mutationOperation, R m1 →
  m1.applyCommittedWriteEffects (effectsRequest exec alloc committedRevision mutationOperation) =
    .ok m2 → R m2)

include heffects

theorem ends_applyEffectsAfter (hreq : commitRequest m exec alloc = .ok req)
    {result : Except Err (IdempotencyRecord × Repository)}
    (h : ∀ record m', result = .ok (record, m') → R m') :
    (applyEffectsAfter cfg req m result).2.Ends exec alloc R := by
  obtain ⟨-, -, committedRevision, heff⟩ := commitRequest_eq_ok hreq
  unfold applyEffectsAfter
  rw [heff]
  split
  · exact ⟨hm, nofun⟩
  next record m1 =>
  have hstate := h record m1 rfl
  dsimp only
  split
  · exact ⟨hstate, fun effects hmem => ⟨_, _, List.mem_singleton.mp hmem⟩⟩
  split
  · exact ⟨hstate, nofun⟩
  · next happly => exact ⟨heffects _ _ _ _ hstate happly, nofun⟩

theorem ends_recoverCommittedWriteAfterCAS (cfg : ExecutorConfig) :
    R (recoverCommittedWriteAfterCAS cfg m exec alloc).2 := by
  unfold recoverCommittedWriteAfterCAS
  repeat' split
  all_goals first
    | exact hm
    | exact heffects _ _ _ _ hm ‹_›

variable (hcommit : ∀ m', CommitTransaction exec alloc m m' → R m')

include hcommit

theorem ends_runCommit (cfg : ExecutorConfig) (now : Nat)
    (hreq : commitRequest m exec alloc = .ok req) :
    (runCommit cfg now m req).2.Ends exec alloc R := by
  unfold runCommit
  dsimp only
  split
  · exact ends_inTransaction hm fun _ _ h => hcommit _ (.appendOnly hreq h)
  split
  · exact ends_applyEffectsAfter hm heffects hreq fun _ _ h => hcommit _ (.rangeLocal hreq h)
  split
  · exact ends_inTransaction hm fun _ _ h => hcommit _ (.pageScoped hreq h)
  split
  · exact ends_applyEffectsAfter hm heffects hreq fun _ _ h => hcommit _ (.state hreq h)
  · exact ends_inTransaction hm fun _ _ h => hcommit _ (.volumeScoped hreq h)

/-- What one transaction establishes, and effects applied after it keep, holds after a commit. -/
theorem commitMetadata_ends (cfg : ExecutorConfig) (now : Nat) :
    (commitMetadata cfg now m exec alloc).2.Ends exec alloc R := by
  unfold commitMetadata
  split
  · exact ⟨hm, nofun⟩
  split
  · exact ⟨hm, nofun⟩
  next req hreq =>
  have hrun := ends_runCommit hm heffects hcommit cfg now hreq
  split
  · next outcome hout =>
    rw [hout] at hrun
    exact hrun
  · next outcome hout =>
    rw [hout] at hrun
    have hrecover := ends_recoverCommittedWriteAfterCAS hrun.1 heffects cfg
    split <;> next hrec =>
      rw [hrec] at hrecover
      exact ⟨hrecover, hrun.2⟩
  · next outcome _ hout =>
    rw [hout] at hrun
    exact hrun

end Ends

theorem commitMetadata_transactions (cfg : ExecutorConfig) (now : Nat) (m : Repository)
    (exec : WriteExecution) (alloc : AllocationCommit) :
    (commitMetadata cfg now m exec alloc).2.Transacts exec alloc m := by
  obtain ⟨hrepo, hdeferred⟩ := commitMetadata_ends
    (R := Relation.ReflTransGen (CommitTransaction exec alloc) m) .refl
    (fun _ _ _ _ hrun happly => hrun.tail (.effects happly)) (fun _ h => .single h) cfg now
  exact ⟨hrepo, hdeferred⟩

end Namrbd
