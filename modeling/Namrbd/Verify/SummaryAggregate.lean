import Namrbd.Lib.Totals
import Namrbd.Metadata.Authority
import Mathlib.Algebra.Order.Pi

/-!
# Reported changes and the summary shards

The counters of a shard are to be the sum over the subjects that belong to it (`Exact`).
A change reports the contribution that one subject had and the one it has now
(`Moves`). From an exact aggregate it leaves an exact one, and is accepted when both
contributions are valid and no counter runs over.
-/

namespace Namrbd

open Function List Result SummaryAggregate SummaryKey

open Totals
open Text (trimSpace)

section Counters

variable {current before after c : SummaryCounters}

theorem applySummaryCounterDelta_eq_ok (h : applySummaryCounterDelta current before after = .ok c) :
    c + before = current + after := by
  have hdone := foldlM_of_ok (fun done (c : SummaryCounters) =>
    ∀ field ∈ done, c field + before field = current field + after field) h nofun ?_
  · funext field
    exact hdone field (mem_summaryFields field)
  intro done head rest acc c _ hinv hstep field hmem
  unfold applySummaryCounterField at hstep
  split at hstep
  · cases hstep
  dsimp only at hstep
  split at hstep
  · cases hstep
  cases hstep
  by_cases hfield : field = head
  · subst hfield
    rw [update_self]
    omega
  · rw [update_of_ne hfield]
    exact hinv field ((mem_append.mp hmem).resolve_right (by simpa using hfield))

theorem applySummaryCounterDelta_ok (hle : ∀ field, before field ≤ current field)
    (hroom : ∀ field, after field = 0 ∨ current field + after field < counterBound) :
    ∃ c, applySummaryCounterDelta current before after = .ok c := by
  refine (foldlM_ok_of_forall (fun _ => True) trivial fun field _ acc _ => ?_).imp fun _ h => h.1
  refine ⟨update acc field (current field - before field + after field), ?_, trivial⟩
  unfold applySummaryCounterField
  have := hle field
  have := hroom field
  rw [if_neg (by omega), if_neg (by omega)]
  rfl

end Counters

/-! ## What a record contributes -/

theorem validateSummaryContribution_zero : validateSummaryContribution 0 = .ok () := by
  decide

/-- The states of a node that the summary counts. -/
def MembershipRecord.Counted (record : MembershipRecord) : Prop :=
  (record.lifecycleState = .active ∨ record.lifecycleState = .draining ∨
      record.lifecycleState = .removed) ∧ record.healthState ≠ .unset

instance MembershipRecord.decidableCounted (record : MembershipRecord) :
    Decidable record.Counted :=
  inferInstanceAs (Decidable (_ ∧ _))

def OperationState.Counted (state : OperationState) : Prop :=
  state ≠ .unspecified ∧ state ≠ .queued

instance OperationState.decidableCounted (state : OperationState) : Decidable state.Counted :=
  inferInstanceAs (Decidable (_ ∧ _))

theorem MembershipRecord.Counted.valid {record : MembershipRecord} (h : record.Counted) :
    validateSummaryContribution (summaryMembershipContribution (some record)) = .ok () := by
  obtain ⟨hlifecycle, hhealth⟩ := h
  change validateSummaryContribution (countOne .knownNodes +
    nodeLifecycleCount record.lifecycleState + nodeHealthCount record.healthState) = _
  cases hh : record.healthState with
  | unset => exact absurd hh hhealth
  | _ => rcases hlifecycle with hl | hl | hl <;> rw [hl] <;> decide

def VolumeState.Counted (state : VolumeState) : Prop := ∀ text, state.status ≠ .other text

/-- The contribution of a volume passes the check exactly if its status is a declared one. -/
theorem summaryVolumeContribution_valid (state : Option VolumeState)
    (spec : Option VolumeSpecRecord) :
    validateSummaryContribution (summaryVolumeContribution state spec) = .ok () ↔
      ∀ record ∈ state, record.Counted := by
  cases state with
  | none => exact iff_of_true validateSummaryContribution_zero fun _ h => nomatch h
  | some state =>
    obtain ⟨epoch, revision, status⟩ := state
    cases status <;> cases spec <;>
      simp [summaryVolumeContribution, validateSummaryContribution, summaryStateFields,
        volumeStatusCount, countOne, Pi.single_apply, VolumeState.Counted, throw, throwThe,
        MonadExceptOf.throw]

theorem summaryTransitionContribution_valid
    (record : Option PlacementTransitionRecord) :
    validateSummaryContribution (summaryTransitionContribution record) = .ok () := by
  cases record with
  | none => exact validateSummaryContribution_zero
  | some record =>
    unfold summaryTransitionContribution
    dsimp only
    split
    · unfold transitionReasonCount
      split_ifs <;> decide
    · exact validateSummaryContribution_zero

section Operations

variable (env : SummaryEnv)

theorem isSpace_of_summaryIdentifierChar {c : Char} (h : summaryIdentifierChar c) :
    Text.isSpace c = false := by
  -- the characters of an identifier lie between `-` and `z`
  have hrange : 45 ≤ c.toNat ∧ c.toNat ≤ 122 := by
    unfold summaryIdentifierChar at h
    delta Char.isAlphanum Char.isAlpha Char.isUpper Char.isLower Char.isDigit at h
    simp only [Bool.or_eq_true, Bool.and_eq_true, decide_eq_true_eq, ge_iff_le,
      UInt32.le_iff_toNat_le] at h
    rcases h with (((((h | h) | h) | rfl) | rfl) | rfl) | rfl
    iterate 3
      · exact ⟨Nat.le_trans (by decide) h.1, Nat.le_trans h.2 (by decide)⟩
    all_goals decide
  simp only [Text.isSpace, Bool.or_eq_false_iff, decide_eq_false_iff_not]
  refine ⟨by omega, ?_⟩
  simp
  omega

/-- Trimming leaves an identifier as it is. -/
theorem trimSpace_plain {text : String} (h : text.toList.all summaryIdentifierChar) :
    trimSpace text = text :=
  Text.trimSpace_of_forall fun _ hc => isSpace_of_summaryIdentifierChar (all_eq_true.mp h _ hc)

theorem OperationState.text_plain (state : OperationState) :
    state.text.toList.all summaryIdentifierChar := by
  cases state <;> decide

theorem OperationState.Counted.valid {state : OperationState} (h : state.Counted)
    {op : StoredOperation} (hop : op.state = state.text) :
    validateSummaryContribution (adminOperationSummaryContribution (some op)) =
      .ok () := by
  unfold adminOperationSummaryContribution
  dsimp only
  rw [hop, trimSpace_plain state.text_plain]
  cases state with
  | unspecified => exact absurd rfl h.1
  | queued => exact absurd rfl h.2
  | _ => decide

end Operations

/-! ## Subjects and shards -/

section Aggregate

variable {env : SummaryEnv}

def SummaryKey.subject (env : SummaryEnv) : SummaryKey → String
  | .node nodeID => summarySubject env .membership [nodeID]
  | .volume key => summarySubject env .volume [key]
  | .transition key => summarySubject env .placementTransition [key.1, key.2]
  | .operation key => summarySubject env .adminOperation [key]

def SummaryKey.shard (env : SummaryEnv) (k : SummaryKey) : Nat :=
  summaryVirtualShard env (k.subject env)

theorem SummaryKey.shard_lt (k : SummaryKey) : k.shard env < summaryVirtualShardCount :=
  Nat.mod_lt _ (by decide)

theorem summarySubject_valid (kind : SummarySubjectKind) (identity : List String) :
    validSummaryIdentifier (summarySubject env kind identity) := by
  have hkind : kind.text.length ≤ 20 ∧ kind.text.toList.all summaryIdentifierChar := by
    cases kind <;> decide
  have hdigest := env.subjectDigest_length (identity.map trimSpace)
  have hlen : (summarySubject env kind identity).length = kind.text.length + 1 + 64 := by
    rw [summarySubject, String.length_append, String.length_append, hdigest]
    rfl
  refine ⟨?_, by omega, ?_⟩
  · intro hempty
    rw [hempty] at hlen
    simp at hlen
  · rw [summarySubject, String.toList_append, String.toList_append, all_append,
      all_append, hkind.2, env.subjectDigest_digits]
    decide

theorem SummaryKey.subject_valid (k : SummaryKey) : validSummaryIdentifier (k.subject env) := by
  cases k <;> exact summarySubject_valid _ _

theorem SummaryKey.trimSpace_subject (k : SummaryKey) :
    trimSpace (k.subject env) = k.subject env :=
  trimSpace_plain k.subject_valid.2.2

/-- The contributions change at one subject only, and the change reports both values there. -/
structure Moves (env : SummaryEnv) (k : SummaryKey) (g : SummaryKey → SummaryCounters)
    (change : SummaryChange) (g' : SummaryKey → SummaryCounters) : Prop where
  subject : change.subjectID = k.subject env
  before : change.before = g k
  after : change.after = g' k
  frame : ∀ k' ≠ k, g' k' = g k'

def Exact (env : SummaryEnv) (g : SummaryKey → SummaryCounters) (aggregate : SummaryAggregate) :
    Prop :=
  ∀ i < summaryVirtualShardCount,
    aggregate.counters i = ∑ᶠ k, part (SummaryKey.shard env) i g k

variable {g g' : SummaryKey → SummaryCounters} {k : SummaryKey} {change : SummaryChange}
  {aggregate aggregate' : SummaryAggregate}

section

variable (h : Moves env k g change g')

include h

theorem Moves.eq_update : g' = update g k change.after := by
  funext k'
  by_cases hk : k' = k
  · rw [hk, update_self, h.after]
  · rw [update_of_ne hk, h.frame k' hk]

theorem Moves.finite (hg : g.support.Finite) : g'.support.Finite := by
  rw [h.eq_update]
  exact finite_support_update hg k _

theorem Moves.part_of_ne {i : Nat} (hi : k.shard env ≠ i) :
    part (shard env) i g' = part (shard env) i g := by
  rw [h.eq_update, part_update_of_ne hi]

theorem Moves.before_le (hg : g.support.Finite)
    (hexact : Exact env g aggregate) : change.before ≤ aggregate.counters (k.shard env) := by
  have hle := le_finsum (finite_support_part hg (shard env) (k.shard env)) k
  rw [part, if_pos rfl, ← h.before] at hle
  rw [hexact _ k.shard_lt]
  exact hle

end

section

variable (hexact : Exact env g aggregate) (hg : g.support.Finite) (hmoves : Moves env k g change g')

include hexact hg hmoves

/-- A reported change keeps the shards exact. -/
theorem Exact.apply (hactive : aggregate.state ≠ none)
    (h : aggregate.applySummarySubjectMutation env change = .ok aggregate') :
    Exact env g' aggregate' ∧ aggregate'.state = aggregate.state := by
  have htotal := finsum_update
    (finite_support_part hg (shard env) (k.shard env)) k change.after
  rw [← part_update_of_eq rfl, ← hmoves.eq_update, part, if_pos rfl, ← hmoves.before] at htotal
  unfold applySummarySubjectMutation at h
  split at h
  · next hsame =>
    cases h
    refine ⟨fun i hi => ?_, rfl⟩
    by_cases hk : k.shard env = i
    · subst hk
      rw [hsame] at htotal
      rw [hexact _ hi]
      exact (add_right_cancel htotal).symm
    · rw [hexact i hi, hmoves.part_of_ne hk]
  split at h
  · next hnone => exact absurd hnone hactive
  · obtain ⟨-, -, h⟩ := bind_eq_ok.mp h
    obtain ⟨-, -, h⟩ := bind_eq_ok.mp h
    obtain ⟨counters, hcntrs, h⟩ := bind_eq_ok.mp h
    cases h
    have hshard : summaryVirtualShard env (trimSpace change.subjectID) = k.shard env := by
      rw [hmoves.subject, k.trimSpace_subject]
      rfl
    rw [hshard] at hcntrs ⊢
    have hmoved := applySummaryCounterDelta_eq_ok hcntrs
    refine ⟨fun i hi => ?_, rfl⟩
    by_cases hk : k.shard env = i
    · subst hk
      rw [hexact _ hi, ← htotal] at hmoved
      unfold SummaryAggregate.counters
      dsimp only
      rw [update_self, Option.getD_some]
      exact add_right_cancel hmoved
    · rw [hmoves.part_of_ne hk, ← hexact i hi]
      unfold SummaryAggregate.counters
      dsimp only
      rw [update_of_ne (Ne.symm hk)]

theorem Exact.accepts
    (hactive : ∀ state ∈ aggregate.state, validateSummaryAggregateState state = .ok ())
    (hbefore : validateSummaryContribution change.before = .ok ())
    (hafter : validateSummaryContribution change.after = .ok ())
    (hroom : change.before ≠ change.after → ∀ field, change.after field = 0 ∨
      aggregate.counters (k.shard env) field + change.after field < counterBound) :
    ∃ aggregate', aggregate.applySummarySubjectMutation env change = .ok aggregate' := by
  unfold applySummarySubjectMutation
  split
  · exact ⟨aggregate, rfl⟩
  next hne =>
    split
    · exact ⟨aggregate, rfl⟩
    next state hstate =>
    have hsubject : trimSpace change.subjectID = k.subject env := by
      rw [hmoves.subject, k.trimSpace_subject]
    have hdelta : validateSummaryDelta { change with subjectID := k.subject env } =
        .ok () := by
      unfold validateSummaryDelta
      rw [if_neg (not_not.mpr k.subject_valid)]
      exact bind_eq_ok.mpr ⟨(), hbefore, hafter⟩
    obtain ⟨counters, hcntrs⟩ := applySummaryCounterDelta_ok (hmoves.before_le hg hexact) (hroom hne)
    rw [hactive state hstate, hsubject]
    refine ⟨_, bind_eq_ok.mpr ⟨(), rfl, bind_eq_ok.mpr ⟨(), hdelta,
      bind_eq_ok.mpr ⟨counters, hcntrs, rfl⟩⟩⟩⟩

end

end Aggregate

end Namrbd
