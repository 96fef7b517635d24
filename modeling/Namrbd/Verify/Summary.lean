import Namrbd.Verify.SummaryAggregate

/-!
# The summary follows the authority records

From a promoted rebuild on, the shard counters add up to the contributions of all
stored records (`Summarized`), and the aggregate refuses no call that would succeed
without it. Both rest on what each call reports (`Report`).

This is not so for every call: the check of a contribution knows fewer states than the
records have, and a subject is named as the caller spells it while its records are found
under the canonical id. `Countable` leaves these calls out.
-/

namespace Namrbd

open List Result

open Totals AuthorityStore
open Text (trimSpace)

/-- The counters of every shard have room for a contribution. -/
def SummaryAggregate.Room (aggregate : SummaryAggregate) (c : SummaryCounters) : Prop :=
  ∀ shard < summaryVirtualShardCount, ∀ field,
    c field = 0 ∨ aggregate.counters shard field + c field < counterBound

instance (aggregate : SummaryAggregate) (c : SummaryCounters) : Decidable (aggregate.Room c) :=
  inferInstanceAs (Decidable (∀ shard < _, ∀ _, _ ∨ _))

namespace SummarySystem

variable (env : SummaryEnv)

/-- The id of a volume is spelled as in the keys of its records. -/
def Spelled (volumeID : String) : Prop := volumeKey env volumeID = volumeID

def stored (a : AuthorityStore) : AuthorityCall → SummaryCounters
  | .putMembership record _ => summaryMembershipContribution (some record)
  | .deleteMembership record =>
    summaryMembershipContribution (some (MembershipStore.tombstoned record))
  | .putVolumeState volumeID record =>
    summaryVolumeContribution (some record) (a.specs (volumeKey env volumeID))
  | .putVolumeAuthority _ state _ spec => summaryVolumeContribution (some state) (some spec)
  | .putVolumeSpec volumeID spec =>
    summaryVolumeContribution (a.volumes (volumeKey env volumeID)) (some spec)
  | .deleteVolumeSpec volumeID =>
    summaryVolumeContribution (a.volumes (volumeKey env volumeID)) none
  | .expandVolume volumeID targetSizeBytes =>
    let key := volumeKey env (volumeKey env volumeID)
    summaryVolumeContribution (a.volumes key)
      ((a.specs key).map fun spec => { spec with sizeBytes := targetSizeBytes })
  | .putTransition record _ => summaryTransitionContribution (some record)
  | .finalizeDrainTransition record _ =>
    summaryTransitionContribution
      (some ((a.transitions (volumeKey env record.volumeID, record.placementRef)).getD record))
  | .createOperation _ op =>
    adminOperationSummaryContribution (some (storedOperationFromProto op))
  | .createNodeDrain _ nodeID phase requestID state =>
    adminOperationSummaryContribution
      (some (a.nodeDrainOperation nodeID phase requestID state))
  | .updateOperation operationID mutate =>
    adminOperationSummaryContribution
      ((a.operations operationID).map fun op => storedOperationFromProto (mutate op.toProto))
  | _ => 0

/-- The record is in a state that the summary counts, the id of a volume is spelled as in its key,
that of an operation is trimmed, and a new drain operation has no record. -/
def Named (a : AuthorityStore) : AuthorityCall → Prop
  | .putMembership record _ => record.Counted
  | .deleteMembership record => (MembershipStore.tombstoned record).Counted
  | .putVolumeState volumeID state => Spelled env volumeID ∧ state.Counted
  | .putVolumeAuthority _ state _ _ => state.Counted
  | .deleteVolumeState volumeID => Spelled env volumeID
  | .putVolumeSpec volumeID _ => Spelled env volumeID
  | .deleteVolumeSpec volumeID => Spelled env volumeID
  | .expandVolume volumeID _ => Spelled env (volumeKey env volumeID)
  | .putTransition record _ => Spelled env record.volumeID
  | .deleteTransition volumeID _ _ => Spelled env volumeID
  | .finalizeDrainTransition record _ => Spelled env record.volumeID
  | .createOperation _ op => op.state.Counted
  | .createNodeDrain _ nodeID _ requestID state =>
    state.Counted ∧
      (a.drainRequests (trimSpace nodeID, trimSpace requestID) = none →
        a.operations (formatOperationID (a.operationSequence.getD 0 + 1)) = none)
  | .updateOperation operationID mutate =>
    ∀ op ∈ a.operations operationID,
      (mutate op.toProto).state.Counted ∧
        trimSpace (mutate op.toProto).operationID = (mutate op.toProto).operationID
  | _ => True

def Countable (s : SummarySystem) (c : AuthorityCall) : Prop :=
  Named env s.authority c ∧ s.aggregate.Room (stored env s.authority c)

def Allowed (s : SummarySystem) : Event → Prop
  | .tick _ => True
  | .call c => Countable env s c

/-- The aggregate is active, its shards are exact and every record passes the check. -/
structure Summarized (s : SummarySystem) : Prop where
  active : ∃ state, s.aggregate.state = some state ∧ validateSummaryAggregateState state = .ok ()
  finite : (s.authority.contribution).support.Finite
  exact : Exact env (s.authority.contribution) s.aggregate
  counted : ∀ k, validateSummaryContribution (s.authority.contribution k) = .ok ()

/-- What a write does to the contributions is what it reports, and the summary can follow it. -/
inductive Report (env : SummaryEnv) (s : SummarySystem) : AuthorityWrite → Prop
  | unchanged {a' : AuthorityStore} (same : a'.contribution = s.authority.contribution) :
    Report env s (a', none)
  | moved {a' : AuthorityStore} {k : SummaryKey} {change : SummaryChange}
    (moves : Moves env k (s.authority.contribution) change (a'.contribution))
    (valid : validateSummaryContribution change.after = .ok ())
    (room : s.aggregate.Room change.after) : Report env s (a', some change)

variable {env : SummaryEnv} {s s' : SummarySystem} {write : AuthorityWrite}

/-! ## What the calls report -/

theorem Report.of_contribution {a' : AuthorityStore} {change : SummaryChange} {k : SummaryKey}
    {c : SummaryCounters} (hsubject : change.subjectID = k.subject env)
    (hbefore : change.before = s.authority.contribution k)
    (hafter : change.after = a'.contribution k) (hnext : ∀ k', a'.contribution k' =
      if k' = k then c else s.authority.contribution k')
    (hvalid : validateSummaryContribution c = .ok ()) (hroom : s.aggregate.Room c) :
    Report env s (a', some change) := by
  have hc : change.after = c := by rw [hafter, hnext, if_pos rfl]
  refine .moved ⟨hsubject, hbefore, hafter, fun k' hk' => ?_⟩ ?_ ?_
  · rw [hnext, if_neg hk']
  · rw [hc, hvalid]
  · rw [hc]
    exact hroom

theorem room_zero : s.aggregate.Room 0 := fun _ _ _ => .inl rfl

section Volumes

variable {volumeID : String} {state : Option VolumeState} {spec : Option VolumeSpecRecord}

theorem contribution_setVolume (a : AuthorityStore) (k : SummaryKey) :
    (a.setVolume env volumeID state spec).1.contribution k =
      if k = .volume (volumeKey env volumeID) then summaryVolumeContribution state spec
      else a.contribution k := by
  cases k with
  | volume key =>
    by_cases hk : key = volumeKey env volumeID
    · subst hk
      simp [contribution, setVolume]
    · simp [contribution, setVolume, hk]
  | _ => rfl

theorem report_setVolume (hspelled : Spelled env volumeID)
    (hcounted : ∀ record ∈ state, record.Counted)
    (hroom : s.aggregate.Room (summaryVolumeContribution state spec)) :
    Report env s (s.authority.setVolume env volumeID state spec) := by
  refine .of_contribution (k := .volume (volumeKey env volumeID)) ?_ rfl rfl
    (contribution_setVolume s.authority) ((summaryVolumeContribution_valid state spec).mpr hcounted)
    hroom
  exact congrArg (fun id => summarySubject env .volume [id]) hspelled.symm

theorem counted_of_valid {key : String}
    (hvalid : ∀ k, validateSummaryContribution (s.authority.contribution k) = .ok ()) :
    ∀ record ∈ s.authority.volumes key, record.Counted :=
  (summaryVolumeContribution_valid _ (s.authority.specs key)).mp (hvalid (.volume key))

theorem contribution_setVolume_same (a : AuthorityStore)
    (hsame : summaryVolumeContribution state spec =
      a.contribution (.volume (volumeKey env volumeID))) :
    (a.setVolume env volumeID state spec).1.contribution = a.contribution := by
  funext k
  rw [contribution_setVolume]
  split
  · next hk => rw [hk, hsame]
  · rfl

theorem report_putVolumeState {record : VolumeState}
    (hcountable : Countable env s (.putVolumeState volumeID record))
    (h : s.authority.putVolumeState env volumeID record = .ok write) : Report env s write := by
  unfold putVolumeState at h
  dsimp only at h
  split at h
  · next hsame =>
    cases h
    refine .unchanged (contribution_setVolume_same s.authority ?_)
    -- without its spec the state contributes the same, so it does with it
    change _ = summaryVolumeContribution (s.authority.volumes (volumeKey env volumeID)) _
    cases hstate : s.authority.volumes (volumeKey env volumeID) with
    | none =>
      rw [hstate] at hsame
      have hcount := congrFun hsame .volumeCount
      cases hstat : record.status <;>
        simp [summaryVolumeContribution, volumeStatusCount, countOne, hstat] at hcount
    | some before =>
      rw [hstate] at hsame
      simp only [summaryVolumeContribution, add_zero] at hsame ⊢
      rw [hsame]
  · cases h
    exact report_setVolume hcountable.1.1 (fun _ h => Option.some.inj h ▸ hcountable.1.2)
      hcountable.2

theorem spelled_of_canonicalIdentity (h : CanonicalIdentity env volumeID) :
    Spelled env volumeID := by
  rw [Spelled, volumeKey, h.2]
  rfl

theorem report_deleteVolumeAuthority
    (h : s.authority.deleteVolumeAuthority env volumeID = .ok write) : Report env s write := by
  unfold deleteVolumeAuthority at h
  obtain ⟨hcanon, h⟩ := throwIf_eq_ok.mp h
  split at h
  · cases h
    exact .unchanged rfl
  · cases h
    exact report_setVolume (spelled_of_canonicalIdentity (not_not.mp hcanon)) (fun _ h => nomatch h)
      room_zero

theorem report_deleteOrphanVolume (h : s.authority.deleteOrphanVolume env volumeID = .ok write) :
    Report env s write := by
  unfold deleteOrphanVolume at h
  obtain ⟨hcanon, h⟩ := throwIf_eq_ok.mp h
  obtain ⟨-, h⟩ := throwIf_eq_ok.mp h
  cases h
  exact report_setVolume (spelled_of_canonicalIdentity (not_not.mp hcanon)) (fun _ h => nomatch h)
      room_zero

theorem report_expandVolume {targetSizeBytes : Nat}
    (hvalid : ∀ k, validateSummaryContribution (s.authority.contribution k) = .ok ())
    (hcount : Countable env s (.expandVolume volumeID targetSizeBytes))
    (h : s.authority.expandVolume env volumeID targetSizeBytes = .ok write) :
    Report env s write := by
  obtain ⟨hspelled, hroom⟩ := hcount
  unfold stored at hroom
  unfold expandVolume at h
  obtain ⟨-, h⟩ := throwIf_eq_ok.mp h
  dsimp only at h hroom
  split at h
  · next state spec hstate hspec =>
    rw [hstate, hspec] at hroom
    obtain ⟨-, h⟩ := throwIf_eq_ok.mp h
    obtain ⟨-, h⟩ := throwIf_eq_ok.mp h
    obtain ⟨-, h⟩ := throwIf_eq_ok.mp h
    split at h
    · cases h
      exact .unchanged rfl
    · cases h
      exact report_setVolume hspelled
        (fun record h => Option.some.inj h ▸ counted_of_valid hvalid state hstate) hroom
  · cases h

end Volumes

section Transitions

variable {volumeID placementRef : String} {record : PlacementTransitionRecord}
  {failure : Option DrainErr}

theorem report_setTransition {record : Option PlacementTransitionRecord}
    (hspelled : Spelled env volumeID)
    (hroom : s.aggregate.Room (summaryTransitionContribution record)) :
    Report env s (s.authority.setTransition env volumeID placementRef record) := by
  refine .of_contribution (k := .transition (volumeKey env volumeID, placementRef)) ?_ rfl rfl
    (fun k => ?_) (summaryTransitionContribution_valid record) hroom
  · exact congrArg (fun id => summarySubject env .placementTransition [id, placementRef])
      hspelled.symm
  cases k with
  | transition key =>
    by_cases hk : key = (volumeKey env volumeID, placementRef)
    · subst hk
      simp [contribution]
    · simp [contribution, hk]
  | _ => rfl

theorem unlessFails_eq_ok {write' : AuthorityWrite} (h : unlessFails failure write' = .ok write) :
    write = write' := by
  unfold unlessFails at h
  split at h
  · cases h
  · cases h
    rfl

theorem report_putPlacementTransition (hspelled : Spelled env record.volumeID)
    (hroom : s.aggregate.Room (summaryTransitionContribution (some record)))
    (h : s.authority.putPlacementTransition env record failure = .ok write) :
    Report env s write := by
  rw [unlessFails_eq_ok h]
  exact report_setTransition hspelled hroom

theorem report_finalizeDrainTransition
    (hcount : Countable env s (.finalizeDrainTransition record failure))
    (h : s.authority.finalizeDrainTransition env record failure = .ok write) :
    Report env s write := by
  obtain ⟨hspelled, hroom⟩ := hcount
  unfold stored at hroom
  dsimp only at hroom
  unfold finalizeDrainTransition at h
  split at h
  · next hnone =>
    rw [hnone] at hroom
    exact report_putPlacementTransition hspelled hroom h
  next existing hexist =>
  rw [hexist] at hroom
  split at h
  · cases h
  next hsame =>
  -- the stored transition has the ids of the request
  have hspelled : Spelled env existing.volumeID := (not_not.mp hsame).1 ▸ hspelled
  exact report_putPlacementTransition hspelled hroom h

end Transitions

section Operations

variable {access : SequenceAccess} {state : OperationState}

theorem formatOperationID_plain (sequence : Nat) :
    (formatOperationID sequence).toList.all summaryIdentifierChar := by
  have hdigits : (Nat.toDigits 10 sequence).all summaryIdentifierChar := by
    rw [all_eq_true]
    intro c hc
    have hdigit := Nat.isDigit_of_mem_toDigits (by decide) (by decide) hc
    simp [summaryIdentifierChar, Char.isAlphanum, hdigit]
  have hzero : summaryIdentifierChar '0' := by decide
  rw [formatOperationID, Gateway.zeroFilled, String.toList_append, all_append,
    String.toList_ofList, String.toList_ofList, all_append, hdigits, all_replicate,
    hzero, ite_self]
  decide

theorem contribution_setOperation {a a' : AuthorityStore} {key : String} {op : StoredOperation}
    (hmembership : a'.membership = a.membership) (hvolumes : a'.volumes = a.volumes)
    (hspecs : a'.specs = a.specs) (htransitions : a'.transitions = a.transitions)
    (hops : a'.operations = Function.update a.operations key (some op)) (k : SummaryKey) :
    a'.contribution k =
      if k = .operation key then adminOperationSummaryContribution (some op)
      else a.contribution k := by
  cases k with
  | operation key' =>
    by_cases hk : key' = key
    · subst hk
      simp [contribution, hops]
    · simp [contribution, hops, hk]
  | node nodeID => simp [contribution, hmembership]
  | volume key' => simp [contribution, hvolumes, hspecs]
  | transition key' => simp [contribution, htransitions]

theorem contribution_takeSequence (a : AuthorityStore) (access : SequenceAccess) :
    (a.takeSequence access).contribution = a.contribution := by
  funext k
  cases k <;> rfl

theorem report_putOperation (op : StoredOperation) (hstate : op.state = state.text)
    (hcnt : state.Counted) (htrim : trimSpace op.operationID = op.operationID)
    (hroom : s.aggregate.Room (adminOperationSummaryContribution (some op)))
    (h : s.authority.putOperation env op = .ok write) : Report env s write := by
  unfold putOperation at h
  dsimp only at h
  rw [htrim] at h
  split at h
  · cases h
  · cases h
    exact .of_contribution (k := .operation op.operationID) rfl rfl rfl
      (contribution_setOperation rfl rfl rfl rfl rfl) (hcnt.valid hstate) hroom

theorem report_createOperation (op : OperationStatus) (hcnt : op.state.Counted)
    (hroom : s.aggregate.Room
      (adminOperationSummaryContribution (some (storedOperationFromProto op))))
    (h : s.authority.createOperation env access op = .ok write) : Report env s write := by
  have htrim := trimSpace_plain (formatOperationID_plain (s.authority.nextSequence access))
  have hreport : Report env { s with authority := s.authority.takeSequence access } write :=
    report_putOperation
      (storedOperationFromProto
        { op with
          operationID := formatOperationID (s.authority.nextSequence access)
          requestID := trimSpace op.requestID })
      rfl hcnt htrim hroom h
  cases hreport with
  | unchanged same => exact .unchanged (same.trans (contribution_takeSequence _ access))
  | moved moves valid room => exact .moved (contribution_takeSequence _ access ▸ moves) valid room

theorem report_createNodeDrain {nodeID phase requestID : String}
    (hcount : Countable env s (.createNodeDrain access nodeID phase requestID state))
    (h : s.authority.createNodeDrain env access nodeID phase requestID state = .ok write) :
    Report env s write := by
  obtain ⟨⟨hcnt, hfresh⟩, hroom⟩ := hcount
  unfold createNodeDrain at h
  dsimp only at h
  split at h
  · exact report_createOperation
      { operationID := "", kind := "node.drain", state, targetNodeID := trimSpace nodeID, phase }
      hcnt hroom h
  split at h
  · obtain ⟨-, -, h⟩ := bind_eq_ok.mp h
    cases h
    exact .unchanged rfl
  next hnone =>
  cases h
  refine .of_contribution rfl ?_ rfl (contribution_setOperation rfl rfl rfl rfl rfl)
    (hcnt.valid rfl) hroom
  -- the operation is new, as the call takes it to be
  change 0 = adminOperationSummaryContribution
    (s.authority.operations (formatOperationID (s.authority.operationSequence.getD 0 + 1)))
  rw [hfresh hnone]
  rfl

end Operations

section Memberships

variable {record : MembershipRecord} {expectedGeneration : Option Nat}

theorem report_putNodeMembership (hcnt : record.Counted)
    (hroom : s.aggregate.Room (summaryMembershipContribution (some record)))
    (h : s.authority.putNodeMembership env s.now record expectedGeneration = .ok write) :
    Report env s write := by
  obtain ⟨⟨record', membership⟩, hput, h⟩ := bind_eq_ok.mp h
  cases h
  replace hput := mapError_eq_ok.mp hput
  unfold MembershipStore.putNodeMembership at hput
  dsimp only at hput
  split at hput
  · cases hput
  obtain ⟨-, -, hput⟩ := bind_eq_ok.mp hput
  cases hput
  refine .of_contribution (k := .node _) rfl rfl rfl (fun k => ?_) hcnt.valid hroom
  cases k with
  | node nodeID =>
    simp only [contribution, MembershipStore.getMember, Table.get?_put, SummaryKey.node.injEq,
      eq_comm]
    split
    · rfl
    · rfl
  | _ => rfl

end Memberships

/-- Every call that the summary can follow reports what it does. -/
theorem report_of_countable {c : AuthorityCall}
    (hvalid : ∀ k, validateSummaryContribution (s.authority.contribution k) = .ok ())
    (hcount : Countable env s c)
    (h : s.authorityWrite env c = .ok write) : Report env s write := by
  cases c with
  | putMembership record expectedGeneration =>
    exact report_putNodeMembership hcount.1 hcount.2 h
  | deleteMembership record => exact report_putNodeMembership hcount.1 hcount.2 h
  | putVolumeState volumeID record => exact report_putVolumeState hcount h
  | putVolumeAuthority stateVolumeID state specVolumeID spec =>
    dsimp only [authorityWrite] at h
    unfold putVolumeAuthority at h
    obtain ⟨-, h⟩ := throwIf_eq_ok.mp h
    obtain ⟨hcanon, h⟩ := throwIf_eq_ok.mp h
    cases h
    exact report_setVolume (spelled_of_canonicalIdentity (not_not.mp hcanon))
      (fun _ h => Option.some.inj h ▸ hcount.1) hcount.2
  | deleteVolumeState volumeID =>
    cases h
    exact report_setVolume hcount.1 (fun _ h => nomatch h) room_zero
  | putVolumeSpec volumeID spec | deleteVolumeSpec volumeID =>
    cases h
    exact report_setVolume hcount.1 (counted_of_valid hvalid) hcount.2
  | deleteVolumeAuthority volumeID => exact report_deleteVolumeAuthority h
  | expandVolume volumeID targetSizeBytes => exact report_expandVolume hvalid hcount h
  | advanceVolume volumeID epoch revision =>
    dsimp only [authorityWrite, advanceVolume] at h
    split at h
    · cases h
    next state hstate =>
    cases h
    refine .unchanged (contribution_setVolume_same s.authority ?_)
    rw [contribution, hstate]
    rfl
  | deleteOrphanVolume volumeID => exact report_deleteOrphanVolume h
  | putTransition record failure =>
    exact report_putPlacementTransition hcount.1 hcount.2 h
  | deleteTransition volumeID placementRef failure =>
    rw [unlessFails_eq_ok h]
    exact report_setTransition hcount.1 room_zero
  | finalizeDrainTransition record failure => exact report_finalizeDrainTransition hcount h
  | createOperation access op => exact report_createOperation op hcount.1 hcount.2 h
  | createNodeDrain access nodeID phase requestID state => exact report_createNodeDrain hcount h
  | updateOperation operationID mutate =>
    obtain ⟨hnamed, hroom⟩ := hcount
    dsimp only [authorityWrite, updateOperation] at h
    split at h
    · cases h
    next op hop =>
    obtain ⟨hcnt, htrim⟩ := hnamed op hop
    unfold stored at hroom
    dsimp only at hroom
    rw [hop] at hroom
    exact report_putOperation _ rfl hcnt htrim hroom h

/-! ## Runs -/

section

variable (hs : Summarized env s)

include hs

theorem Summarized.accepts (hreport : Report env s write) :
    ∃ aggregate, SummarySystem.summarize env s.aggregate write.2 = .ok aggregate := by
  cases hreport with
  | unchanged same => exact ⟨s.aggregate, rfl⟩
  | @moved a' k change moves valid room =>
    obtain ⟨state, hstate, hactive⟩ := hs.active
    have hbefore : validateSummaryContribution change.before = .ok () := moves.before ▸ hs.counted k
    obtain ⟨aggregate, h⟩ := hs.exact.accepts hs.finite moves
      (fun state' hstate' => by
        rw [hstate] at hstate'
        cases hstate'
        exact hactive)
      hbefore valid (fun _ => room _ k.shard_lt)
    exact ⟨aggregate, mapError_eq_ok.mpr h⟩

theorem Summarized.failed (c : AuthorityCall) : Summarized env (s.failed c) := by
  have hseq : ∀ access, Summarized env
      { s with authority := s.authority.takeSequence access } := fun access =>
    ⟨hs.active, (contribution_takeSequence s.authority access) ▸ hs.finite,
      (contribution_takeSequence s.authority access) ▸ hs.exact,
      (contribution_takeSequence s.authority access) ▸ hs.counted⟩
  cases c with
  | createOperation access op => exact hseq access
  | createNodeDrain access nodeID phase requestID state =>
    unfold SummarySystem.failed
    dsimp only
    split
    · exact hseq access
    · exact hs
  | _ => exact hs

theorem Summarized.apply {e : Event} (hallowed : Allowed env s e) :
    Summarized env (s.apply env e) := by
  cases e with
  | tick elapsed => exact ⟨hs.active, hs.finite, hs.exact, hs.counted⟩
  | call c =>
    unfold SummarySystem.apply
    dsimp only
    split
    · next s' h =>
      obtain ⟨⟨authority, change⟩, hwrite, h⟩ := bind_eq_ok.mp h
      obtain ⟨aggregate, hsummarize, h⟩ := bind_eq_ok.mp h
      cases h
      obtain ⟨state, hstate, hvalid⟩ := hs.active
      cases report_of_countable hs.counted hallowed hwrite with
      | unchanged same =>
        cases hsummarize
        exact ⟨⟨state, hstate, hvalid⟩, same ▸ hs.finite, same ▸ hs.exact, same ▸ hs.counted⟩
      | @moved a' k change moves valid room =>
        have happly := mapError_eq_ok.mp hsummarize
        obtain ⟨hexact, hsame⟩ := hs.exact.apply hs.finite moves (by simp [hstate]) happly
        refine ⟨⟨state, hsame.trans hstate, hvalid⟩, moves.finite hs.finite, hexact, fun k' => ?_⟩
        by_cases hk : k' = k
        · rw [hk, ← moves.after, valid]
        · rw [moves.frame k' hk]
          exact hs.counted k'
    · exact hs.failed c

end

theorem summarized_empty {state : SummaryAggregateState}
    (hvalid : validateSummaryAggregateState state = .ok ()) :
    Summarized env { aggregate := { state := some state } } := by
  have hzero : contribution {} = 0 := by
    funext k
    cases k <;> rfl
  refine ⟨⟨state, rfl, hvalid⟩, ?_, fun i _ => ?_, fun k => ?_⟩
  · simp [hzero]
  · rw [hzero, finsum_eq_zero_of_forall_eq_zero fun k => ?_]
    · rfl
    · rw [part, Pi.zero_apply, ite_self]
  · rw [hzero]
    exact validateSummaryContribution_zero

/-- After a promoted rebuild the shard counters add up to the contributions of all records, and a
call that succeeds without an active aggregate succeeds with it. -/
theorem summary_follows_authority {s₀ : SummarySystem} {es : List Event}
    (hpromoted : Summarized env s₀) (hallowed : Trace.Guarded (step env) (Allowed env) s₀ es)
    (hrun : Trace.run (step env) s₀ es = some s) :
    ∑ i ∈ Finset.range summaryVirtualShardCount, s.aggregate.counters i =
        ∑ᶠ k, s.authority.contribution k ∧
      ∀ c, Countable env s c → ∀ s', call env { s with aggregate := {} } c = .ok s' →
        ∃ s'', s.call env c = .ok s'' ∧ s''.authority = s'.authority := by
  have hs : Summarized env s :=
    Trace.run_induction (Summarized env)
      (fun s e s' hs hallowed hstep => by
        cases hstep
        exact hs.apply hallowed)
      hpromoted hallowed hrun
  refine ⟨?_, fun c hcount s' h => ?_⟩
  · rw [← sum_finsum_part hs.finite SummaryKey.shard_lt]
    exact Finset.sum_congr rfl fun i hi => hs.exact i (Finset.mem_range.mp hi)
  obtain ⟨⟨authority, change⟩, hwrite, h⟩ := bind_eq_ok.mp h
  obtain ⟨aggregate, hsummarize, h⟩ := bind_eq_ok.mp h
  cases h
  -- what a call writes does not depend on the aggregate
  have hwrite : s.authorityWrite env c = .ok (authority, change) := by
    cases c <;> exact hwrite
  obtain ⟨aggregate', haccepted⟩ := hs.accepts (report_of_countable hs.counted hcount hwrite)
  exact ⟨_, bind_eq_ok.mpr ⟨_, hwrite, bind_eq_ok.mpr ⟨_, haccepted, rfl⟩⟩, rfl⟩

/-- Surroundings in which every id is canonical. -/
def plainEnv : SummaryEnv where
  canonicalVolumeID := some
  hashByte := fun _ => 0
  subjectDigest := fun _ => String.ofList (List.replicate 64 'a')
  subjectDigest_length := fun _ => by rw [String.length_ofList, List.length_replicate]
  subjectDigest_digits := fun _ => by decide +kernel

/-- The system after a rebuild over no records. -/
def promoted : SummarySystem where
  aggregate.state := some
    { state := .ready, activeEpoch := "epoch-1", sourceRevision := 1, updatedAtUnix := 1 }

def node (lifecycleState : NodeLifecycleState) : MembershipRecord where
  nodeID := "node-1"
  lifecycleState := lifecycleState
  healthState := .healthy

/-- An active node is put and the summary counts it. -/
theorem summary_follows_active_node :
    let s := promoted.apply plainEnv (.call (.putMembership (node .active) none))
    s.aggregate.counters 0 .activeNodes = 1 ∧
      ∑ i ∈ Finset.range summaryVirtualShardCount, s.aggregate.counters i =
          ∑ᶠ k, s.authority.contribution k ∧
        ∀ c, Countable plainEnv s c → ∀ s', call plainEnv { s with aggregate := {} } c = .ok s' →
          ∃ s'', s.call plainEnv c = .ok s'' ∧ s''.authority = s'.authority := by
  have hcnt : (node .active).Counted := by decide +kernel
  have hroom : promoted.aggregate.Room (summaryMembershipContribution (some (node .active))) := by
    decide +kernel
  have hallowed : Trace.Guarded (step plainEnv) (Allowed plainEnv) promoted
      [.call (.putMembership (node .active) none)] := ⟨⟨hcnt, hroom⟩, fun _ _ => trivial⟩
  refine ⟨by decide +kernel, ?_⟩
  exact summary_follows_authority (summarized_empty (by decide +kernel)) hallowed rfl

/-- The put of a node that is joining succeeds as long as there is no aggregate, and an active one
refuses it. -/
theorem joining_node_refused : Summarized plainEnv promoted ∧
      (call plainEnv { promoted with aggregate := {} } (.putMembership (node .joining) none)).isOk ∧
      (promoted.call plainEnv (.putMembership (node .joining) none)).map (fun _ => ()) =
        .error (.summary .nodeContribution) := by
  refine ⟨summarized_empty (by decide +kernel), ?_, ?_⟩
  · decide +kernel
  · decide +kernel

end SummarySystem

end Namrbd
