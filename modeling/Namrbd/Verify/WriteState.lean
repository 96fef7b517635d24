import Namrbd.Replication.WriteState

/-!
# The pipeline state of a write, over any sequence of calls

A late acknowledgement sets the state to `payloadQuorumDone` whatever it was, and a
failure sets it to `failed` even after the write was acknowledged
(`late_ack_leaves_failed`). The pipeline is monotone over the orderly sequences of
calls. The invariant ties what the execution records to the calls that were made.
-/

namespace Namrbd

open List Table WriteExecution

def ExtentWriteStatus.planned (status : ExtentWriteStatus) : List String :=
  (status.plan.primary :: status.plan.writeTargets).map (·.replicaID)

namespace WriteExecution

/-- An acknowledgement is of a planned replica and finds the write under way; a failure
does not find it acknowledged. -/
def Orderly (w : WriteExecution) : WriteCall → Prop
  | .markReplicaAck extentIndex replicaID _ =>
    (w.state ≠ .failed ∧ w.state ≠ .metadataCommitted ∧ w.state ≠ .acked) ∧
      ∀ status ∈ (w.extentStatus extentIndex).toOption, replicaID ∈ status.planned
  | .markExtentFailed _ _ => w.state ≠ .acked
  | .markFailed _ => w.state ≠ .acked
  | _ => True

instance (w : WriteExecution) : (c : WriteCall) → Decidable (w.Orderly c)
  | .markReplicaAck _ _ _ =>
    inferInstanceAs (Decidable ((_ ≠ _ ∧ _ ≠ _ ∧ _ ≠ _) ∧ ∀ status ∈ _, _ ∈ _))
  | .markExtentFailed _ _ => inferInstanceAs (Decidable (_ ≠ _))
  | .markFailed _ => inferInstanceAs (Decidable (_ ≠ _))
  | .markValidated => isTrue trivial
  | .markIntentPending => isTrue trivial
  | .markMetadataCommitted => isTrue trivial
  | .markAcked => isTrue trivial

def OrderlyRun (w : WriteExecution) : List WriteCall → Prop
  | [] => True
  | c :: calls => w.Orderly c ∧ (w.call c).OrderlyRun calls

instance decidableOrderlyRun (w : WriteExecution) :
    (calls : List WriteCall) → Decidable (w.OrderlyRun calls)
  | [] => isTrue trivial
  | c :: calls => @instDecidableAnd _ _ _ (decidableOrderlyRun (w.call c) calls)

/-! ## What a call does -/

variable {w : WriteExecution} {status : ExtentWriteStatus} {c : WriteCall}

theorem extentStatus_eq_ok {extentIndex : Int} :
    w.extentStatus extentIndex = .ok status ↔
      ∃ i : Nat, extentIndex = i ∧ w.extents[i]? = some status := by
  unfold extentStatus
  constructor
  · intro h
    split at h
    · cases h
    next hneg =>
    refine ⟨extentIndex.toNat, by omega, ?_⟩
    cases hget : w.extents[extentIndex.toNat]? with
    | none => rw [hget] at h; cases h
    | some status' =>
      rw [hget] at h
      cases h
      rfl
  · rintro ⟨i, rfl, hget⟩
    rw [if_neg (by omega), Int.toNat_natCast, hget]

/-- What an acknowledgement does: nothing, or it is recorded with its extent. -/
theorem call_markReplicaAck (w : WriteExecution) (extentIndex : Int) (replicaID : String)
    (requirePrimaryAck : Bool) :
    w.call (.markReplicaAck extentIndex replicaID requirePrimaryAck) = w ∨
      ∃ i status, extentIndex = (i : Nat) ∧ w.extents[i]? = some status ∧ ∃ state,
        (state = w.state ∨ state = .payloadQuorumDone) ∧
        w.call (.markReplicaAck extentIndex replicaID requirePrimaryAck) = { w with
          extents := w.extents.set i (status.markReplicaAck requirePrimaryAck replicaID)
          state := state } := by
  simp only [call, result, markReplicaAckWithPolicy]
  cases hstat : w.extentStatus extentIndex with
  | error err => exact .inl rfl
  | ok status =>
    obtain ⟨i, rfl, hget⟩ := extentStatus_eq_ok.mp hstat
    simp only [Result.ok_bind]
    by_cases hfailed : status.failed = true
    · rw [if_pos hfailed]
      exact .inl rfl
    rw [if_neg hfailed]
    refine .inr ⟨i, status, rfl, hget, ?_⟩
    split
    · exact ⟨.payloadQuorumDone, .inr rfl, rfl⟩
    · exact ⟨w.state, .inl rfl, rfl⟩

theorem call_markExtentFailed (w : WriteExecution) (extentIndex : Int) (err : Option String) :
    (w.call (.markExtentFailed extentIndex err) = w ∧
        ∀ i : Nat, extentIndex = i → w.extents[i]? = none) ∨
      ∃ i status lastError message, extentIndex = (i : Nat) ∧ w.extents[i]? = some status ∧
        w.call (.markExtentFailed extentIndex err) = { w with
          extents := w.extents.set i { status with failed := true, lastError := lastError }
          lastError := message
          state := .failed } := by
  simp only [call, result, markExtentFailed]
  cases hstat : w.extentStatus extentIndex with
  | error error =>
    refine .inl ⟨rfl, fun i hi => ?_⟩
    cases hget : w.extents[i]? with
    | none => rfl
    | some status => exact nomatch hstat.symm.trans (extentStatus_eq_ok.mpr ⟨i, hi, hget⟩)
  | ok status =>
    obtain ⟨i, rfl, hget⟩ := extentStatus_eq_ok.mp hstat
    refine .inr ⟨i, status, err.getD status.lastError, err.getD w.lastError, rfl, hget, ?_⟩
    rfl

/-! ## The invariant -/

structure Recorded (calls : List WriteCall) (i : Nat) (status : ExtentWriteStatus) : Prop where
  sorted : Table.Sorted id status.ackedReplicaIDs
  acked : ∀ replicaID ∈ status.ackedReplicaIDs, replicaID ∈ status.planned ∧
    ∃ requirePrimaryAck, .markReplicaAck i replicaID requirePrimaryAck ∈ calls
  primary : status.primaryAcked = true →
    ∃ requirePrimaryAck, .markReplicaAck i status.plan.primary.replicaID requirePrimaryAck ∈ calls
  quorum : status.quorumReached = true →
    status.plan.requiredAcks ≤ status.ackedReplicaIDs.length ∧
      (status.primaryAcked = true ∨ ∃ replicaID, .markReplicaAck i replicaID false ∈ calls)
  failed : status.failed = false → ∀ err, .markExtentFailed i err ∉ calls

variable {calls : List WriteCall} {i : Nat}

/-- One more call, which no more than marks the extent failed. -/
theorem Recorded.later (h : Recorded calls i status) {failed : Bool} {lastError : String}
    (hc : failed = false → status.failed = false ∧ ∀ err, c ≠ .markExtentFailed i err) :
    Recorded (calls ++ [c]) i { status with failed := failed, lastError := lastError } where
  sorted := h.sorted
  acked replicaID hid := by
    obtain ⟨hplan, policy, hmem⟩ := h.acked replicaID hid
    exact ⟨hplan, policy, mem_append_left _ hmem⟩
  primary hprimary := by
    obtain ⟨policy, hmem⟩ := h.primary hprimary
    exact ⟨policy, mem_append_left _ hmem⟩
  quorum hquorum := by
    refine ⟨(h.quorum hquorum).1, (h.quorum hquorum).2.imp_right ?_⟩
    rintro ⟨replicaID, hmem⟩
    exact ⟨replicaID, mem_append_left _ hmem⟩
  failed hfailed err hmem := by
    obtain ⟨hwas, hc⟩ := hc hfailed
    rcases mem_append.mp hmem with hmem | hmem
    · exact h.failed hwas err hmem
    · exact hc err (mem_singleton.mp hmem).symm

theorem Recorded.append (h : Recorded calls i status) (hc : ∀ err, c ≠ .markExtentFailed i err) :
    Recorded (calls ++ [c]) i status :=
  h.later fun hfailed => ⟨hfailed, hc⟩

theorem Recorded.markReplicaAck (h : Recorded calls i status) {replicaID : String}
    (hplan : replicaID ∈ status.planned) (requirePrimaryAck : Bool) :
    Recorded (calls ++ [.markReplicaAck i replicaID requirePrimaryAck]) i
      (status.markReplicaAck requirePrimaryAck replicaID) := by
  have hold := h.append (c := .markReplicaAck i replicaID requirePrimaryAck) fun _ => nofun
  have hlast : WriteCall.markReplicaAck i replicaID requirePrimaryAck ∈
      calls ++ [.markReplicaAck i replicaID requirePrimaryAck] :=
    mem_append_right _ mem_cons_self
  have hlen : status.ackedReplicaIDs.length ≤
      (put id replicaID status.ackedReplicaIDs).length := length_le_length_put _ _
  refine ⟨h.sorted.put replicaID, fun other hother => ?_, fun hprimary => ?_, fun hquorum => ?_,
    hold.failed⟩
  · rcases mem_put hother with rfl | hother
    · exact ⟨hplan, requirePrimaryAck, hlast⟩
    · exact hold.acked other hother
  · rcases Bool.or_eq_true_iff.mp hprimary with hprimary | hid
    · exact hold.primary hprimary
    · rw [beq_iff_eq] at hid
      subst hid
      exact ⟨requirePrimaryAck, hlast⟩
  · rcases Bool.or_eq_true_iff.mp hquorum with hquorum | hreached
    · obtain ⟨hcount, hprimary⟩ := hold.quorum hquorum
      refine ⟨hcount.trans hlen, hprimary.imp_left fun hacked => ?_⟩
      exact Bool.or_eq_true_iff.mpr (.inl hacked)
    · obtain ⟨hpolicy, hcount⟩ := Bool.and_eq_true_iff.mp hreached
      refine ⟨of_decide_eq_true hcount, ?_⟩
      rcases Bool.or_eq_true_iff.mp hpolicy with hpolicy | hacked
      · rw [Bool.not_eq_true'] at hpolicy
        subst hpolicy
        exact .inr ⟨replicaID, hlast⟩
      · exact .inl hacked

structure Inv (calls : List WriteCall) (w : WriteExecution) : Prop where
  recorded : ∀ i status, w.extents[i]? = some status → Recorded calls i status
  noneFailed : w.state ≠ .failed → ∀ status ∈ w.extents, status.failed = false
  committed : w.state = .metadataCommitted → ∀ status ∈ w.extents, status.quorumReached = true

theorem Fresh.inv (h : w.Fresh) : Inv [] w where
  recorded i status hget := by
    rw [h.2 status (mem_of_getElem? hget)]
    exact ⟨List.Pairwise.nil, nofun, nofun, nofun, fun _ _ => nofun⟩
  noneFailed _ status hstat := by rw [h.2 status hstat]
  committed hstate := by
    rw [h.1] at hstate
    cases hstate

theorem Inv.append (h : Inv calls w) (c : WriteCall)
    (hc : ∀ i : Nat, i < w.extents.length → ∀ err, c ≠ .markExtentFailed i err)
    {state : WritePipelineState} {message : String} (hfailed : state ≠ .failed → w.state ≠ .failed)
    (hcomm : state = .metadataCommitted →
      w.state = .metadataCommitted ∨ ∀ status ∈ w.extents, status.quorumReached = true) :
    Inv (calls ++ [c]) { w with state := state, lastError := message } where
  recorded i status hget :=
    (h.recorded i status hget).append (hc i (List.getElem?_eq_some_iff.mp hget).1)
  noneFailed hstate := h.noneFailed (hfailed hstate)
  committed hstate := (hcomm hstate).elim h.committed id

/-! ## One call -/

/-- An orderly call keeps the invariant. -/
theorem Inv.call (h : Inv calls w) (c : WriteCall) (hc : w.Orderly c) :
    Inv (calls ++ [c]) (w.call c) := by
  cases c with
  | markValidated =>
    simp only [WriteExecution.call, result, markValidated]
    split
    · next hstate =>
      exact h.append .markValidated (fun _ _ _ => nofun) (fun _ => by simp [hstate]) nofun
    · exact h.append .markValidated (fun _ _ _ => nofun) id .inl
  | markIntentPending =>
    simp only [WriteExecution.call, result, markIntentPending]
    split
    · next hstate =>
      exact h.append .markIntentPending (fun _ _ _ => nofun)
        (fun _ => by rcases hstate with hs | hs <;> simp [hs]) nofun
    · exact h.append .markIntentPending (fun _ _ _ => nofun) id .inl
  | markReplicaAck extentIndex replicaID requirePrimaryAck =>
    obtain ⟨⟨hopen, hnotCommitted, -⟩, hplan⟩ := hc
    rcases call_markReplicaAck w extentIndex replicaID requirePrimaryAck with
      hcall | ⟨i, status, rfl, hget, state, hstate, hcall⟩
    · rw [hcall]
      exact h.append (.markReplicaAck extentIndex replicaID requirePrimaryAck)
        (fun _ _ _ => nofun) id .inl
    rw [hcall]
    refine ⟨fun j status' hget' => ?_, fun _ status' hstat' => ?_, fun hcomm => ?_⟩
    · rw [getElem?_set] at hget'
      split at hget'
      · next hij =>
        subst hij
        rw [if_pos (List.getElem?_eq_some_iff.mp hget).1] at hget'
        cases hget'
        exact (h.recorded i status hget).markReplicaAck
          (hplan status (by rw [extentStatus_eq_ok.mpr ⟨i, rfl, hget⟩]; rfl)) requirePrimaryAck
      · exact (h.recorded j status' hget').append fun _ => nofun
    · rcases mem_or_eq_of_mem_set hstat' with hstat' | rfl
      · exact h.noneFailed hopen status' hstat'
      · exact h.noneFailed hopen status (mem_of_getElem? hget)
    · rcases hstate with rfl | rfl
      · exact absurd hcomm hnotCommitted
      · cases hcomm
  | markExtentFailed extentIndex err =>
    rcases call_markExtentFailed w extentIndex err with
      ⟨hcall, hnone⟩ | ⟨i, status, lastError, message, rfl, hget, hcall⟩
    · rw [hcall]
      refine h.append (.markExtentFailed extentIndex err) (fun i hi err heq => ?_) id .inl
      cases heq
      exact absurd (hnone i rfl) (by simp [hi])
    · rw [hcall]
      refine ⟨fun j status' hget' => ?_, fun hstate => absurd rfl hstate, nofun⟩
      rw [getElem?_set] at hget'
      split at hget'
      · next hij =>
        subst hij
        rw [if_pos (List.getElem?_eq_some_iff.mp hget).1] at hget'
        cases hget'
        exact (h.recorded i status hget).later nofun
      · next hij =>
        refine (h.recorded j status' hget').append fun err' heq => hij ?_
        simpa using (WriteCall.markExtentFailed.inj heq).1
  | markMetadataCommitted =>
    simp only [WriteExecution.call, result, markMetadataCommitted]
    split
    · next hready =>
      simp only [canCommitMetadata, allExtentsQuorumReached, Bool.and_eq_true, beq_iff_eq,
        all_eq_true] at hready
      refine h.append .markMetadataCommitted (fun _ _ _ => nofun) (fun _ => ?_) fun _ => .inr hready.2.2
      rw [hready.1]
      nofun
    · exact h.append .markMetadataCommitted (fun _ _ _ => nofun) id .inl
  | markAcked =>
    simp only [WriteExecution.call, result, markAcked]
    split
    · exact h.append .markAcked (fun _ _ _ => nofun) id .inl
    · next hstate =>
      rw [not_not] at hstate
      exact h.append .markAcked (fun _ _ _ => nofun) (fun _ => by simp [hstate]) nofun
  | markFailed err =>
    exact h.append (.markFailed err) (fun _ _ _ => nofun) (fun hstate => absurd rfl hstate) nofun

/-- An orderly call does not leave `failed` or `acked`, nor go back from
`metadataCommitted`. -/
theorem state_call (hc : w.Orderly c) :
    (w.state = .failed → (w.call c).state = .failed) ∧
    (w.state = .acked → (w.call c).state = .acked) ∧
    (w.state = .metadataCommitted → (w.call c).state = .metadataCommitted ∨
      (w.call c).state = .acked ∨ (w.call c).state = .failed) := by
  cases c with
  | markValidated =>
    simp only [call, result, markValidated]
    split
    · next hstate => simp [hstate]
    · exact ⟨id, id, .inl⟩
  | markIntentPending =>
    simp only [call, result, markIntentPending]
    split
    · next hstate => rcases hstate with hstate | hstate <;> simp [hstate]
    · exact ⟨id, id, .inl⟩
  | markReplicaAck extentIndex replicaID requirePrimaryAck =>
    obtain ⟨⟨hfailed, hcomm, hacked⟩, -⟩ := hc
    exact ⟨fun h => absurd h hfailed, fun h => absurd h hacked, fun h => absurd h hcomm⟩
  | markExtentFailed extentIndex err =>
    have hstate : (w.call (.markExtentFailed extentIndex err)).state = w.state ∨
        (w.call (.markExtentFailed extentIndex err)).state = .failed := by
      rcases call_markExtentFailed w extentIndex err with ⟨hcall, -⟩ | ⟨_, _, _, _, -, -, hcall⟩
      · exact .inl (by rw [hcall])
      · exact .inr (by rw [hcall])
    refine ⟨fun h => hstate.elim (fun hs => hs.trans h) id, fun h => absurd h hc, fun h => ?_⟩
    exact hstate.elim (fun hs => .inl (hs.trans h)) fun hs => .inr (.inr hs)
  | markMetadataCommitted =>
    simp only [call, result, markMetadataCommitted]
    split
    · next hready =>
      simp only [canCommitMetadata, Bool.and_eq_true, beq_iff_eq] at hready
      simp [hready.1]
    · exact ⟨id, id, .inl⟩
  | markAcked =>
    simp only [call, result, markAcked]
    split
    · exact ⟨id, id, .inl⟩
    · next hstate =>
      rw [not_not] at hstate
      exact ⟨by simp [hstate], by simp [hstate], fun _ => .inr (.inl rfl)⟩
  | markFailed err => exact ⟨fun _ => rfl, fun h => absurd h hc, fun _ => .inr (.inr rfl)⟩

/-! ## Runs -/

theorem Inv.run {done : List WriteCall} (h : Inv done w) (hrun : w.OrderlyRun calls) :
    Inv (done ++ calls) (calls.foldl WriteExecution.call w) := by
  induction calls generalizing w done with
  | nil => simpa using h
  | cons c calls ih =>
    rw [foldl_cons, append_cons]
    exact ih (h.call c hrun.1) hrun.2

theorem OrderlyRun.append {rest : List WriteCall} (h : w.OrderlyRun (calls ++ rest)) :
    w.OrderlyRun calls ∧ (calls.foldl call w).OrderlyRun rest := by
  induction calls generalizing w with
  | nil => exact ⟨trivial, h⟩
  | cons c calls ih => exact ⟨⟨h.1, (ih h.2).1⟩, (ih h.2).2⟩

/-- The calls have acknowledged an extent: enough distinct replicas of its plan, the
primary among them unless some call did not ask for it, and no failure. -/
structure Acknowledged (calls : List WriteCall) (i : Nat) (status : ExtentWriteStatus) : Prop where
  quorum : ∃ replicaIDs : List String, replicaIDs.Nodup ∧
    status.plan.requiredAcks ≤ replicaIDs.length ∧
    ∀ replicaID ∈ replicaIDs, replicaID ∈ status.planned ∧
      ∃ requirePrimaryAck, .markReplicaAck i replicaID requirePrimaryAck ∈ calls
  primary : (∀ replicaID, .markReplicaAck i replicaID false ∉ calls) →
    ∃ requirePrimaryAck, .markReplicaAck i status.plan.primary.replicaID requirePrimaryAck ∈ calls
  notFailed : status.failed = false ∧ ∀ err, .markExtentFailed i err ∉ calls

theorem Recorded.acknowledged (h : Recorded calls i status) (hquorum : status.quorumReached = true)
    (hfailed : status.failed = false) : Acknowledged calls i status where
  quorum := ⟨status.ackedReplicaIDs, h.sorted.pairwise_ne, (h.quorum hquorum).1, h.acked⟩
  primary hpolicy := by
    rcases (h.quorum hquorum).2 with hprimary | ⟨replicaID, hmem⟩
    · exact h.primary hprimary
    · exact absurd hmem (hpolicy replicaID)
  notFailed := ⟨hfailed, h.failed hfailed⟩

/-- In an orderly run the pipeline never leaves `failed` or `acked`, never goes back from
`metadataCommitted`, and is at `metadataCommitted` only when the calls have acknowledged
every extent. -/
theorem pipeline_ordered (w : WriteExecution) (hfresh : w.Fresh) (calls : List WriteCall)
    (hrun : w.OrderlyRun calls) (done : List WriteCall) (c : WriteCall) (rest : List WriteCall)
    (hcalls : calls = done ++ c :: rest) :
    ((done.foldl call w).state = .failed → ((done.foldl call w).call c).state = .failed) ∧
    ((done.foldl call w).state = .acked → ((done.foldl call w).call c).state = .acked) ∧
    ((done.foldl call w).state = .metadataCommitted →
      ((done.foldl call w).call c).state = .metadataCommitted ∨
      ((done.foldl call w).call c).state = .acked ∨
      ((done.foldl call w).call c).state = .failed) ∧
    (((done.foldl call w).call c).state = .metadataCommitted →
      ∀ i status, ((done.foldl call w).call c).extents[i]? = some status →
        Acknowledged (done ++ [c]) i status) := by
  subst hcalls
  obtain ⟨hdone, hrest⟩ := hrun.append
  have hinv : Inv (done ++ [c]) ((done.foldl call w).call c) := by
    have hbefore := hfresh.inv.run hdone
    exact hbefore.call c hrest.1
  obtain ⟨hfailed, hacked, hcomm⟩ := state_call hrest.1
  refine ⟨hfailed, hacked, hcomm, fun hstate i status hget => ?_⟩
  have hmem := mem_of_getElem? hget
  exact (hinv.recorded i status hget).acknowledged (hinv.committed hstate status hmem)
    (hinv.noneFailed (by rw [hstate]; nofun) status hmem)

/-! ## Two extents with one replica each -/

namespace LateAck

def primary : ReplicaTarget := ⟨"node-a", "rep-a", .primary, "rack-a"⟩

def plan (extentID : Nat) : ExtentWritePlan :=
  { extent := ⟨extentID, extentID * 4096, 4096, 0, "placement", 1⟩
    replicaSetID := "set", primary := primary, writeTargets := [primary], requiredAcks := 1
    replicaSetEpoch := 1, allocationPages := [], chunkSizeBytes := 4096 }

def write : WriteExecution :=
  { attachmentID := "attachment", generation := 1, idempotencyKey := "key", metadataEpoch := 1
    metadataRevision := 1, extents := [{ plan := plan 0 }, { plan := plan 1 }] }

/-- Acknowledgements of a replica no extent is planned for, then a failure. -/
def failing : List WriteCall :=
  [.markReplicaAck 0 "rep-x" false, .markReplicaAck 1 "rep-x" false, .markExtentFailed 0 none]

/-- The same acknowledgement again, and the commit it makes possible. -/
def late : List WriteCall := [.markReplicaAck 1 "rep-x" false, .markMetadataCommitted]

/-- A late acknowledgement takes a failed write back to `payloadQuorumDone`, where it
commits with a failed extent and no planned replica acknowledged; another one takes the
committed write back; and a failure takes an acknowledged write to `failed`. -/
theorem late_ack_leaves_failed : write.Fresh ∧
    (failing.foldl call write).state = .failed ∧
    ((failing ++ late).foldl call write).state = .metadataCommitted ∧
    ((failing ++ late).foldl call write).extents.any (·.failed) = true ∧
    (((failing ++ late).foldl call write).extents.all fun status =>
      status.ackedReplicaIDs.all fun replicaID => replicaID ∉ status.planned) = true ∧
    ((failing ++ late ++ [WriteCall.markReplicaAck 1 "rep-x" false]).foldl call write).state =
      .payloadQuorumDone ∧
    ((failing ++ late ++ [WriteCall.markAcked]).foldl call write).state = .acked ∧
    ((failing ++ late ++ [WriteCall.markAcked, WriteCall.markFailed none]).foldl call write).state =
      .failed := by
  decide

def acknowledged : List WriteCall :=
  [.markValidated, .markIntentPending, .markReplicaAck 0 "rep-a" true,
    .markReplicaAck 1 "rep-a" true, .markMetadataCommitted]

/-- A write that all its replicas acknowledge commits its metadata. -/
theorem acknowledged_write_commits : write.Fresh ∧ write.OrderlyRun acknowledged ∧
    (acknowledged.foldl call write).state = .metadataCommitted ∧
    ∀ i status, (acknowledged.foldl call write).extents[i]? = some status →
      Acknowledged acknowledged i status :=
  ⟨by decide, by decide, by decide,
    (pipeline_ordered write (by decide) acknowledged (by decide) (acknowledged.take 4)
      .markMetadataCommitted [] rfl).2.2.2 (by decide)⟩

end LateAck

end WriteExecution

end Namrbd
