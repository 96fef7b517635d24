import Mathlib.Data.Nat.Init
import Namrbd.Node.Revisions

/-!
# Order of a node's revisions

What a node has returned is at most its counter, or what it has stored while the counter is not
initialized. A restart drops the counter, and with it the revisions of the physical chunks
written since the last logical write.
-/

namespace Namrbd.Node

open List

variable {volumeID : String} {event : RevisionEvent}

/-! ## Commit ids -/

theorem revision_of_commitID {a b : CommitKind × Nat}
    (h : commitID volumeID a = commitID volumeID b) : a.2 = b.2 := by
  have hdigits : ∀ {start : String} {m n : Nat}, start ++ toString m = start ++ toString n →
      m = n := by
    intro start m n h
    have hm := congrArg (Nat.ofDigitChars 10 · 0)
      (String.ofList_injective ((String.append_right_inj _).mp h))
    simpa only [Nat.ofDigitChars_ten_toDigits] using hm
  have hkind : ∀ {m n : Nat},
      commitID volumeID (.logical, m) ≠ commitID volumeID (.physical, n) := by
    intro m n h
    unfold commitID at h
    have hhead := congrArg (·.toList.head?) h
    simp at hhead
  obtain ⟨_ | _, m⟩ := a <;> obtain ⟨_ | _, n⟩ := b
  · exact hdigits h
  · exact absurd h hkind
  · exact absurd h.symm hkind
  · exact hdigits h

/-- The revisions of the commits go up, to at most `bound`. -/
structure IncreasingTo (bound : Nat) (commits : List (CommitKind × Nat)) : Prop where
  pairwise : commits.Pairwise (·.2 < ·.2)
  le : ∀ c ∈ commits, c.2 ≤ bound

section

variable {b b' : Nat} {commits : List (CommitKind × Nat)}

theorem IncreasingTo.mono (h : IncreasingTo b commits) (hle : b ≤ b') : IncreasingTo b' commits :=
  ⟨h.pairwise, fun c hc => (h.le c hc).trans hle⟩

theorem IncreasingTo.concat (h : IncreasingTo b commits) (kind : CommitKind) (hlt : b < b') :
    IncreasingTo b' (commits ++ [(kind, b')]) := by
  constructor
  · refine pairwise_append.mpr ⟨h.pairwise, pairwise_singleton _ _, fun c hc c' hc' => ?_⟩
    rw [mem_singleton.mp hc']
    exact (h.le c hc).trans_lt hlt
  · intro c hc
    obtain hc | hc := mem_append.mp hc
    · exact (h.le c hc).trans hlt.le
    · rw [mem_singleton.mp hc]

end

namespace NodeRevisions

variable {s t : NodeRevisions}

def last (s : NodeRevisions) : Nat :=
  if s.counter.initialized then s.counter.value else s.volumeRevision

structure Increasing (s : NodeRevisions) : Prop where
  stored : s.volumeRevision ≤ s.last
  commits : IncreasingTo s.last s.commits

def RestartsStored (s : NodeRevisions) : RevisionEvent → Bool
  | .restart => s.counter.value ≤ s.volumeRevision
  | _ => true

/-- An event keeps the order of the revisions. -/
theorem Increasing.step (h : s.Increasing) (hallowed : s.RestartsStored event)
    (hstep : s.step event = some t) : t.Increasing := by
  have hstored := h.stored
  have hinit : s.last ≤ max s.counter.value s.volumeRevision := by
    unfold last
    split <;> omega
  cases event with
  | openVolume c stateRead =>
    dsimp only [NodeRevisions.step] at hstep
    split at hstep <;> cases hstep
    · exact h
    cases stateRead with
    | false => exact ⟨h.stored, h.commits⟩
    | true => exact ⟨Nat.le_max_right _ _, h.commits.mono hinit⟩
  | write handle c ending =>
    dsimp only [NodeRevisions.step] at hstep
    split at hstep <;> cases hstep
    · exact h
    have hlt : s.last < max (s.counter.value + 1) (s.volumeRevision + 1) := by omega
    cases ending with
    | stateNotStored => exact ⟨by dsimp [bumpVolumeRevision, last]; omega, h.commits.mono hlt.le⟩
    | idempotencyNotStored => exact ⟨Nat.le_refl _, h.commits.mono hlt.le⟩
    | answered => exact ⟨Nat.le_refl _, h.commits.concat .logical hlt⟩
  | writePhysicalChunk handle c answered =>
    dsimp only [NodeRevisions.step] at hstep
    split at hstep <;> cases hstep
    · exact h
    obtain ⟨value, hcounter, hlast⟩ : ∃ value, (if s.counter.initialized then s.counter
        else s.initializeObservedVolumeRevision) = ⟨value, true⟩ ∧ s.last ≤ value := by
      unfold last
      split
      · next hset => exact ⟨_, by rw [← hset], le_rfl⟩
      · exact ⟨_, rfl, Nat.le_max_right _ _⟩
    unfold observePhysicalWriteRevision
    rw [hcounter]
    cases answered with
    | false =>
      have hle : s.last ≤ value + 1 := by omega
      exact ⟨hstored.trans hle, h.commits.mono hle⟩
    | true =>
      have hlt : s.last < value + 1 := by omega
      exact ⟨hstored.trans hlt.le, h.commits.concat .physical hlt⟩
  | restart =>
    cases hstep
    have hle := of_decide_eq_true hallowed
    exact ⟨Nat.le_refl _, h.commits.mono (hinit.trans (max_le hle le_rfl))⟩

/-- The logical writes alone go up, to at most the revision stored. -/
def LogicalIncreasing (s : NodeRevisions) : Prop :=
  IncreasingTo s.volumeRevision (s.commits.filter (·.1 = .logical))

theorem LogicalIncreasing.step (h : s.LogicalIncreasing) (hstep : s.step event = some t) :
    t.LogicalIncreasing := by
  cases event with
  | openVolume c stateRead =>
    dsimp only [NodeRevisions.step] at hstep
    split at hstep <;> cases hstep <;> exact h
  | write handle c ending =>
    dsimp only [NodeRevisions.step] at hstep
    split at hstep <;> cases hstep
    · exact h
    have hlt : s.volumeRevision < max (s.counter.value + 1) (s.volumeRevision + 1) := by omega
    cases ending with
    | stateNotStored => exact h
    | idempotencyNotStored => exact h.mono hlt.le
    | answered =>
      have hcommit := h.concat .logical hlt
      unfold LogicalIncreasing bumpVolumeRevision
      rw [filter_append]
      exact hcommit
  | writePhysicalChunk handle c answered =>
    dsimp only [NodeRevisions.step] at hstep
    split at hstep <;> cases hstep
    · exact h
    unfold LogicalIncreasing observePhysicalWriteRevision
    cases answered with
    | false => exact h
    | true =>
      rw [if_pos rfl, filter_append]
      simpa [LogicalIncreasing] using h
  | restart =>
    cases hstep
    exact h

variable {volumeRevision : Nat} {events : List RevisionEvent}

/-- The revisions of logical writes go up in every run, and those of all mutations as long as
restarts drop none that is not stored. -/
theorem revisions_increase
    (hrun : Trace.run step { volumeID, volumeRevision } events = some t) :
    (t.commits.filter (·.1 = .logical)).Pairwise (·.2 < ·.2) ∧
      (Trace.Guarded step (RestartsStored · ·) { volumeID, volumeRevision } events →
        t.commits.Pairwise (·.2 < ·.2) ∧ (t.commits.map (commitID volumeID)).Nodup) := by
  have hstart : Increasing { volumeID, volumeRevision } := ⟨Nat.le_refl _, .nil, nofun⟩
  have hlogical : LogicalIncreasing { volumeID, volumeRevision } := ⟨.nil, nofun⟩
  refine ⟨(Trace.run_invariant LogicalIncreasing (fun _ _ _ hs => hs.step) hlogical hrun).pairwise,
    fun h => ?_⟩
  have hordered : t.Increasing := Trace.run_induction Increasing
    (fun _ _ _ hs hallowed => hs.step hallowed) hstart h hrun
  have hpairwise := hordered.commits.pairwise
  exact ⟨hpairwise, pairwise_map.mpr
    (hpairwise.imp fun hlt heq => hlt.ne (revision_of_commitID heq))⟩

def writer : SBSRequestContext := ⟨"r", "g", "a", 1, "k"⟩

def restartedNode : List RevisionEvent :=
  [.openVolume writer true, .writePhysicalChunk "" writer true, .write "" writer .answered,
    .restart, .openVolume writer false, .writePhysicalChunk "" writer true]

/-- The node restarts when what it gave out is stored, and the next open cannot read the state. -/
theorem restartedNode_increases :
    ∃ t, Trace.run step { volumeID := "v", volumeRevision := 1 } restartedNode = some t ∧
      t.commits = [(.physical, 2), (.logical, 3), (.physical, 4)] ∧
      (t.commits.map (commitID "v")).Nodup := by
  have h : Trace.Guarded step (RestartsStored · ·) { volumeID := "v", volumeRevision := 1 }
    restartedNode := by decide
  exact ⟨_, rfl, rfl, ((revisions_increase rfl).2 h).2⟩

/-- The revision of a physical chunk is given out again after a restart. -/
theorem physical_revision_repeats :
    (Trace.run step { volumeID := "v", volumeRevision := 1 } [.openVolume writer true,
      .writePhysicalChunk "" writer true, .restart, .openVolume writer true,
      .writePhysicalChunk "" writer true]).map (·.commits) =
      some [(.physical, 2), (.physical, 2)] := by
  decide

end NodeRevisions

end Namrbd.Node
