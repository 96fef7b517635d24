import Namrbd.Lib.Totals
import Namrbd.Metadata.DrainProgress
import Namrbd.Verify.MaintenanceWork

/-!
# The counters of a drain

A work record is kept twice: under its own key and, once its placement is finalised,
as the copy that the transition completes. `Accounted` ties both to the progress that
counts them, so that a transition that completes always finds what it counts down.

The calls keep this as long as a new operation starts only when no copy is pending,
under an id that has no work yet, and a page that brings new extents to a finalised
placement finalises it again (`Orderly`). No call checks either.
-/

namespace Namrbd

open Function Option Result

open Totals
open Text (trimSpace)

variable {node : String} {now : Nat} {δ : Type}

/-! ## Counters -/

def ofOperation (operationID : String) (f : DrainWorkRecord δ → ℕ) (work : DrainWorkRecord δ) :
    ℕ :=
  if work.operationID = operationID then f work else 0

/-- What it counts for as long as it is not completed. -/
def pendingOf (operationID : String) (f : DrainWorkRecord δ → ℕ) (work : DrainWorkRecord δ) : ℕ :=
  if work.operationID = operationID ∧ work.state = .pending then f work else 0

abbrev DrainWorks (δ : Type) : Type :=
  String × String × String × String → Option (DrainWorkRecord δ)

/-- The counters of a drain are the totals over its work records. -/
structure Counts (works : DrainWorks δ) (p : DrainProgressRecord δ) : Prop where
  totalExtents : p.totalExtents = total (ofOperation p.operationID (·.extentCount)) works
  remainingExtents : p.remainingExtents = total (pendingOf p.operationID (·.extentCount)) works
  totalBytes : p.totalBytes = total (ofOperation p.operationID (·.dataBytes)) works
  remainingBytes : p.remainingBytes = total (pendingOf p.operationID (·.dataBytes)) works

variable {works : DrainWorks δ}

theorem Counts.of_new {p : DrainProgressRecord δ}
    (hwork : ∀ k w, works k = some w → w.operationID ≠ p.operationID)
    (htotal : p.totalExtents = 0 ∧ p.totalBytes = 0)
    (hremaining : p.remainingExtents = 0 ∧ p.remainingBytes = 0) : Counts works p := by
  have hall : ∀ f, total (ofOperation p.operationID f) works = 0 := fun f =>
    total_eq_zero fun k w hw => if_neg (hwork k w hw)
  have hpend : ∀ f, total (pendingOf p.operationID f) works = 0 := fun f =>
    total_eq_zero fun k w hw => if_neg fun h => hwork k w hw h.1
  exact ⟨htotal.1.trans (hall _).symm, hremaining.1.trans (hpend _).symm,
    htotal.2.trans (hall _).symm, hremaining.2.trans (hpend _).symm⟩

/-- The counters follow a work record of the operation that is written over a pending one. -/
theorem Counts.put {p p' : DrainProgressRecord δ} (h : Counts works p) (hworks : FiniteMap works)
    {k : String × String × String × String} {work : DrainWorkRecord δ}
    (hbefore : ∀ b, works k = some b → b.operationID = p.operationID ∧ b.state = .pending)
    (hop : work.operationID = p.operationID) (hop' : p'.operationID = p.operationID)
    (htotal : p'.totalExtents + (works k).elim 0 (·.extentCount) =
        p.totalExtents + work.extentCount ∧
      p'.totalBytes + (works k).elim 0 (·.dataBytes) = p.totalBytes + work.dataBytes)
    (hremaining : p'.remainingExtents + (works k).elim 0 (·.extentCount) =
        p.remainingExtents + pendingOf p.operationID (·.extentCount) work ∧
      p'.remainingBytes + (works k).elim 0 (·.dataBytes) =
        p.remainingBytes + pendingOf p.operationID (·.dataBytes) work) :
    Counts (update works k (some work)) p' := by
  have hall : ∀ f, total (ofOperation p.operationID f) (update works k (some work)) +
      (works k).elim 0 f = total (ofOperation p.operationID f) works + f work := by
    intro f
    have hupdate := total_update (f := ofOperation p.operationID f) hworks k (some work)
    rw [elim_some, ofOperation, if_pos hop] at hupdate
    cases hk : works k with
    | none => rwa [hk] at hupdate
    | some b => rwa [hk, elim_some, ofOperation, if_pos (hbefore b hk).1] at hupdate
  have hpend : ∀ f, total (pendingOf p.operationID f) (update works k (some work)) +
      (works k).elim 0 f =
        total (pendingOf p.operationID f) works + pendingOf p.operationID f work := by
    intro f
    have hupdate := total_update (f := pendingOf p.operationID f) hworks k (some work)
    cases hk : works k with
    | none => rwa [hk] at hupdate
    | some b => rwa [hk, elim_some, pendingOf, if_pos (hbefore b hk)] at hupdate
  obtain ⟨h1, h2, h3, h4⟩ := h
  refine ⟨?_, ?_, ?_, ?_⟩
  · have := hall (·.extentCount)
    rw [hop']
    omega
  · have := hpend (·.extentCount)
    rw [hop']
    omega
  · have := hall (·.dataBytes)
    rw [hop']
    omega
  · have := hpend (·.dataBytes)
    rw [hop']
    omega

/-! ## The records of a node -/

/-- The records of the drains are left alone. -/
structure SameDrain (s s' : MaintenanceStore δ) : Prop where
  works : s'.drainWorks = s.drainWorks
  copies : s'.drainWorkTransitions = s.drainWorkTransitions
  progress : s'.drainProgress = s.drainProgress

/-- The three records of a drain agree, except for a copy that is about to be written. -/
structure AccountedBut (env : MaintenanceEnv δ) (node : String) (skip : Option (String × String))
    (s : MaintenanceStore δ) (now : Nat) : Prop where
  finite : FiniteMap s.drainWorks
  copies : ∀ k c, s.drainWorkTransitions k = some c →
    drainWorkTransitionKey env c.volumeID c.placementRef = k ∧ c.Valid env ∧
      drainProgressKey c.nodeID = node
  worked : ∀ k c, s.drainWorkTransitions k = some c →
    ∃ w, s.drainWorks (drainWorkKey c) = some w ∧ w.operationID = c.operationID
  copied : ∀ k c p, some k ≠ skip → s.drainWorkTransitions k = some c →
    s.drainProgress node = some p → c.operationID = p.operationID →
      s.drainWorks (drainWorkKey c) = some c
  pending : ∀ k c, s.drainWorkTransitions k = some c → c.state = .pending →
    ∃ p, s.drainProgress node = some p ∧ p.Valid env ∧ p.operationID = c.operationID
  counts : ∀ p, s.drainProgress node = some p →
    p.updatedAtUnix ≤ unix now ∧ Counts s.drainWorks p

abbrev Accounted (env : MaintenanceEnv δ) (node : String) (s : MaintenanceStore δ) (now : Nat) :
    Prop :=
  AccountedBut env node none s now

section Accounted

variable {env : MaintenanceEnv δ} {skip : Option (String × String)} {s s' : MaintenanceStore δ}
  {work : DrainWorkRecord δ}

theorem AccountedBut.same (h : AccountedBut env node skip s now) (hs : SameDrain s s') :
    AccountedBut env node skip s' now := by
  cases s
  cases s'
  obtain ⟨⟨⟩, ⟨⟩, ⟨⟩⟩ := hs
  exact { h with }

variable {c : DrainWorkRecord δ}

variable {p : DrainProgressRecord δ}

theorem AccountedBut.put_copy (h : AccountedBut env node
      (some (drainWorkTransitionKey env work.volumeID work.placementRef)) s now)
    (hworks : s'.drainWorks = s.drainWorks)
    (hstored : s.drainWorks (drainWorkKey work) = some work)
    (hcopies : s'.drainWorkTransitions = update s.drainWorkTransitions
      (drainWorkTransitionKey env work.volumeID work.placementRef) (some work))
    (hprog : s'.drainProgress = s.drainProgress) (hwork : work.Valid env)
    (hnode : drainProgressKey work.nodeID = node) (hp : s.drainProgress node = some p)
    (hvalid : p.Valid env) (hop : p.operationID = work.operationID) :
    Accounted env node s' now := by
  refine ⟨?_, ?_, ?_, ?_, ?_, ?_⟩
  · rw [hworks]; exact h.finite
  · intro k c hc
    rw [hcopies, update_apply] at hc
    split at hc
    · next heq =>
      cases hc
      exact ⟨heq.symm, hwork, hnode⟩
    · exact h.copies k c hc
  · intro k c hc
    rw [hcopies, update_apply] at hc
    rw [hworks]
    split at hc
    · cases hc
      exact ⟨work, hstored, rfl⟩
    · exact h.worked k c hc
  · intro k c p' _ hc hp' hop'
    rw [hcopies, update_apply] at hc
    rw [hworks]
    split at hc
    · cases hc
      exact hstored
    · next hne =>
      rw [hprog] at hp'
      exact h.copied k c p' (by simpa using hne) hc hp' hop'
  · intro k c hc hpend
    rw [hcopies, update_apply] at hc
    rw [hprog]
    split at hc
    · cases hc
      exact ⟨p, hp, hvalid, hop⟩
    · exact h.pending k c hc hpend
  · rw [hworks, hprog]; exact h.counts

/-- A work record of the operation is written over, and the progress is counted again; only the
copy of the work record is behind then. -/
theorem AccountedBut.put_work (h : Accounted env node s now) {p' : DrainProgressRecord δ}
    (hp : s.drainProgress node = some p)
    (hbefore : ∀ b, s.drainWorks (drainWorkKey work) = some b →
      work.operationID = b.operationID) (hvalid : p'.Valid env)
    (hop : p'.operationID = p.operationID) (htime : p'.updatedAtUnix ≤ unix now)
    (hcounts : Counts (update s.drainWorks (drainWorkKey work) (some work)) p') :
    AccountedBut env node (some (drainWorkTransitionKey env work.volumeID work.placementRef))
      { s with
        drainWorks := update s.drainWorks (drainWorkKey work) (some work)
        drainProgress := update s.drainProgress node (some p') } now := by
  refine ⟨h.finite.update _ _, h.copies, ?_, ?_, ?_, ?_⟩
  · intro k c hc
    obtain ⟨w, hw, hop⟩ := h.worked k c hc
    by_cases hk : drainWorkKey c = drainWorkKey work
    · rw [hk] at hw ⊢
      exact ⟨work, update_self .., (hbefore w hw).trans hop⟩
    · exact ⟨w, (update_of_ne hk ..).trans hw, hop⟩
  · intro k c q hk hc hq hcq
    cases (update_self node _ s.drainProgress).symm.trans hq
    -- another copy of the operation is one of another work record
    have hne : drainWorkKey c ≠ drainWorkKey work := by
      intro heq
      refine hk (congrArg some ?_)
      obtain ⟨-, -, hvol, hplace⟩ : _ ∧ _ ∧ _ ∧ _ := by
        simpa only [drainWorkKey, Prod.mk.injEq] using heq
      rw [← (h.copies k c hc).1, drainWorkTransitionKey, drainWorkTransitionKey,
        maintenanceIndexVolumeID, maintenanceIndexVolumeID, hvol, hplace]
    have hcopied := h.copied k c p (by simp) hc hp (hcq.trans hop)
    dsimp only
    rw [update_apply, if_neg hne, hcopied]
  · intro k c hc hpend
    obtain ⟨q, hq, -, hqop⟩ := h.pending k c hc hpend
    cases hp.symm.trans hq
    exact ⟨p', update_self .., hvalid, hop.trans hqop⟩
  · intro q hq
    cases (update_self node _ s.drainProgress).symm.trans hq
    exact ⟨htime, hcounts⟩

end Accounted

section Transition

variable [DecidableEq δ] {env : MaintenanceEnv δ} {s s' : MaintenanceStore δ}
  {transition : PlacementTransitionRecord}

open MaintenanceStore

theorem syncTransition_sameDrain (h : (s.recordTransition env transition).syncMaintenanceWorkIndex
    env now transition = .ok s') : SameDrain s s' := by
  rcases syncMaintenanceWorkIndex_eq_ok h rfl with rfl | ⟨after, -, -, hkeeps⟩
  · exact ⟨rfl, rfl, rfl⟩
  · rw [hkeeps]
    exact ⟨rfl, rfl, rfl⟩

/-- A transition that completes finds what it counts down, and the counters stay exact. -/
theorem AccountedBut.completeDrainWork (h : Accounted env node s now) :
    ∃ s', s.completeDrainWork env now transition = .ok s' ∧ Accounted env node s' now := by
  unfold MaintenanceStore.completeDrainWork
  split
  · exact ⟨s, rfl, h⟩
  dsimp only
  split
  · exact ⟨s, rfl, h⟩
  next c hc =>
  obtain ⟨hkey, hvalid, hnode⟩ := h.copies _ c hc
  rw [if_neg (not_not.mpr hvalid)]
  split
  · exact ⟨s, rfl, h⟩
  next hstate =>
  have hpend : c.state = .pending := by
    cases hc : c.state with
    | pending => rfl
    | completed => exact absurd hc hstate
  obtain ⟨p, hp, hpvalid, hop⟩ := h.pending _ c hc hpend
  have hstored := h.copied _ c p nofun hc hp hop.symm
  obtain ⟨htime, hcounts⟩ := h.counts p hp
  have hterm : ∀ f, pendingOf p.operationID f c = f c := fun f => if_pos ⟨hop.symm, hpend⟩
  have hexts : c.extentCount ≤ p.remainingExtents := by
    rw [hcounts.remainingExtents, ← hterm (·.extentCount)]
    exact le_total h.finite hstored
  have hbytes : c.dataBytes ≤ p.remainingBytes := by
    rw [hcounts.remainingBytes, ← hterm (·.dataBytes)]
    exact le_total h.finite hstored
  rw [hnode, hp]
  dsimp only
  rw [if_neg (by
    push Not
    exact ⟨hpvalid, hop, hexts, hbytes⟩)]
  have hnow : 0 < unix now := lt_of_lt_of_le hpvalid.2.2.2.2.2.1 htime
  obtain ⟨hschema, hcop, hcnode, hvol, hplace, hrepl, hcount, -, -⟩ := hvalid
  obtain ⟨hpschema, hpnode, hpop, hple, hpbytes, -, -⟩ := hpvalid
  have hsize : ∀ f, (s.drainWorks (drainWorkKey c)).elim 0 f = f c := fun f => by
    rw [hstored, elim_some]
  refine ⟨_, rfl, .put_copy (s := { s with drainWorks := _, drainProgress := _ })
    ?_ rfl (update_self ..) rfl rfl ?_ hnode (update_self ..) ?hvalid hop⟩
  · refine h.put_work hp ?_ ?hvalid rfl le_rfl (hcounts.put h.finite ?_ hop.symm rfl ?_ ?_)
    · intro b hb
      cases hstored.symm.trans hb
      rfl
    · intro b hb
      cases hstored.symm.trans hb
      exact ⟨hop.symm, hpend⟩
    · exact ⟨congrArg _ (hsize (·.extentCount)), congrArg _ (hsize (·.dataBytes))⟩
    · refine ⟨(congrArg _ (hsize (·.extentCount))).trans ?_,
        (congrArg _ (hsize (·.dataBytes))).trans ?_⟩
      · simpa [pendingOf] using Nat.sub_add_cancel hexts
      · simpa [pendingOf] using Nat.sub_add_cancel hbytes
  · exact ⟨hschema, hcop, hcnode, hvol, hplace, hrepl, hcount, hnow, rfl⟩
  · exact ⟨hpschema, hpnode, hpop, (Nat.sub_le _ _).trans hple, (Nat.sub_le _ _).trans hpbytes,
      hnow, rfl⟩

theorem AccountedBut.putPlacementTransition (h : Accounted env node s now)
    (hput : s.putPlacementTransition env now transition = .ok s') : Accounted env node s' now := by
  obtain ⟨synced, hsync, hcomplete⟩ := bind_eq_ok.mp hput
  obtain ⟨s2, hs2, haccounted⟩ := (h.same (syncTransition_sameDrain hsync)).completeDrainWork
  cases hs2.symm.trans hcomplete
  exact haccounted

end Transition

/-! ## Begin, advance and enqueue -/

namespace DrainStore

variable [DecidableEq δ] {env : DrainEnv δ} {s s' : DrainStore δ}

abbrev Accounted (env : DrainEnv δ) (node : String) (s : DrainStore δ) (now : Nat) : Prop :=
  Namrbd.Accounted env.toMaintenanceEnv node s.base now

/-- A new operation starts only when no copy is pending, and under an id that has no work. -/
def CanBegin (node : String) (s : DrainStore δ) (operationID : String) : Prop :=
  (∃ p, s.base.drainProgress node = some p ∧ p.operationID = trimSpace operationID) ∨
    (∀ k c, s.base.drainWorkTransitions k = some c → c.state = .completed) ∧
      ∀ k w, s.base.drainWorks k = some w → w.operationID ≠ trimSpace operationID

variable {p : DrainProgressRecord δ} {req : EnqueueDrainWorkRequest} {work : DrainWorkRecord δ}
  {added : NewExtents}

/-- So does the start of a drain. -/
theorem Accounted.beginDrainProgress (h : Accounted env node s now) {nodeID operationID : String}
    (hnode : drainProgressKey (trimSpace nodeID) = node)
    (hcan : CanBegin node s operationID)
    (hbegin : s.beginDrainProgress env now nodeID operationID = .ok (p, s')) :
    Accounted env node s' now := by
  unfold DrainStore.beginDrainProgress at hbegin
  dsimp only at hbegin
  unfold CanBegin at hcan
  generalize trimSpace nodeID = trimmedNode at hnode hbegin
  generalize trimSpace operationID = trimmedOperation at hcan hbegin
  rw [hnode] at hbegin
  split at hbegin
  · cases hbegin
  -- a progress that is not the one of the operation is replaced by a new one
  have hnew : (∀ k c, s.base.drainWorkTransitions k = some c → c.state = .completed) →
      (∀ k w, s.base.drainWorks k = some w → w.operationID ≠ trimmedOperation) →
      Accounted env node
        (s.putProgress (newProgress env now trimmedNode trimmedOperation)) now := by
    intro hcompl hwork
    have hprog : (s.putProgress
        (newProgress env now trimmedNode trimmedOperation)).base.drainProgress =
          update s.base.drainProgress node
            (some (newProgress env now trimmedNode trimmedOperation)) :=
      hnode ▸ rfl
    refine ⟨h.finite, h.copies, h.worked, ?_, ?_, ?_⟩
    · intro k c q _ hc hq hop
      rw [hprog, update_self] at hq
      cases hq
      obtain ⟨w, hw, hwop⟩ := h.worked k c hc
      exact absurd (hwop.trans hop) (hwork _ w hw)
    · intro k c hc hpend
      exact nomatch (hcompl k c hc).symm.trans hpend
    · intro q hq
      rw [hprog, update_self] at hq
      cases hq
      exact ⟨le_rfl, .of_new hwork ⟨rfl, rfl⟩ ⟨rfl, rfl⟩⟩
  split at hbegin
  · next hnone =>
    cases hbegin
    obtain ⟨p, hp, -⟩ | ⟨hcompl, hwork⟩ := hcan
    · exact nomatch hnone.symm.trans hp
    · exact hnew hcompl hwork
  · next existing hexist =>
    split at hbegin
    · cases hbegin
    split at hbegin
    · cases hbegin
      exact h
    next hne =>
    cases hbegin
    obtain ⟨p, hp, hop⟩ | ⟨hcompl, hwork⟩ := hcan
    · cases hexist.symm.trans hp
      exact absurd hop hne
    · exact hnew hcompl hwork

theorem Accounted.advanceDrainEnqueueCursor (h : Accounted env node s now)
    {before : DrainProgressRecord δ} {sourceCursor extentCursor : String} {completed : Bool}
    (hnode : drainProgressKey before.nodeID = node)
    (hadv : s.advanceDrainEnqueueCursor env now before sourceCursor extentCursor completed =
      .ok (p, s')) : Accounted env node s' now := by
  unfold DrainStore.advanceDrainEnqueueCursor at hadv
  rw [hnode] at hadv
  split at hadv
  · cases hadv
  split at hadv
  · cases hadv
  split at hadv
  · cases hadv
  next current hcur =>
  split at hadv
  · cases hadv
  cases hadv
  obtain ⟨htime, hcounts⟩ := h.counts current hcur
  refine ⟨h.finite, h.copies, h.worked, ?_, ?_, ?_⟩
  · intro k c q _ hc hq hop
    cases (update_self node _ s.base.drainProgress).symm.trans hq
    exact h.copied k c current nofun hc hcur hop
  · intro k c hc hpend
    obtain ⟨q, hq, hqvalid, hqop⟩ := h.pending k c hc hpend
    cases hcur.symm.trans hq
    obtain ⟨hschema, hqnode, hqid, hexts, hbytes, hqtime, -⟩ := hqvalid
    exact ⟨_, update_self .., ⟨hschema, hqnode, hqid, hexts, hbytes,
      lt_of_lt_of_le hqtime htime, rfl⟩, hqop⟩
  · intro q hq
    cases (update_self node _ s.base.drainProgress).symm.trans hq
    exact ⟨le_rfl, ⟨hcounts.totalExtents, hcounts.remainingExtents, hcounts.totalBytes,
      hcounts.remainingBytes⟩⟩

/-! ### Pages -/

/-- A page that brings new extents to a placement that this operation has finalised finalises it
again; other pages may come at any time. -/
def CanEnqueue (env : DrainEnv δ) (s : DrainStore δ) (req : EnqueueDrainWorkRequest) : Prop :=
  req.finalizePlacement = true ∨
    (∀ c, s.base.drainWorkTransitions
      (drainWorkTransitionKey env.toMaintenanceEnv req.volumeID req.placementRef) = some c →
        c.operationID ≠ req.operationID) ∨
    ∀ extent ∈ req.extents, s.items (drainWorkItemKey (req.item env extent)) ≠ none

theorem enqueueExtents_eq_self {extents : List DrainWorkExtent}
    {acc acc' : (DrainWorkItemKey → Option (DrainWorkItemRecord δ)) × NewExtents}
    (hitems : ∀ extent ∈ extents, acc.1 (drainWorkItemKey (req.item env extent)) ≠ none)
    (h : extents.foldlM (enqueueExtent env req) acc = .ok acc') : acc' = acc := by
  refine foldlM_of_forall (· = acc) h rfl ?_
  rintro extent hmem _ acc1 rfl hacc1
  unfold enqueueExtent at hacc1
  dsimp only at hacc1
  split at hacc1
  · split at hacc1
    · cases hacc1
    · split at hacc1
      · cases hacc1
      · cases hacc1
        rfl
  · next hnone => exact absurd hnone (hitems extent hmem)

variable {found : Bool} {p' : DrainProgressRecord δ}

theorem findWork_eq_ok (h : s.findWork env now req = .ok (work, found)) :
    work.SameIdentity (req.newWork env now) ∧
      (found = true ∧ s.base.drainWorks (drainWorkKey work) = some work ∧
          work.Valid env.toMaintenanceEnv ∨
        found = false ∧ s.base.drainWorks (drainWorkKey work) = none ∧
          work = req.newWork env now) := by
  unfold findWork at h
  dsimp only at h
  split at h
  · next hnone =>
    cases h
    exact ⟨⟨rfl, rfl, rfl, rfl, rfl⟩, .inr ⟨rfl, hnone, rfl⟩⟩
  next existing hexist =>
  split at h
  · cases h
  next hvalid =>
  split at h
  · cases h
  next hsame =>
  cases h
  have hsame := not_not.mp hsame
  refine ⟨hsame, .inl ⟨rfl, ?_, not_not.mp hvalid⟩⟩
  obtain ⟨hnode, hop, hvol, hplace, -⟩ := hsame
  rw [← hexist, drainWorkKey, drainWorkKey, hnode, hop, hvol, hplace]

/-- What is known of a page once it is counted: the work and the progress are the stored ones, and
only the copy of the work may be behind. -/
structure PageCounted (env : DrainEnv δ) (node : String) (req : EnqueueDrainWorkRequest)
    (work : DrainWorkRecord δ) (p : DrainProgressRecord δ) (s : DrainStore δ) (now : Nat) :
    Prop where
  accounted : AccountedBut env.toMaintenanceEnv node
    (some (drainWorkTransitionKey env.toMaintenanceEnv work.volumeID work.placementRef)) s.base now
  valid : work.Valid env.toMaintenanceEnv
  identity : work.SameIdentity (req.newWork env now)
  stored : s.base.drainWorks (drainWorkKey work) = some work
  progress : s.base.drainProgress node = some p
  progressValid : p.Valid env.toMaintenanceEnv
  operation : p.operationID = work.operationID

omit [DecidableEq δ] in
theorem valid_addToProgress (h : p.Valid env.toMaintenanceEnv) (hnow : 0 < unix now) :
    (addToProgress env now work p added).Valid env.toMaintenanceEnv := by
  obtain ⟨hschema, hnode, hop, hexts, hbytes, -, -⟩ := h
  exact ⟨hschema, hnode, hop, Nat.add_le_add_right hexts _, Nat.add_le_add_right hbytes _, hnow,
    rfl⟩

/-- Counting in a page of extents keeps the counters exact. -/
theorem Accounted.countPage (h : Accounted env node s now) {work' : DrainWorkRecord δ}
    (hcheck : req.operationID ≠ "" ∧ req.nodeID ≠ "" ∧ req.volumeID ≠ "" ∧
      req.placementRef ≠ "" ∧ req.replicaSetID ≠ "")
    (hnode : drainProgressKey req.nodeID = node)
    (hp : s.base.drainProgress node = some p) (hpvalid : p.Valid env.toMaintenanceEnv)
    (hop : p.operationID = req.operationID) (hfound : s.findWork env now req = .ok (work, found))
    (hcntrs : DrainStore.checkCounters work p added = .ok ())
    (hcount : s.countPage env now req work found p added = .ok (work', p', s')) :
    PageCounted env node req work' p' s' now ∧ (added.count = 0 → s' = s) ∧
      s'.base.drainWorkTransitions = s.base.drainWorkTransitions := by
  subst hnode
  obtain ⟨hidentity, hwork⟩ := findWork_eq_ok hfound
  have hnow : 0 < unix now := lt_of_lt_of_le hpvalid.2.2.2.2.2.1 (h.counts p hp).1
  have hworkop : work.operationID = p.operationID := hidentity.2.1.trans hop.symm
  unfold DrainStore.countPage at hcount
  split at hcount
  · next hne =>
    cases hcount
    refine ⟨?_, fun hzero => absurd hzero hne, rfl⟩
    have hpend : work.state = .pending := by
      cases hstate : work.state with
      | pending => rfl
      | completed =>
        unfold DrainStore.checkCounters at hcntrs
        exact absurd ⟨hstate, hne⟩ (throwIf_eq_ok.mp hcntrs).1
    have hschema : work.schemaVersion = drainIndexSchemaVersion := by
      obtain ⟨-, -, hvalid⟩ | ⟨-, -, rfl⟩ := hwork
      · exact hvalid.1
      · rfl
    -- the page does not change the key
    have hkey : drainWorkKey (addToWork env now work added) =
      drainWorkKey work := rfl
    have hbefore : ∀ b, s.base.drainWorks (drainWorkKey work) = some b →
        b = work := by
      intro b hb
      obtain ⟨-, hstored, -⟩ | ⟨-, hnone, -⟩ := hwork
      · exact some.inj (hb.symm.trans hstored)
      · exact nomatch hnone.symm.trans hb
    have hsize : ∀ f : DrainWorkRecord δ → ℕ, f (req.newWork env now) = 0 →
        (s.base.drainWorks (drainWorkKey work)).elim 0 f = f work := by
      intro f hf
      obtain ⟨-, hstored, -⟩ | ⟨-, hnone, rfl⟩ := hwork
      · rw [hstored, elim_some]
      · rw [hnone, elim_none, hf]
    have hexts := hsize (·.extentCount) rfl
    have hbytes := hsize (·.dataBytes) rfl
    have hvalid : (addToWork env now work added).Valid env.toMaintenanceEnv := by
      obtain ⟨hnode, hop, hvol, hplace, hrepl⟩ := hidentity
      obtain ⟨h1, h2, h3, h4, h5⟩ := hcheck
      refine ⟨hschema, ?_, ?_, ?_, ?_, ?_, ?_, hnow, rfl⟩
      · exact fun h => h1 (hop.symm.trans h)
      · exact fun h => h2 (hnode.symm.trans h)
      · exact fun h => h3 (hvol.symm.trans h)
      · exact fun h => h4 (hplace.symm.trans h)
      · exact fun h => h5 (hrepl.symm.trans h)
      · change work.extentCount + added.count ≠ 0
        omega
    refine ⟨?_, hvalid, hidentity, update_self .., update_self ..,
      valid_addToProgress hpvalid hnow, hworkop.symm⟩
    refine h.put_work hp (fun b hb => ?_) (valid_addToProgress hpvalid hnow) rfl le_rfl
      ((h.counts p hp).2.put h.finite (fun b hb => ?_) hworkop rfl ?_ ?_)
    · rw [hbefore b hb]
      rfl
    · rw [hbefore b hb]
      exact ⟨hworkop, hpend⟩
    · rw [hkey, hexts, hbytes]
      dsimp only [addToProgress, addToWork, signProgress, signWork]
      omega
    rw [hkey, hexts, hbytes, pendingOf, pendingOf, if_pos ⟨hworkop, hpend⟩,
      if_pos ⟨hworkop, hpend⟩]
    dsimp only [addToProgress, addToWork, signProgress, signWork]
    omega
  · split at hcount
    · cases hcount
    · next hnotFound =>
      cases hcount
      refine ⟨?_, fun _ => rfl, rfl⟩
      obtain ⟨-, hstored, hvalid⟩ | ⟨hfalse, -, -⟩ := hwork
      · exact ⟨{ h with copied := fun k c q _ => h.copied k c q nofun }, hvalid, hidentity,
          hstored, hp, hpvalid, hworkop.symm⟩
      · exact absurd (by rw [hfalse]; rfl) hnotFound

/-- A page that is enqueued in order keeps the counters exact. -/
theorem Accounted.enqueueDrainWork (h : Accounted env node s now)
    {result : DrainProgressRecord δ × Bool}
    (hnode : drainProgressKey (trimSpace req.nodeID) = node)
    (hcan : CanEnqueue env s (req.normalized env))
    (henqueue : s.enqueueDrainWork env now req = .ok (result, s')) : Accounted env node s' now := by
  obtain ⟨_, hcheck, hpage⟩ := bind_eq_ok.mp henqueue
  change drainProgressKey (req.normalized env).nodeID = node at hnode
  generalize req.normalized env = req at hnode hcan hcheck hpage
  unfold EnqueueDrainWorkRequest.check at hcheck
  obtain ⟨hids, -⟩ := throwIf_eq_ok.mp hcheck
  push Not at hids
  obtain ⟨p, hprog, hpage⟩ := bind_eq_ok.mp hpage
  obtain ⟨⟨work, found⟩, hfound, hpage⟩ := bind_eq_ok.mp hpage
  obtain ⟨⟨items, added⟩, hadded, hpage⟩ := bind_eq_ok.mp hpage
  obtain ⟨_, hcntrs, hpage⟩ := bind_eq_ok.mp hpage
  obtain ⟨⟨work', p', s1⟩, hcount, hpage⟩ := bind_eq_ok.mp hpage
  obtain ⟨⟨p'', s2⟩, hfinish, hpage⟩ := bind_eq_ok.mp hpage
  cases hpage
  unfold currentProgress at hprog
  split at hprog
  · cases hprog
  next progress hp =>
  split at hprog
  · cases hprog
  next hcur =>
  cases hprog
  push Not at hcur
  obtain ⟨hpvalid, hop⟩ := hcur
  rw [hnode] at hp
  have hitems : Accounted env node { s with items } now := h
  obtain ⟨hcnt, hzero, hcopies⟩ := hitems.countPage
    ⟨hids.1, hids.2.1, hids.2.2.1, hids.2.2.2.1, hids.2.2.2.2.1⟩ hnode hp hpvalid hop hfound
    hcntrs hcount
  unfold finishPage at hfinish
  split at hfinish
  · -- the copy of the work is put, and the transition counts down if it is completed
    obtain ⟨transition, -, hfinish⟩ := bind_eq_ok.mp hfinish
    obtain ⟨base, hbase, hfinish⟩ := bind_eq_ok.mp hfinish
    obtain ⟨progress, -, hfinish⟩ := bind_eq_ok.mp hfinish
    cases hfinish
    have hcopied : Namrbd.Accounted env.toMaintenanceEnv node
        (s1.putTargetAndCopy env req work') now :=
      hcnt.accounted.put_copy rfl hcnt.stored rfl rfl hcnt.valid (hcnt.identity.1 ▸ hnode)
        hcnt.progress hcnt.progressValid hcnt.operation
    exact hcopied.putPlacementTransition (mapError_eq_ok.mp hbase)
  next hfinal =>
  cases hfinish
  obtain hfin | hcopy | hall := hcan
  · exact absurd hfin hfinal
  · -- no copy of this operation is stored under the key of the placement
    refine { hcnt.accounted with copied := fun k c q _ hc hq hop => ?_ }
    refine hcnt.accounted.copied k c q (fun hk => ?_) hc hq hop
    cases hk
    cases hcnt.progress.symm.trans hq
    obtain ⟨-, hoperation, hvol, hplace, -⟩ := hcnt.identity
    rw [hcopies, hvol, hplace] at hc
    rw [hcnt.operation, hoperation] at hop
    exact hcopy c hc hop
  · -- the page adds nothing
    have hnothing := enqueueExtents_eq_self hall hadded
    rw [hzero (congrArg (·.2.count) hnothing)]
    exact h

end DrainStore

/-! ## Runs -/

/-- The event is about the drain of one node, given by the key of its progress. -/
def DrainEvent.OnNode (node : String) : DrainEvent δ → Prop
  | .begin nodeID _ => drainProgressKey (trimSpace nodeID) = node
  | .enqueue req => drainProgressKey (trimSpace req.nodeID) = node
  | .advance before _ _ _ => drainProgressKey before.nodeID = node
  | _ => True

namespace DrainSystem

variable [DecidableEq δ] {env : DrainEnv δ} {s : DrainSystem δ}

/-- Operations start and pages come in order. -/
def Orderly (env : DrainEnv δ) (node : String) (s : DrainSystem δ) : DrainEvent δ → Prop
  | .begin _ operationID => s.store.CanBegin node operationID
  | .enqueue req => s.store.CanEnqueue env (req.normalized env)
  | _ => True

omit [DecidableEq δ] in
theorem accounted_commit {ε : Type} {result : Except ε (DrainStore δ)}
    (h : s.store.Accounted env node s.now)
    (hresult : ∀ store, result = .ok store → store.Accounted env node s.now) :
    (s.commit result).store.Accounted env node (s.commit result).now := by
  cases result with
  | error err => exact h
  | ok store => exact hresult store rfl

theorem accounted_apply {e : DrainEvent δ} (h : s.store.Accounted env node s.now)
    (horderly : Orderly env node s e) (hnode : e.OnNode node) :
    (s.apply env e).store.Accounted env node (s.apply env e).now := by
  cases e with
  | tick elapsed =>
    exact { h with counts := fun p hp =>
      ⟨(h.counts p hp).1.trans (unix_mono (Nat.le_add_right _ _)), (h.counts p hp).2⟩ }
  | setVolume volumeID volume | setReplicaSet volumeID replicaSetID record =>
    exact h.same ⟨rfl, rfl, rfl⟩
  | «begin» nodeID operationID =>
    refine accounted_commit h fun store hstore => ?_
    obtain ⟨⟨p, store'⟩, hbegin, rfl⟩ := map_eq_ok.mp hstore
    exact .beginDrainProgress h hnode horderly hbegin
  | enqueue req =>
    refine accounted_commit h fun store hstore => ?_
    obtain ⟨⟨result, store'⟩, henqueue, rfl⟩ := map_eq_ok.mp hstore
    exact .enqueueDrainWork h hnode horderly henqueue
  | advance before sourceCursor extentCursor completed =>
    refine accounted_commit h fun store hstore => ?_
    obtain ⟨⟨p, store'⟩, hadv, rfl⟩ := map_eq_ok.mp hstore
    exact .advanceDrainEnqueueCursor h hnode hadv
  | putTransition transition =>
    refine accounted_commit h fun store hstore => ?_
    obtain ⟨base, hput, rfl⟩ := map_eq_ok.mp hstore
    exact h.putPlacementTransition hput

/-- In every orderly run of the drains of one node the progress counts exactly the work of its
operation, and a drain transition that completes is never refused by the drain records: once the
transition and its work index are written, the call goes through. -/
theorem drain_counters_exact (env : DrainEnv δ) (node : String) (s₀ s : DrainSystem δ)
    (hworks : s₀.store.base.drainWorks = fun _ => none)
    (hcopies : s₀.store.base.drainWorkTransitions = fun _ => none)
    (hprogress : s₀.store.base.drainProgress node = none) (es : List (DrainEvent δ))
    (hnode : ∀ e ∈ es, e.OnNode node)
    (horderly : Trace.Guarded (step env) (Orderly env node) s₀ es)
    (hrun : Trace.run (step env) s₀ es = some s) :
    (∀ p, s.store.base.drainProgress node = some p → Counts s.store.base.drainWorks p) ∧
    ∀ transition synced,
      (s.store.base.recordTransition env.toMaintenanceEnv transition).syncMaintenanceWorkIndex
        env.toMaintenanceEnv s.now transition = .ok synced →
      ∃ store, s.putTransition env transition = .ok store := by
  have hnew : s₀.store.Accounted env node s₀.now := by
    refine ⟨by rw [hworks]; exact .empty, ?_, ?_, ?_, ?_, by simp [hprogress]⟩
    all_goals simp [hcopies]
  have h : s.store.Accounted env node s.now :=
    Trace.run_induction (fun s => s.store.Accounted env node s.now)
      (fun s e s' hs hallowed hstep => by
        cases hstep
        exact accounted_apply hs hallowed.1 hallowed.2)
      hnew (horderly.and_of_forall hnode) hrun
  refine ⟨fun p hp => (h.counts p hp).2, ?_⟩
  intro transition synced hsync
  obtain ⟨base, hbase, -⟩ := AccountedBut.completeDrainWork
    (h.same (syncTransition_sameDrain hsync))
  have hput : s.store.base.putPlacementTransition env.toMaintenanceEnv s.now transition =
      .ok base := bind_eq_ok.mpr ⟨synced, hsync, hbase⟩
  exact ⟨{ s.store with base }, by rw [putTransition, hput]; rfl⟩

end DrainSystem

/-! ## One node -/

namespace OneDrain

/-- The functions of one placement, with the fields of an item as its digest. -/
def env : DrainEnv (List OnePlacement.Field) :=
  { OnePlacement.env with
    digestDrainWorkItem := fun r =>
      [.text r.operationID, .text r.nodeID, .text r.volumeID, .text r.placementRef,
        .number r.extentID, .number r.dataBytes] }

def start : DrainSystem (List OnePlacement.Field) where
  store := { base := OnePlacement.start.store }
  now := OnePlacement.start.now

def transition (state : PlacementTransitionState) : PlacementTransitionRecord :=
  { OnePlacement.transition state with reason := "drain" }

def page (operationID : String) : EnqueueDrainWorkRequest where
  operationID
  nodeID := "n"
  volumeID := "v"
  placementRef := "p"
  replicaSetID := "a"
  extents := [⟨1, 4096⟩]
  finalizePlacement := true
  targetVolumeID := "v"
  targetReplicaSet := OnePlacement.replicaSet "b"
  transition := transition .queued

/-- One placement is enqueued for the drain of a node and completes. -/
theorem drained_node_counted : ∃ s, Trace.run (DrainSystem.step env) start
        [.begin "n" "op-1", .enqueue (page "op-1"), .putTransition (transition .completed)] =
          some s ∧
      (∀ p, s.store.base.drainProgress "n" = some p → Counts s.store.base.drainWorks p) ∧
      ∀ transition synced,
        (s.store.base.recordTransition env.toMaintenanceEnv transition).syncMaintenanceWorkIndex
          env.toMaintenanceEnv s.now transition = .ok synced →
        ∃ store, s.putTransition env transition = .ok store := by
  refine ⟨_, rfl, DrainSystem.drain_counters_exact env "n" start _ rfl rfl rfl
    [.begin "n" "op-1", .enqueue (page "op-1"), .putTransition (transition .completed)] ?_ ?_ rfl⟩
  · have hkey : drainProgressKey (trimSpace "n") = "n" := by decide +kernel
    rintro e (_ | ⟨_, _ | ⟨_, _ | ⟨_, ⟨⟩⟩⟩⟩)
    · exact hkey
    · exact hkey
    · exact trivial
  · refine ⟨.inr ⟨nofun, nofun⟩, fun s1 _ => ⟨.inl rfl, fun s2 _ => ⟨trivial, ?_⟩⟩⟩
    exact fun _ _ => trivial

/-- A second operation starts while the transition of the first is running: the transition cannot
complete any more. -/
theorem completion_refused : (Trace.run (DrainSystem.step env) start
        [.begin "n" "op-1", .enqueue (page "op-1"), .begin "n" "op-2"]).map
      (fun s => Result.error? (s.putTransition env (transition .completed))) =
      some (some (.indexChanged "drain progress cannot complete work")) := by
  decide +kernel

end OneDrain

end Namrbd
