import Namrbd.Verify.MaintenanceWork

/-!
# Leases of maintenance work

The digest ties a claim to one version of the work record, so a claim passes
`validateMaintenanceWorkLease` only while that very record is stored. As long as the
record stays, each change counts its revision up and never takes the generation back
(`Later`). When the record is deleted and built again its counters start over.
-/

namespace Namrbd

open Result
open Text (trimSpace)

section Lease

variable {δ : Type} [DecidableEq δ] {env : MaintenanceEnv δ}

/-- Work records with the same digest differ at most in the digest field. -/
def DigestInjective (env : MaintenanceEnv δ) : Prop :=
  ∀ w w' : MaintenanceWorkRecord δ,
    digestMaintenanceWorkRecord env w = digestMaintenanceWorkRecord env w' →
      { w with workDigest := env.emptyDigest } = { w' with workDigest := env.emptyDigest }

/-! ## What a later version of a record keeps -/

def Later (before after : MaintenanceWorkRecord δ) : Prop :=
  (after = before ∨ before.workRevision < after.workRevision) ∧
    before.leaseGeneration ≤ after.leaseGeneration

omit [DecidableEq δ] in
theorem Later.refl (w : MaintenanceWorkRecord δ) : Later w w := ⟨.inl rfl, le_rfl⟩

variable {w1 w2 w3 : MaintenanceWorkRecord δ}

omit [DecidableEq δ] in
theorem Later.trans (h : Later w1 w2) (h' : Later w2 w3) : Later w1 w3 := by
  refine ⟨?_, h.2.trans h'.2⟩
  rcases h.1 with rfl | hlt
  · exact h'.1
  rcases h'.1 with rfl | hlt'
  · exact .inr hlt
  · exact .inr (hlt.trans hlt')

omit [DecidableEq δ] in
theorem Later.ne (h : Later w1 w2) (hne : w2 ≠ w1) (h' : Later w2 w3) : w3 ≠ w1 := by
  have hlt := h.1.resolve_left hne
  rintro rfl
  rcases h'.1 with rfl | hlt'
  · exact hne rfl
  · exact Nat.lt_asymm hlt hlt'

def CountersLeft (w : MaintenanceWorkRecord δ) : Prop :=
  w.workRevision + 1 < counterBound ∧ w.leaseGeneration + 1 < counterBound

instance (w : MaintenanceWorkRecord δ) : Decidable (CountersLeft w) :=
  inferInstanceAs (Decidable (_ ∧ _))

theorem le_countUpNonzero {n : Nat} (h : n + 1 < counterBound) : n ≤ countUpNonzero n := by
  unfold countUpNonzero
  rw [countUp_of_lt h, if_neg (Nat.succ_ne_zero n)]
  exact Nat.le_succ n

omit [DecidableEq δ] in
theorem WorkMove.later {now : Nat} {key : String} {b a : MaintenanceWorkRecord δ}
    (h : WorkMove env now key (some b) (some a)) (hcntrs : CountersLeft b) : Later b a := by
  have hnext : b.workRevision < countUp b.workRevision := by
    rw [countUp_of_lt hcntrs.1]
    exact Nat.lt_succ_self _
  cases h with
  | same => exact .refl b
  | released | opened | renewed => exact ⟨.inr hnext, le_rfl⟩
  | leased => exact ⟨.inr hnext, le_countUpNonzero hcntrs.2⟩

/-! ## What a step does to the works -/

namespace MaintenanceStore

variable {s s' : MaintenanceStore δ} {now : Nat}

theorem works_repairWorkIndex {expected : MaintenanceWorkIndexRecord δ}
    (h : s.repairWorkIndex env now expected = .ok s') : s'.works = s.works := by
  unfold repairWorkIndex at h
  dsimp only at h
  split at h
  · cases h
    rfl
  unfold advanceMaintenanceWorkListRevisionForIndexKey at h
  split at h
  · cases h
    rfl
  · obtain ⟨revisions, rfl, -⟩ := advanceMaintenanceWorkListRevisionShard_eq_ok h
    rfl

variable {key : MaintenanceWorkIndexKey}

theorem works_dropWorkIndex (h : s.dropWorkIndex env now key = .ok s') : s'.works = s.works := by
  unfold dropWorkIndex advanceMaintenanceWorkListRevisionForIndexKey at h
  split at h
  · cases h
    rfl
  · obtain ⟨revisions, rfl, -⟩ := advanceMaintenanceWorkListRevisionShard_eq_ok h
    rfl

theorem works_sweepWorkIndex (h : s.sweepWorkIndex env now key = .ok s') : s'.works = s.works := by
  unfold sweepWorkIndex at h
  split at h
  · cases h
    rfl
  split at h
  · exact works_dropWorkIndex h
  split at h
  · exact works_dropWorkIndex h
  split at h
  · cases h
    rfl
  · exact works_dropWorkIndex h
  · cases h

theorem rebuildMaintenanceWork_eq_ok (hvalid : WorksValid env s.works) {key : String × String}
    (h : s.rebuildMaintenanceWork env now key = .ok s') :
    s'.works = s.works ∨ ∃ transition after, s.transitions key = some transition ∧
      WorkMove env now
        (maintenanceWorkKey (maintenanceWorkID env transition.volumeID transition.placementRef))
        (s.works (maintenanceWorkKey
          (maintenanceWorkID env transition.volumeID transition.placementRef))) after ∧
      s'.works = Function.update s.works
        (maintenanceWorkKey (maintenanceWorkID env transition.volumeID transition.placementRef))
        after := by
  unfold rebuildMaintenanceWork at h
  split at h
  · cases h
    exact .inl rfl
  next transition htr =>
  split at h
  · cases h
  split at h
  · cases h
    exact .inl rfl
  dsimp only at h
  have hfilter : (s.works (maintenanceWorkKey
      (maintenanceWorkID env transition.volumeID transition.placementRef))).filter (·.Valid env) =
      s.works (maintenanceWorkKey
        (maintenanceWorkID env transition.volumeID transition.placementRef)) := by
    cases hw : s.works (maintenanceWorkKey
        (maintenanceWorkID env transition.volumeID transition.placementRef)) with
    | none => rfl
    | some w => simp [Option.filter, (hvalid _ w hw).2]
  rw [hfilter] at h
  split at h
  · cases h
    exact .inl rfl
  · cases h
  next expected hbuild =>
  split at h
  · exact .inl (works_repairWorkIndex h)
  · exact .inr ⟨transition, some expected, htr,
      (buildMaintenanceWorkStore_eq_ok hbuild rfl).1, works_repairWorkIndex h⟩

end MaintenanceStore

namespace MaintenanceSystem

open MaintenanceStore

variable {s s' : MaintenanceSystem δ} {e : MaintenanceEvent δ}

variable (env) in
def touchedWork (s : MaintenanceSystem δ) : MaintenanceEvent δ → Option (MaintenanceWorkRecord δ)
  | .putTransition transition => s.workOf env transition
  | .claim index _ _ => s.store.works (maintenanceWorkKey index.workID)
  | .renew claim _ _ => s.store.works (maintenanceWorkKey claim.workID)
  | .rebuild key => (s.store.transitions key).bind fun transition => s.workOf env transition
  | _ => none

variable (env) in
/-- No counter of the record that an event may change is at its last value. -/
def KeepsCounting (s : MaintenanceSystem δ) (e : MaintenanceEvent δ) : Prop :=
  ∀ b ∈ s.touchedWork env e, CountersLeft b

instance : Decidable (KeepsCounting env s e) :=
  inferInstanceAs (Decidable (∀ b ∈ s.touchedWork env e, CountersLeft b))

variable (env) in
def KeepsWork (key : String) (s : MaintenanceSystem δ) (e : MaintenanceEvent δ) : Prop :=
  (s.apply env e).store.works key ≠ none

variable {now : Nat}

/-- A step moves at most one work record, the one it touches unless it deletes it. -/
theorem apply_works (hvalid : WorksValid env s.store.works) :
    (s.apply env e).store.works = s.store.works ∨
      ∃ key after, WorkMove env s.now key (s.store.works key) after ∧
        (s.apply env e).store.works = Function.update s.store.works key after ∧
        (after ≠ none → s.touchedWork env e = s.store.works key) := by
  have hcommit : ∀ {result : Except MaintenanceErr (MaintenanceStore δ)} {P : Prop},
      (∀ store, result = .ok store → (s.commit result).store = store →
        (s.commit result).store.works = s.store.works ∨ P) →
      (s.commit result).store.works = s.store.works ∨ P := by
    intro result P h
    cases result with
    | error err => exact .inl rfl
    | ok store => exact h store rfl rfl
  cases e with
  | tick elapsed | setVolume volumeID volume | setReplicaSet volumeID replicaSetID record =>
    exact .inl rfl
  | putTransition transition =>
    refine hcommit fun store hput heq => ?_
    rw [apply, heq]
    obtain ⟨synced, hsync, hdrain⟩ := bind_eq_ok.mp hput
    rw [(completeDrainWork_eq_ok hdrain).1]
    rcases syncMaintenanceWorkIndex_eq_ok hsync rfl with rfl | ⟨after, hmove, hre, -⟩
    · exact .inl rfl
    · exact .inr ⟨_, after, hmove, hre.works, fun _ => rfl⟩
  | deleteTransition volumeID placementRef =>
    refine hcommit fun store hdelete heq => ?_
    rw [apply, heq]
    obtain ⟨store', hdelete', hstore⟩ := bind_eq_ok.mp hdelete
    cases hstore
    obtain ⟨revisions, index, rfl, -, -⟩ := deleteIndexedWork_eq_ok hdelete'
    refine .inr ⟨_, none, ?_, rfl, fun h => absurd rfl h⟩
    cases s.store.works _ with
    | none => exact .same none
    | some before => exact .removed before
  | claim index leaseOwner leaseDuration =>
    refine hcommit fun store hstore heq => ?_
    rw [apply, heq]
    obtain ⟨⟨claimed, _⟩, hclaim, rfl⟩ := map_eq_ok.mp hstore
    rcases claimMaintenanceWork_eq_ok hclaim with rfl |
      ⟨entry, work, revisions, -, hwork, hmove, -, rfl, -⟩
    · exact .inl rfl
    · refine .inr ⟨_, some claimed, hwork ▸ hmove, ?_, fun _ => rfl⟩
      rw [← (hvalid _ _ hwork).1]
  | renew claim leaseOwner leaseDuration =>
    refine hcommit fun store hstore heq => ?_
    rw [apply, heq]
    obtain ⟨⟨renewed, _⟩, hrenew, rfl⟩ := map_eq_ok.mp hstore
    obtain ⟨work, revisions, hwork, hstate, rfl, rfl, -⟩ := renewMaintenanceWorkLease_eq_ok hrenew
    refine .inr ⟨_, some (renewedWork env s.now work leaseDuration),
      hwork ▸ WorkMove.renewed work leaseDuration hstate, ?_, fun _ => rfl⟩
    rw [← (hvalid _ _ hwork).1]
  | rebuild key =>
    refine hcommit fun store hrebuild heq => ?_
    rw [apply, heq]
    rcases rebuildMaintenanceWork_eq_ok hvalid hrebuild with hsame |
      ⟨transition, after, htr, hmove, hworks⟩
    · exact .inl hsame
    · refine .inr ⟨_, after, hmove, hworks, fun _ => ?_⟩
      rw [touchedWork, htr]
      rfl
  | sweep key =>
    refine hcommit fun store hsweep heq => ?_
    rw [apply, heq]
    exact .inl (works_sweepWorkIndex hsweep)

omit [DecidableEq δ] in
theorem now_commit (result : Except MaintenanceErr (MaintenanceStore δ)) :
    (s.commit result).now = s.now := by
  cases result <;> rfl

theorem now_le_apply : s.now ≤ (s.apply env e).now := by
  cases e with
  | tick elapsed => exact Nat.le_add_right _ _
  | setVolume | setReplicaSet => exact le_rfl
  | putTransition | deleteTransition | claim | renew | rebuild | sweep => exact (now_commit _).ge

variable (env) in
/-- The works are valid, and the clock is at or past a time in its second second or later. -/
structure Sound (now : Nat) (s : MaintenanceSystem δ) : Prop where
  works : WorksValid env s.store.works
  clock : clockSecond ≤ s.now
  later : now ≤ s.now

theorem Sound.apply (h : Sound env now s) (he : KeepsCounting env s e) :
    Sound env now (s.apply env e) := by
  refine ⟨?_, h.clock.trans now_le_apply, h.later.trans now_le_apply⟩
  rcases apply_works h.works with hsame | ⟨key, after, hmove, hworks, htouch⟩
  · rw [hsame]
    exact h.works
  intro k work hwork
  rw [hworks, Function.update_apply] at hwork
  split at hwork
  · next heq =>
    subst heq
    refine hmove.valid h.clock (fun hafter b hb => ?_) (fun b hb => h.works k b hb) work hwork
    exact (he b (htouch hafter ▸ hb)).1
  · exact h.works k work hwork

variable {events : List (MaintenanceEvent δ)} {key : String} {b : MaintenanceWorkRecord δ}
  {err : MaintenanceErr}

theorem Sound.run (h : Sound env now s)
    (hguarded : Trace.Guarded (step env) (KeepsCounting env) s events)
    (hrun : Trace.run (step env) s events = some s') : Sound env now s' := by
  refine Trace.run_induction (Sound env now) ?_ h hguarded hrun
  intro s e s₁ h he hstep
  cases hstep
  exact h.apply he

theorem later_run (h : Sound env now s)
    (hguarded : Trace.Guarded (step env) (KeepsCounting env) s events)
    (hkept : Trace.Guarded (step env) (KeepsWork env key) s events)
    (hrun : Trace.run (step env) s events = some s') (hb : s.store.works key = some b) :
    ∃ a, s'.store.works key = some a ∧ Later b a := by
  induction events generalizing s b with
  | nil =>
    cases hrun
    exact ⟨b, hb, .refl b⟩
  | cons e events ih =>
    obtain ⟨s₁, hstep, hrun⟩ := Trace.run_cons.mp hrun
    have hs1 := hstep
    cases hs1
    obtain ⟨a, ha⟩ := Option.ne_none_iff_exists'.mp hkept.1
    obtain ⟨c, hc, hlater⟩ := ih (h.apply hguarded.1) (hguarded.2 _ hstep) (hkept.2 _ hstep) hrun ha
    suffices hfirst : Later b a from ⟨c, hc, hfirst.trans hlater⟩
    rcases apply_works h.works with hsame | ⟨k, after, hmove, hworks, htouch⟩
    · rw [hsame, hb] at ha
      cases ha
      exact .refl b
    rw [hworks, Function.update_apply] at ha
    split at ha
    · next heq =>
      subst heq
      subst ha
      rw [hb] at hmove
      exact hmove.later (hguarded.1 b (htouch nofun ▸ hb))
    · rw [hb] at ha
      cases ha
      exact .refl b

/-! ## Leases -/

variable (env) in
def Passes (s : MaintenanceSystem δ) (claim : MaintenanceWorkRecord δ) (leaseOwner : String) :
    Prop :=
  ∃ work, s.store.validateMaintenanceWorkLease env s.now claim leaseOwner = .ok work

variable {claim : MaintenanceWorkRecord δ} {leaseOwner : String} {work : MaintenanceWorkRecord δ}

theorem getMaintenanceWork_eq_ok {workID : String}
    (h : s.store.getMaintenanceWork env workID = .ok work) :
    s.store.works (maintenanceWorkKey workID) = some work ∧ work.Valid env := by
  unfold getMaintenanceWork at h
  obtain ⟨-, h⟩ := throwIf_eq_ok.mp h
  obtain ⟨found, hfound, h⟩ := bind_eq_ok.mp h
  obtain ⟨hvalid, h⟩ := throwIf_eq_ok.mp h
  cases h
  refine ⟨?_, not_not.mp hvalid⟩
  cases hwork : s.store.works (maintenanceWorkKey workID) with
  | none =>
    rw [hwork] at hfound
    cases hfound
  | some w =>
    rw [hwork] at hfound
    cases hfound
    rfl

theorem Passes.holds (h : Passes env s claim leaseOwner) :
    claim.Valid env ∧ trimSpace leaseOwner ≠ "" ∧ ∃ work,
      s.store.works (maintenanceWorkKey claim.workID) = some work ∧ work.Valid env ∧
      HoldsLease s.now work claim (trimSpace leaseOwner) := by
  obtain ⟨work, h⟩ := h
  unfold validateMaintenanceWorkLease at h
  obtain ⟨hrequest, h⟩ := throwIf_eq_ok.mp h
  obtain ⟨current, hcur, h⟩ := bind_eq_ok.mp h
  obtain ⟨hholds, h⟩ := throwIf_eq_ok.mp h
  obtain ⟨hclaim, howner⟩ := not_or.mp hrequest
  refine ⟨not_not.mp hclaim, howner, current, ?_⟩
  obtain ⟨hfound, hvalid⟩ := getMaintenanceWork_eq_ok hcur
  exact ⟨hfound, hvalid, not_not.mp hholds⟩

theorem Passes.stored (hinj : DigestInjective env) (h : Passes env s claim leaseOwner) :
    s.store.works (maintenanceWorkKey claim.workID) = some claim ∧
      HoldsLease s.now claim claim (trimSpace leaseOwner) := by
  obtain ⟨⟨-, -, -, -, hclaim⟩, -, work, hwork, ⟨-, -, -, -, hvalid⟩, hholds⟩ := h.holds
  have hrest := hinj work claim (hvalid.symm.trans (hholds.1.trans hclaim))
  obtain rfl : work = claim := by
    calc work = { work with workDigest := claim.workDigest } := by rw [← hholds.1]
      _ = claim := congrArg
        (fun r : MaintenanceWorkRecord δ => { r with workDigest := claim.workDigest }) hrest
  exact ⟨hwork, hholds⟩

theorem authorityRead_error {α : Type} {o : Option α}
    (h : authorityRead (getJSONStore o) = .error err) : err = .stale := by
  cases o with
  | none =>
    cases h
    rfl
  | some a => cases h

theorem validateMaintenanceWorkAuthorityStore_error
    (h : s.store.validateMaintenanceWorkAuthorityStore env work = .error err) : err = .stale := by
  rcases bind_eq_error.mp h with h | ⟨transition, -, h⟩
  · exact authorityRead_error h
  split at h
  · cases h
    rfl
  rcases bind_eq_error.mp h with h | ⟨volume, -, h⟩
  · exact authorityRead_error h
  rcases bind_eq_error.mp h with h | ⟨current, -, h⟩
  · exact authorityRead_error h
  rcases bind_eq_error.mp h with h | ⟨target, -, h⟩
  · exact authorityRead_error h
  split at h
  · cases h
    rfl
  · cases h

theorem not_holds_of_leaseLost
    (h : s.store.validateMaintenanceWorkLease env s.now claim leaseOwner = .error .leaseLost)
    (hwork : s.store.works (maintenanceWorkKey claim.workID) = some work) :
    ¬HoldsLease s.now work claim (trimSpace leaseOwner) := by
  intro hholds
  unfold validateMaintenanceWorkLease at h
  obtain ⟨-, h⟩ | ⟨-, h⟩ := throwIf_eq_error.mp h
  · cases h
  rcases bind_eq_error.mp h with h | ⟨current, hcur, h⟩
  · -- reading the record does not report a lost lease
    unfold getMaintenanceWork at h
    obtain ⟨-, h⟩ | ⟨-, h⟩ := throwIf_eq_error.mp h
    · cases h
    rw [hwork, getJSONStore, pure_eq_ok, ok_bind] at h
    obtain ⟨-, h⟩ | ⟨-, h⟩ := throwIf_eq_error.mp h
    · cases h
    · cases h
  · obtain rfl : current = work :=
      Option.some.inj ((getMaintenanceWork_eq_ok hcur).1.symm.trans hwork)
    obtain ⟨hnot, -⟩ | ⟨-, h⟩ := throwIf_eq_error.mp h
    · exact hnot hholds
    rcases bind_eq_error.mp h with h | ⟨-, -, h⟩
    · exact MaintenanceErr.noConfusion (validateMaintenanceWorkAuthorityStore_error h)
    · cases h

/-- In every run, at every time, at most one owner and generation pass for a work. A claim that
has expired never passes again, and neither does one that was lost while its work record stays;
the generation of a record that stays does not go back. -/
theorem leases_fenced (hinj : DigestInjective env) {s₁ s₂ : MaintenanceSystem δ}
    {events₁ events₂ : List (MaintenanceEvent δ)} (hvalid : WorksValid env s.store.works)
    (hclock : clockSecond ≤ s.now)
    (hguarded₁ : Trace.Guarded (step env) (KeepsCounting env) s events₁)
    (hrun₁ : Trace.run (step env) s events₁ = some s₁)
    (hguarded₂ : Trace.Guarded (step env) (KeepsCounting env) s₁ events₂)
    (hrun₂ : Trace.run (step env) s₁ events₂ = some s₂) :
    (∀ claim claim' leaseOwner leaseOwner',
      maintenanceWorkKey claim.workID = maintenanceWorkKey claim'.workID →
      Passes env s claim leaseOwner → Passes env s claim' leaseOwner' →
        trimSpace leaseOwner = trimSpace leaseOwner' ∧
          claim.leaseGeneration = claim'.leaseGeneration) ∧
    (∀ claim leaseOwner, claim.leaseExpiresAtUnix ≤ unix s₁.now → ¬Passes env s₂ claim leaseOwner) ∧
    (∀ claim leaseOwner, Passes env s claim leaseOwner →
      Trace.Guarded (step env) (KeepsWork env (maintenanceWorkKey claim.workID)) s events₁ →
      Trace.Guarded (step env) (KeepsWork env (maintenanceWorkKey claim.workID)) s₁ events₂ →
      s₁.store.validateMaintenanceWorkLease env s₁.now claim leaseOwner = .error .leaseLost →
        ¬Passes env s₂ claim leaseOwner) ∧
    (∀ key before after, Trace.Guarded (step env) (KeepsWork env key) s events₁ →
      s.store.works key = some before → s₁.store.works key = some after →
        before.leaseGeneration ≤ after.leaseGeneration) := by
  have hsound : Sound env s.now s := ⟨hvalid, hclock, le_rfl⟩
  have hsound1 := hsound.run hguarded₁ hrun₁
  have hsound1' : Sound env s₁.now s₁ := ⟨hsound1.works, hsound1.clock, le_rfl⟩
  have hsound2 := hsound1'.run hguarded₂ hrun₂
  have hexpired : ∀ claim leaseOwner, claim.leaseExpiresAtUnix ≤ unix s₁.now →
      ¬Passes env s₂ claim leaseOwner := by
    intro claim leaseOwner hexpired hpass
    exact absurd (hpass.stored hinj).2.2.2.2.2
      (Nat.not_lt.mpr (hexpired.trans (unix_mono hsound2.later)))
  refine ⟨?_, hexpired, ?_, ?_⟩
  · intro claim claim' leaseOwner leaseOwner' hkey hpass hpass'
    obtain ⟨-, -, work, hwork, -, hholds⟩ := hpass.holds
    obtain ⟨-, -, work', hwork', -, hholds'⟩ := hpass'.holds
    rw [hkey, hwork'] at hwork
    cases hwork
    exact ⟨hholds.2.2.1.symm.trans hholds'.2.2.1, hholds.2.2.2.1.symm.trans hholds'.2.2.2.1⟩
  · intro claim leaseOwner hpass hkept1 hkept2 hlost
    obtain ⟨hstored, hholds⟩ := hpass.stored hinj
    obtain ⟨work, hwork, hlater⟩ := later_run hsound hguarded₁ hkept1 hrun₁ hstored
    have hnot := not_holds_of_leaseLost hlost hwork
    by_cases hsame : work = claim
    · -- the record is still the claim, so the lease has expired
      subst hsame
      refine hexpired work leaseOwner (Nat.not_lt.mp fun hlive => hnot ?_)
      exact ⟨rfl, hholds.2.1, hholds.2.2.1, rfl, hlive⟩
    · obtain ⟨work2, hwork2, hlater2⟩ := later_run hsound1' hguarded₂ hkept2 hrun₂ hwork
      intro hpass2
      have hstored2 := (hpass2.stored hinj).1
      rw [hwork2] at hstored2
      exact hlater.ne hsame hlater2 (Option.some.inj hstored2)
  · intro key before after hkept hbefore hafter
    obtain ⟨work, hwork, hlater⟩ := later_run hsound hguarded₁ hkept hrun₁ hbefore
    rw [hafter] at hwork
    cases hwork
    exact hlater.2

end MaintenanceSystem

end Lease

/-! ## A lease that comes back -/

namespace OnePlacement

open MaintenanceSystem

def lease : MaintenanceWorkRecord (List Field) :=
  MaintenanceStore.leasedWork env start.now work "w" (30 * clockSecond)

/-- The transition without a target, which takes its work away. -/
def withoutTarget : PlacementTransitionRecord :=
  { transition .queued with targetReplicaSetID := "" }

/-- The work is deleted while the worker holds its lease. Within the same second it is built again
and claimed by the same worker, and the claim that was lost passes again. -/
theorem lost_lease_passes_again :
    ∃ s₁ s₂ s₃, WellFormed env start ∧ Trace.run (step env) start claiming = some s₁ ∧
      Trace.run (step env) s₁ [.putTransition withoutTarget] = some s₂ ∧
      Trace.run (step env) s₂ claiming = some s₃ ∧
      Passes env s₁ lease "w" ∧
      s₂.store.validateMaintenanceWorkLease env s₂.now lease "w" = .error .notFound ∧
      Passes env s₃ lease "w" :=
  ⟨_, _, _, start_wellFormed, rfl, rfl, rfl, ⟨lease, by decide +kernel⟩, by decide +kernel,
    ⟨lease, by decide +kernel⟩⟩

theorem digestInjective : DigestInjective env := by
  intro w w' h
  change fields (.work _) = fields (.work _) at h
  simp only [fields, List.cons_append, List.nil_append, List.cons.injEq, Field.number.injEq,
    Field.text.injEq, Field.state.injEq, Int.natCast_inj] at h
  simp only [h]

/-- The worker's lease runs out, and another worker claims the work. -/
def expiring : List (MaintenanceEvent (List Field)) :=
  claiming ++ [.tick (31 * clockSecond)]

def reclaiming : List (MaintenanceEvent (List Field)) :=
  [.claim (maintenanceWorkIndexRecord env lease) "x" (30 * clockSecond)]

/-- The first worker's lease has run out and does not pass any more. -/
theorem expired_lease_not_passes : ∃ s₁ s₂, Trace.run (step env) start expiring = some s₁ ∧
      Trace.run (step env) s₁ reclaiming = some s₂ ∧
      lease.leaseExpiresAtUnix ≤ unix s₁.now ∧ ¬Passes env s₂ lease "w" := by
  have hguarded₁ : Trace.Guarded (step env) (KeepsCounting env) start expiring := by decide +kernel
  refine ⟨_, _, rfl, rfl, by decide +kernel, ?_⟩
  refine (leases_fenced digestInjective start_wellFormed.work.works start_wellFormed.clock hguarded₁
    rfl ?_ (rfl : Trace.run (step env) _ reclaiming = some _)).2.1 lease "w" ?_
  · decide +kernel
  · decide +kernel

end OnePlacement

end Namrbd
