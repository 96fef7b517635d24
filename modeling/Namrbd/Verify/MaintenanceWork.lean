import Namrbd.Metadata.MaintenanceWork
import Namrbd.Lib.Result

/-!
# The work index lists the work

`WorkMove` says how a call may change one work record, and `Reindexed` that the index
changes with it. Every successful call is such a move, so the index lists the ready and
the leased records and nothing else (`IndexExact`).

A transition write takes the entry of the earlier record away without asking whether it
has one, and is refused for a paused, failed or completed record.
-/

namespace Namrbd

open Function MaintenanceStore Option Result
open Text (trimSpace trimSpace_empty)

section Counters

variable {n : Nat}

theorem countUp_of_lt (h : n + 1 < counterBound) : countUp n = n + 1 := Nat.mod_eq_of_lt h

theorem countUp_ne_zero (h : n + 1 < counterBound) : countUp n ≠ 0 :=
  countUp_of_lt h ▸ Nat.succ_ne_zero n

theorem countUpNonzero_pos (n : Nat) : 0 < countUpNonzero n := by
  unfold countUpNonzero
  split
  · exact Nat.one_pos
  · next h => exact Nat.pos_of_ne_zero h

theorem unix_pos {now : Nat} (h : clockSecond ≤ now) : 0 < unix now := Nat.div_pos h (by decide)

theorem unix_mono {now later : Nat} (h : now ≤ later) : unix now ≤ unix later :=
  Nat.div_le_div_right h

end Counters

section Work

variable {δ : Type} {env : MaintenanceEnv δ}

/-! ## Valid records -/

namespace MaintenanceWorkRecord

variable {work : MaintenanceWorkRecord δ} {now : Nat}

section

variable (h : work.Valid env) (hnow : clockSecond ≤ now)
  (hrev : work.workRevision + 1 < counterBound)

include h hnow hrev

theorem Valid.released {state : MaintenanceWorkState}
    (hstate : state ≠ .leased) : (releasedWork env now work state).Valid env := by
  exact ⟨h.1, .inl ⟨hstate, rfl, rfl⟩, countUp_ne_zero hrev, unix_pos hnow, rfl⟩

theorem Valid.leased {leaseOwner : String} (howner : leaseOwner ≠ "") (leaseDuration : Nat) :
    (leasedWork env now work leaseOwner leaseDuration).Valid env := by
  have hexpires := unix_pos (hnow.trans (Nat.le_add_right _ leaseDuration))
  exact ⟨h.1, .inr ⟨rfl, howner, countUpNonzero_pos _, hexpires⟩, countUp_ne_zero hrev,
    unix_pos hnow, rfl⟩

theorem Valid.renewed (hstate : work.state = .leased) (leaseDuration : Nat) :
    (renewedWork env now work leaseDuration).Valid env := by
  have hlease : work.leaseOwner ≠ "" ∧ 0 < work.leaseGeneration := by
    rcases h.2.1 with hfree | hlease
    · exact absurd hstate hfree.1
    · exact ⟨hlease.2.1, hlease.2.2.1⟩
  have hexpires := unix_pos (hnow.trans (Nat.le_add_right _ leaseDuration))
  exact ⟨h.1, .inr ⟨hstate, hlease.1, hlease.2, hexpires⟩, countUp_ne_zero hrev,
    unix_pos hnow, rfl⟩

end

theorem valid_newMaintenanceWork {transition : PlacementTransitionRecord}
    (helig : maintenanceTransitionReadyEligible env transition) (hnow : clockSecond ≤ now)
    {before : Option (MaintenanceWorkRecord δ)}
    (hrev : ∀ b ∈ before, b.workRevision + 1 < counterBound) {volume : VolumeState}
    {current target : ReplicaSetState} (hvol : volume.epoch ≠ 0) (hcur : current.epoch ≠ 0)
    (htarget : target.epoch ≠ 0) :
    ((newMaintenanceWork env now transition before volume current target).sign env).Valid env := by
  obtain ⟨hvolumeID, hplace, hreason, hcurrentID, htargetID⟩ := helig
  refine ⟨⟨rfl, ?_, hreason, rfl, rfl, ?_, ?_, ?_, ?_, hvol,
    hcur, htarget, env.digestSummaryValue_ne_empty _, ?_⟩, .inl ⟨nofun, rfl, rfl⟩, ?_,
    unix_pos hnow, rfl⟩
  · intro h
    have hlen := congrArg String.length h
    simp [newMaintenanceWork, MaintenanceWorkRecord.sign, maintenanceWorkID] at hlen
  · intro h
    refine hvolumeID ((congrArg _ h).trans ?_)
    rw [maintenanceIndexVolumeID, trimSpace_empty, env.canonicalVolumeID_empty, getD_none]
  · intro h
    exact hplace ((congrArg _ h).trans trimSpace_empty)
  · intro h
    exact hcurrentID ((congrArg _ h).trans trimSpace_empty)
  · intro h
    exact htargetID ((congrArg _ h).trans trimSpace_empty)
  · change (0 : Int) < if transition.startedAtUnix ≤ 0 then (unix now : Int) else
      transition.startedAtUnix
    have := unix_pos hnow
    split <;> omega
  · cases before with
    | none => exact Nat.one_ne_zero
    | some b => exact countUp_ne_zero (hrev b rfl)

end MaintenanceWorkRecord

/-! ## The index of a table of works -/

section Index

variable (env) in
/-- Every work record is stored under its key and is valid. -/
def WorksValid (works : String → Option (MaintenanceWorkRecord δ)) : Prop :=
  ∀ key work, works key = some work → maintenanceWorkKey work.workID = key ∧ work.Valid env

variable (env) in
/-- Every list revision is one of the first schema, which is replaced, or valid. -/
def RevisionsValid
    (revisions : MaintenanceWorkListRevisionKey → Option (MaintenanceWorkListRevisionState δ)) :
    Prop :=
  ∀ key state, revisions key = some state → state.schemaVersion = 1 ∨ state.Valid env key

variable (env) in
/-- A change of the list revisions at a time after the first second keeps them valid. -/
abbrev KeepsRevisions (now : Nat)
    (revisions revisions' :
      MaintenanceWorkListRevisionKey → Option (MaintenanceWorkListRevisionState δ)) : Prop :=
  RevisionsValid env revisions → clockSecond ≤ now → RevisionsValid env revisions'

variable (env) in
/-- The index has one entry for each ready or leased work record, made from that record and
stored under the entry's key, and no other entry. -/
def IndexExact (works : String → Option (MaintenanceWorkRecord δ))
    (index : MaintenanceWorkIndexKey → Option (MaintenanceWorkIndexRecord δ)) : Prop :=
  ∀ key entry, index key = some entry ↔
    ∃ work, works (maintenanceWorkKey work.workID) = some work ∧
      indexedMaintenanceWorkState work.state ∧ entry = maintenanceWorkIndexRecord env work ∧
      key = maintenanceWorkIndexKey entry

variable (env) in
def removeEntry (index : MaintenanceWorkIndexKey → Option (MaintenanceWorkIndexRecord δ)) :
    Option (MaintenanceWorkRecord δ) →
      MaintenanceWorkIndexKey → Option (MaintenanceWorkIndexRecord δ)
  | none => index
  | some work =>
    update index (maintenanceWorkIndexKey (maintenanceWorkIndexRecord env work)) none

variable (env) in
def insertEntry (index : MaintenanceWorkIndexKey → Option (MaintenanceWorkIndexRecord δ)) :
    Option (MaintenanceWorkRecord δ) →
      MaintenanceWorkIndexKey → Option (MaintenanceWorkIndexRecord δ)
  | none => index
  | some work =>
    if indexedMaintenanceWorkState work.state then
      update index (maintenanceWorkIndexKey (maintenanceWorkIndexRecord env work))
        (some (maintenanceWorkIndexRecord env work))
    else index

variable {works : String → Option (MaintenanceWorkRecord δ)}
  {index : MaintenanceWorkIndexKey → Option (MaintenanceWorkIndexRecord δ)} {key : String}
  {before after : Option (MaintenanceWorkRecord δ)} {k : MaintenanceWorkIndexKey}

theorem removeEntry_of_ne (hbefore : ∀ b ∈ before, maintenanceWorkKey b.workID = key)
    (hk : k.workID ≠ key) : removeEntry env index before k = index k := by
  cases before with
  | none => rfl
  | some b =>
    apply update_of_ne
    rintro rfl
    exact hk (hbefore b rfl)

theorem insertEntry_of_ne (hafter : ∀ a ∈ after, maintenanceWorkKey a.workID = key)
    (hk : k.workID ≠ key) : insertEntry env index after k = index k := by
  cases after with
  | none => rfl
  | some a =>
    rw [insertEntry]
    split
    · apply update_of_ne
      rintro rfl
      exact hk (hafter a rfl)
    · rfl

theorem IndexExact.removeEntry_self (h : IndexExact env works index) (hk : k.workID = key) :
    removeEntry env index (works key) k = none := by
  cases hindex : index k with
  | none =>
    cases works key with
    | none => exact hindex
    | some b => rw [removeEntry, update_apply, hindex, ite_self]
  | some entry =>
    obtain ⟨work, hwork, -, rfl, rfl⟩ := (h k entry).mp hindex
    have hkey : maintenanceWorkKey work.workID = key := hk
    rw [← hkey, hwork]
    exact update_self _ _ _

/-- A work record and its entry change together. -/
theorem IndexExact.reindex (h : IndexExact env works index)
    (hbefore : ∀ b ∈ works key, maintenanceWorkKey b.workID = key)
    (hafter : ∀ a ∈ after, maintenanceWorkKey a.workID = key) :
    IndexExact env (update works key after)
      (insertEntry env (removeEntry env index (works key)) after) := by
  intro k entry
  by_cases hk : k.workID = key
  · -- the entry of this work
    have hnone := h.removeEntry_self hk
    constructor
    · intro hentry
      cases after with
      | none =>
        rw [insertEntry, hnone] at hentry
        cases hentry
      | some a =>
        rw [insertEntry] at hentry
        split at hentry
        · next hstate =>
          rw [update_apply, hnone] at hentry
          split at hentry
          · next heq =>
            cases hentry
            refine ⟨a, ?_, hstate, rfl, heq⟩
            rw [hafter a rfl, update_self]
          · cases hentry
        · rw [hnone] at hentry
          cases hentry
    · rintro ⟨work, hwork, hstate, rfl, rfl⟩
      have hkey : maintenanceWorkKey work.workID = key := hk
      rw [hkey, update_self] at hwork
      rw [hwork, insertEntry, if_pos hstate, update_self]
  · -- the entry of another work
    rw [insertEntry_of_ne hafter hk, removeEntry_of_ne hbefore hk, h k entry]
    refine exists_congr fun work => and_congr_left ?_
    rintro ⟨-, rfl, rfl⟩
    have hkey : maintenanceWorkKey work.workID ≠ key := hk
    rw [update_of_ne hkey]

end Index

/-! ## What the calls on the index do -/

namespace MaintenanceStore

variable [DecidableEq δ] {s s' : MaintenanceStore δ} {now : Nat}
  {index : MaintenanceWorkIndexRecord δ} {work : MaintenanceWorkRecord δ}

theorem listRevisionState_ok (h : RevisionsValid env s.listRevisions)
    (key : MaintenanceWorkListRevisionKey) : ∃ state, s.listRevisionState env key = .ok state := by
  unfold listRevisionState
  split
  · exact ⟨_, rfl⟩
  next state hfound =>
  split
  · exact ⟨_, rfl⟩
  · next hschema =>
    rw [if_pos ((h _ state hfound).resolve_left hschema)]
    exact ⟨_, rfl⟩

theorem advanceMaintenanceWorkListRevisionShard_eq_ok {reason : String}
    {workState : MaintenanceWorkState} {shard : Nat}
    (h : s.advanceMaintenanceWorkListRevisionShard env now reason workState shard = .ok s') :
    ∃ revisions, s' = { s with listRevisions := revisions } ∧
      KeepsRevisions env now s.listRevisions revisions := by
  unfold advanceMaintenanceWorkListRevisionShard at h
  obtain ⟨-, h⟩ := throwIf_eq_ok.mp h
  obtain ⟨state, hstate, h⟩ := bind_eq_ok.mp h
  cases h
  refine ⟨_, rfl, fun hvalid hnow key found hfound => ?_⟩
  rw [update_apply] at hfound
  split at hfound
  · next heq =>
    subst heq
    cases hfound
    have hrest := Nat.ne_of_gt (countUpNonzero_pos state.revision)
    unfold listRevisionState at hstate
    split at hstate
    · cases hstate
      exact .inr ⟨rfl, rfl, rfl, rfl, hrest, unix_pos hnow, rfl⟩
    split at hstate
    · cases hstate
      exact .inr ⟨rfl, rfl, rfl, rfl, hrest, unix_pos hnow, rfl⟩
    split at hstate
    · next hfound =>
      cases hstate
      exact .inr ⟨hfound.1, hfound.2.1, hfound.2.2.1, hfound.2.2.2.1, hrest, unix_pos hnow, rfl⟩
    · cases hstate
  · exact hvalid key found hfound

theorem advanceMaintenanceWorkListRevision_eq_ok
    (h : s.advanceMaintenanceWorkListRevision env now index = .ok s') :
    ∃ revisions, s' = { s with listRevisions := revisions } ∧
      KeepsRevisions env now s.listRevisions revisions := by
  unfold advanceMaintenanceWorkListRevision at h
  obtain ⟨-, h⟩ := throwIf_eq_ok.mp h
  exact advanceMaintenanceWorkListRevisionShard_eq_ok h

theorem advanceMaintenanceWorkListRevision_ok (hrevs : RevisionsValid env s.listRevisions)
    (hwork : work.Valid env) (hstate : indexedMaintenanceWorkState work.state) :
    ∃ s', s.advanceMaintenanceWorkListRevision env now (maintenanceWorkIndexRecord env work) =
      .ok s' := by
  obtain ⟨-, hid, hreason, -⟩ := hwork.1
  unfold advanceMaintenanceWorkListRevision
  rw [if_neg (by exact not_or.mpr ⟨not_not.mpr hreason, not_or.mpr ⟨not_not.mpr hstate, hid⟩⟩)]
  unfold advanceMaintenanceWorkListRevisionShard
  have hshard : maintenanceWorkIndexVirtualShard env work.workID < maintenanceWorkIndexShardCount :=
    Nat.mod_lt _ (by decide)
  rw [if_neg (by exact not_or.mpr ⟨not_not.mpr hreason, not_or.mpr ⟨not_not.mpr hstate,
    Nat.not_le.mpr hshard⟩⟩)]
  obtain ⟨state, hstate⟩ := listRevisionState_ok hrevs
    ⟨work.reason, work.state, maintenanceWorkIndexVirtualShard env work.workID⟩
  exact ⟨_, bind_eq_ok.mpr ⟨state, hstate, rfl⟩⟩

theorem deleteMaintenanceWorkIndexStore_eq_ok
    (h : s.deleteMaintenanceWorkIndexStore env now index = .ok s') :
    ∃ revisions, s' = { s with
        workIndex := update s.workIndex (maintenanceWorkIndexKey index) none
        listRevisions := revisions } ∧
      KeepsRevisions env now s.listRevisions revisions :=
  advanceMaintenanceWorkListRevision_eq_ok h

theorem putIndexedWork_eq_ok {key : String} (h : s.putIndexedWork env now key work = .ok s') :
    ∃ revisions, s' = { s with
        works := update s.works key (some work)
        workIndex := update s.workIndex
          (maintenanceWorkIndexKey (maintenanceWorkIndexRecord env work))
          (some (maintenanceWorkIndexRecord env work))
        listRevisions := revisions } ∧
      KeepsRevisions env now s.listRevisions revisions :=
  advanceMaintenanceWorkListRevision_eq_ok h

end MaintenanceStore

/-! ## Moves of a work record -/

variable [DecidableEq δ]

variable (env) in
/-- How one call may change the work record under a key. -/
inductive WorkMove (now : Nat) (key : String) :
    Option (MaintenanceWorkRecord δ) → Option (MaintenanceWorkRecord δ) → Prop where
  | same (work : Option (MaintenanceWorkRecord δ)) : WorkMove now key work work
  | removed (before : MaintenanceWorkRecord δ) : WorkMove now key (some before) none
  | released (before : MaintenanceWorkRecord δ) (state : MaintenanceWorkState)
      (hstate : state ≠ .leased) :
      WorkMove now key (some before) (some (releasedWork env now before state))
  /-- The record is built from a transition; an earlier one hands on its counters. -/
  | opened (before : Option (MaintenanceWorkRecord δ)) (transition : PlacementTransitionRecord)
      (volume : VolumeState) (current target : ReplicaSetState)
      (hkey : maintenanceWorkKey
        (maintenanceWorkID env transition.volumeID transition.placementRef) = key)
      (hvalid : ((newMaintenanceWork env now transition before volume current
        target).sign env).Valid env) :
      WorkMove now key before (some ((newMaintenanceWork env now transition before
        volume current target).sign env))
  /-- A lease that is not held is given out. -/
  | leased (before : MaintenanceWorkRecord δ) (leaseOwner : String) (leaseDuration : Nat)
      (howner : leaseOwner ≠ "")
      (hfree : ¬(before.state = .leased ∧ unix now < before.leaseExpiresAtUnix)) :
      WorkMove now key (some before)
        (some (leasedWork env now before leaseOwner leaseDuration))
  | renewed (before : MaintenanceWorkRecord δ) (leaseDuration : Nat)
      (hstate : before.state = .leased) :
      WorkMove now key (some before)
        (some (renewedWork env now before leaseDuration))

section Moves

variable {now : Nat} {key : String} {before after : Option (MaintenanceWorkRecord δ)}

omit [DecidableEq δ] in
theorem WorkMove.valid (h : WorkMove env now key before after) (hnow : clockSecond ≤ now)
    (hrev : after ≠ none → ∀ b ∈ before, b.workRevision + 1 < counterBound)
    (hbefore : ∀ b ∈ before, maintenanceWorkKey b.workID = key ∧ b.Valid env) :
    ∀ a ∈ after, maintenanceWorkKey a.workID = key ∧ a.Valid env := by
  intro a ha
  cases h with
  | same => exact hbefore a ha
  | removed before => cases ha
  | released before state hstate =>
    cases ha
    obtain ⟨hkey, hvalid⟩ := hbefore before rfl
    exact ⟨hkey, hvalid.released hnow (hrev nofun before rfl) hstate⟩
  | opened _ transition volume current target hkey hvalid =>
    cases ha
    exact ⟨hkey, hvalid⟩
  | leased before leaseOwner leaseDuration howner _ =>
    cases ha
    obtain ⟨hkey, hvalid⟩ := hbefore before rfl
    exact ⟨hkey, hvalid.leased hnow (hrev nofun before rfl) howner leaseDuration⟩
  | renewed before leaseDuration hstate =>
    cases ha
    obtain ⟨hkey, hvalid⟩ := hbefore before rfl
    exact ⟨hkey, hvalid.renewed hnow (hrev nofun before rfl) hstate leaseDuration⟩

end Moves

namespace MaintenanceStore

variable {s s' : MaintenanceStore δ} {now : Nat} {key : String}
  {before after : Option (MaintenanceWorkRecord δ)} {transition : PlacementTransitionRecord}

variable (env) in
/-- The work records and their index agree. -/
structure WorkValid (s : MaintenanceStore δ) : Prop where
  works : WorksValid env s.works
  index : IndexExact env s.works s.workIndex
  revisions : RevisionsValid env s.listRevisions

variable (env now key) in
/-- The work record under a key changes to `after`, and its index entry with it. -/
structure Reindexed (s s' : MaintenanceStore δ) (after : Option (MaintenanceWorkRecord δ)) :
    Prop where
  works : s'.works = update s.works key after
  index : s'.workIndex = insertEntry env (removeEntry env s.workIndex (s.works key)) after
  revisions : KeepsRevisions env now s.listRevisions s'.listRevisions

/-- Only works, index and list revisions change. -/
def KeepsRecords (s s' : MaintenanceStore δ) : Prop :=
  s' = { s with works := s'.works, workIndex := s'.workIndex, listRevisions := s'.listRevisions }

variable {index : MaintenanceWorkIndexRecord δ}

omit [DecidableEq δ] in
theorem WorkValid.reindexed (h : WorkValid env s) (hs : Reindexed env now key s s' after)
    (hmove : WorkMove env now key (s.works key) after) (hnow : clockSecond ≤ now)
    (hrev : after ≠ none → ∀ b ∈ s.works key, b.workRevision + 1 < counterBound) :
    WorkValid env s' := by
  have hbefore : ∀ b ∈ s.works key, maintenanceWorkKey b.workID = key ∧ b.Valid env :=
    fun b hb => h.works key b hb
  have hafter := hmove.valid hnow hrev hbefore
  refine ⟨?_, ?_, hs.revisions h.revisions hnow⟩
  · intro k work hwork
    rw [hs.works, update_apply] at hwork
    split at hwork
    · next heq =>
      subst heq
      exact hafter work hwork
    · exact h.works k work hwork
  · rw [hs.works, hs.index]
    exact h.index.reindex (fun b hb => (hbefore b hb).1) fun a ha => (hafter a ha).1

theorem unindexWork_eq_ok (h : s.unindexWork env now before = .ok s') :
    ∃ revisions, s' = { s with
        workIndex := removeEntry env s.workIndex before
        listRevisions := revisions } ∧
      KeepsRevisions env now s.listRevisions revisions := by
  cases before with
  | none =>
    cases h
    exact ⟨_, rfl, fun h _ => h⟩
  | some before =>
    rw [unindexWork] at h
    split at h
    · exact deleteMaintenanceWorkIndexStore_eq_ok h
    · cases h

theorem buildMaintenanceWorkStore_eq_ok {work : MaintenanceWorkRecord δ}
    (h : s.buildMaintenanceWorkStore env now transition before = .ok work)
    (hkey : maintenanceWorkKey
      (maintenanceWorkID env transition.volumeID transition.placementRef) = key) :
    WorkMove env now key before (some work) ∧ indexedMaintenanceWorkState work.state := by
  obtain ⟨volume, -, h⟩ := bind_eq_ok.mp h
  obtain ⟨current, -, h⟩ := bind_eq_ok.mp h
  obtain ⟨target, -, h⟩ := bind_eq_ok.mp h
  dsimp only at h
  split at h
  · next b hb =>
    cases h
    obtain ⟨rfl, hcur⟩ := filter_eq_some_iff.mp hb
    exact ⟨.same _, (of_decide_eq_true hcur).1⟩
  · split at h
    · next hvalid =>
      cases h
      exact ⟨.opened before transition volume current target hkey hvalid, .inl rfl⟩
    · cases h

variable {s1 : MaintenanceStore δ} {leaseOwner : String} {leaseDuration : Nat}

section

variable (h1 : s.unindexWork env now (s.works key) = .ok s1)

include h1

theorem Reindexed.of_putIndexedWork {work : MaintenanceWorkRecord δ}
    (h : s1.putIndexedWork env now key work = .ok s')
    (hstate : indexedMaintenanceWorkState work.state) :
    Reindexed env now key s s' (some work) ∧ KeepsRecords s s' := by
  obtain ⟨revisions1, rfl, hrevs1⟩ := unindexWork_eq_ok h1
  obtain ⟨revisions, rfl, hrevs⟩ := putIndexedWork_eq_ok h
  refine ⟨⟨rfl, ?_, fun hvalid hnow => hrevs (hrevs1 hvalid hnow) hnow⟩, rfl⟩
  rw [insertEntry, if_pos hstate]

theorem Reindexed.of_unindexed (hstate : ∀ a ∈ after, ¬indexedMaintenanceWorkState a.state) :
    let s' := { s1 with works := update s1.works key after }
    Reindexed env now key s s' after ∧ KeepsRecords s s' := by
  obtain ⟨revisions, rfl, hrevs⟩ := unindexWork_eq_ok h1
  refine ⟨⟨rfl, ?_, hrevs⟩, rfl⟩
  cases after with
  | none => rfl
  | some a => rw [insertEntry, if_neg (hstate a rfl)]

theorem Reindexed.of_none (hnone : s.works key = none) :
    ∃ after, WorkMove env now key (s.works key) after ∧ Reindexed env now key s s1 after ∧
      KeepsRecords s s1 := by
  have hsame : Reindexed env now key s { s1 with works := update s1.works key none } none ∧ _ :=
    Reindexed.of_unindexed h1 nofun
  have hworks : s1.works key = none := by
    obtain ⟨revisions, rfl, -⟩ := unindexWork_eq_ok h1
    exact hnone
  rw [update_eq_self_iff.mpr hworks.symm] at hsame
  refine ⟨none, ?_, hsame⟩
  rw [hnone]
  exact .same none

end

/-- A transition write moves the work record of its placement, and the index follows. -/
theorem syncMaintenanceWorkIndex_eq_ok (h : s.syncMaintenanceWorkIndex env now transition = .ok s')
    (hkey : maintenanceWorkKey
      (maintenanceWorkID env transition.volumeID transition.placementRef) = key) :
    s' = s ∨ ∃ after, WorkMove env now key (s.works key) after ∧
      Reindexed env now key s s' after ∧ KeepsRecords s s' := by
  unfold syncMaintenanceWorkIndex at h
  split at h
  · cases h
    exact .inl rfl
  right
  obtain ⟨s1, h1, h⟩ := bind_eq_ok.mp h
  rw [hkey] at h1 h
  split at h
  · cases h
    unfold closeMaintenanceWork
    split
    · next hnone => exact Reindexed.of_none h1 hnone
    next b hb =>
    split
    · exact ⟨none, hb ▸ .removed b, Reindexed.of_unindexed h1 nofun⟩
    next terminal hterminal =>
    have hstate : ¬indexedMaintenanceWorkState terminal := by
      generalize transition.state = state at hterminal
      cases state <;> cases hterminal <;> decide
    refine ⟨some (releasedWork env now b terminal), hb ▸ .released b terminal ?_,
      Reindexed.of_unindexed h1 ?_⟩
    · rintro rfl
      exact hstate (.inr rfl)
    · rintro a ⟨⟩
      exact hstate
  split at h
  · cases h
    split
    · next hnone => exact Reindexed.of_none h1 hnone
    · next b hb => exact ⟨none, hb ▸ .removed b, Reindexed.of_unindexed h1 nofun⟩
  split at h
  · next b hb =>
    obtain ⟨hb, hlease⟩ := filter_eq_some_iff.mp hb
    split at h
    · exact ⟨_, hb ▸ .released b .ready nofun, Reindexed.of_putIndexedWork h1 h (.inl rfl)⟩
    -- the lease stays, and its entry is put again
    have hput : s1.putIndexedWork env now key b = .ok s' := by
      have hworks : s1.works key = some b := by
        obtain ⟨revisions, rfl, -⟩ := unindexWork_eq_ok h1
        exact hb
      rw [putIndexedWork, putWork, update_eq_self_iff.mpr hworks.symm]
      exact h
    exact ⟨some b, hb ▸ .same _,
      Reindexed.of_putIndexedWork h1 hput (.inr (of_decide_eq_true hlease).1)⟩
  · unfold openMaintenanceWork at h
    split at h
    · next work hbuild =>
      obtain ⟨hmove, hstate⟩ := buildMaintenanceWorkStore_eq_ok hbuild hkey
      exact ⟨some work, hmove, Reindexed.of_putIndexedWork h1 h hstate⟩
    · split at h
      · next hnone =>
        cases h
        exact Reindexed.of_none h1 (isNone_iff_eq_none.mp hnone)
      · cases h
    · cases h

/-- The records that an advance of the transition checks. -/
def authority (env : MaintenanceEnv δ) (s : MaintenanceStore δ)
    (transition : PlacementTransitionRecord) :
    Option (VolumeState × ReplicaSetState × ReplicaSetState) := do
  let volume ← s.volumes (mustCanonicalVolumeID env transition.volumeID)
  let current ← s.replicaSets (replicaSetKey env transition.volumeID transition.currentReplicaSetID)
  let target ← s.replicaSets (replicaSetKey env transition.volumeID transition.targetReplicaSetID)
  return (volume, current, target)

/-- The placement of a transition is complete; only a transition without work may be ahead of
it. -/
def AuthorityReady (env : MaintenanceEnv δ) (s : MaintenanceStore δ)
    (transition : PlacementTransitionRecord) (before : Option (MaintenanceWorkRecord δ)) : Prop :=
  (s.authority env transition = none → before.isNone) ∧
    ∀ records ∈ s.authority env transition,
      records.1.epoch ≠ 0 ∧ records.2.1.epoch ≠ 0 ∧ records.2.2.epoch ≠ 0

instance (env : MaintenanceEnv δ) (s : MaintenanceStore δ) (transition : PlacementTransitionRecord)
    (before : Option (MaintenanceWorkRecord δ)) :
    Decidable (AuthorityReady env s transition before) :=
  inferInstanceAs (Decidable (_ ∧ _))

theorem buildMaintenanceWorkStore_ok (helig : maintenanceTransitionReadyEligible env transition)
    (hnow : clockSecond ≤ now) (hrev : ∀ b ∈ before, b.workRevision + 1 < counterBound)
    (hready : AuthorityReady env s transition before) :
    (∃ work, s.buildMaintenanceWorkStore env now transition before = .ok work) ∨
      before = none ∧ s.buildMaintenanceWorkStore env now transition before = .error .notFound := by
  unfold AuthorityReady authority at hready
  unfold buildMaintenanceWorkStore getVolume getReplicaSet
  cases hvol : s.volumes (mustCanonicalVolumeID env transition.volumeID) with
  | none =>
    rw [hvol] at hready
    exact .inr ⟨isNone_iff_eq_none.mp (hready.1 rfl), rfl⟩
  | some volume =>
    cases hcur : s.replicaSets
        (replicaSetKey env transition.volumeID transition.currentReplicaSetID) with
    | none =>
      rw [hvol, hcur] at hready
      exact .inr ⟨isNone_iff_eq_none.mp (hready.1 rfl), rfl⟩
    | some current =>
      cases htarget : s.replicaSets
          (replicaSetKey env transition.volumeID transition.targetReplicaSetID) with
      | none =>
        rw [hvol, hcur, htarget] at hready
        exact .inr ⟨isNone_iff_eq_none.mp (hready.1 rfl), rfl⟩
      | some target =>
        rw [hvol, hcur, htarget] at hready
        obtain ⟨hvol, hcur, htarget⟩ := hready.2 (volume, current, target) rfl
        left
        simp only [getJSONStore, pure_bind]
        split
        · exact ⟨_, rfl⟩
        · rw [if_pos (MaintenanceWorkRecord.valid_newMaintenanceWork helig hnow hrev
            hvol hcur htarget)]
          exact ⟨_, rfl⟩

/-- A transition write is not refused while the earlier work record has an index entry and the
placement is complete. -/
theorem syncMaintenanceWorkIndex_ok (h : WorkValid env s) (hnow : clockSecond ≤ now)
    (hkey : maintenanceWorkKey
      (maintenanceWorkID env transition.volumeID transition.placementRef) = key)
    (hbefore : ∀ b ∈ s.works key,
      indexedMaintenanceWorkState b.state ∧ b.workRevision + 1 < counterBound)
    (hready : transition.active → maintenanceTransitionReadyEligible env transition →
      (s.works key).filter (LeasedFor env · transition) = none →
        AuthorityReady env s transition (s.works key)) :
    ∃ s', s.syncMaintenanceWorkIndex env now transition = .ok s' := by
  unfold syncMaintenanceWorkIndex
  split
  · exact ⟨_, rfl⟩
  rw [hkey]
  obtain ⟨s1, h1⟩ : ∃ s1, s.unindexWork env now (s.works key) = .ok s1 := by
    cases hb : s.works key with
    | none => exact ⟨_, rfl⟩
    | some b =>
      have hvalid := (h.works key b hb).2
      rw [unindexWork, if_pos hvalid]
      exact advanceMaintenanceWorkListRevision_ok h.revisions hvalid (hbefore b hb).1
  obtain ⟨revisions, hs1, hrevs⟩ := unindexWork_eq_ok h1
  have hrevs1 : RevisionsValid env s1.listRevisions := by
    rw [hs1]
    exact hrevs h.revisions hnow
  have hvalid : ∀ b ∈ s.works key, maintenanceWorkKey b.workID = key ∧ b.Valid env :=
    fun b hb => h.works key b hb
  dsimp only
  rw [h1, ok_bind]
  split
  · exact ⟨_, rfl⟩
  next hactive =>
  split
  · exact ⟨_, rfl⟩
  next helig =>
  have helig := not_not.mp helig
  split
  · next b hb =>
    obtain ⟨hb, hlease⟩ := filter_eq_some_iff.mp hb
    split
    · exact advanceMaintenanceWorkListRevision_ok hrevs1
        ((hvalid b hb).2.released hnow (hbefore b hb).2 nofun) (.inl rfl)
    · exact advanceMaintenanceWorkListRevision_ok hrevs1 (hvalid b hb).2
        (.inr (of_decide_eq_true hlease).1)
  · next hnone =>
    have hready1 : AuthorityReady env s1 transition (s.works key) := by
      rw [hs1]
      exact hready (not_not.mp hactive) helig hnone
    unfold openMaintenanceWork
    rcases buildMaintenanceWorkStore_ok helig hnow (fun b hb => (hbefore b hb).2) hready1 with
      ⟨work, hbuild⟩ | ⟨hnothing, hbuild⟩
    · rw [hbuild]
      obtain ⟨hmove, hstate⟩ := buildMaintenanceWorkStore_eq_ok hbuild hkey
      exact advanceMaintenanceWorkListRevision_ok hrevs1
        (hmove.valid hnow (fun _ b hb => (hbefore b hb).2) hvalid work rfl).2 hstate
    · rw [hbuild, hnothing]
      exact ⟨_, rfl⟩

variable {claimed claim renewed : MaintenanceWorkRecord δ}

/-- What a claim changes. -/
theorem claimMaintenanceWork_eq_ok
    (h : s.claimMaintenanceWork env now index leaseOwner leaseDuration = .ok (claimed, s')) :
    s' = s ∨ ∃ entry work revisions,
      s.workIndex (maintenanceWorkIndexKey index) = some entry ∧
      s.works (maintenanceWorkKey index.workID) = some work ∧
      WorkMove env now (maintenanceWorkKey index.workID) (some work) (some claimed) ∧
      claimed = leasedWork env now work (trimSpace leaseOwner) leaseDuration ∧
      s' = { s with
        works := update s.works (maintenanceWorkKey work.workID) (some claimed)
        workIndex := update
          (update s.workIndex (maintenanceWorkIndexKey entry) none)
          (maintenanceWorkIndexKey (maintenanceWorkIndexRecord env claimed))
          (some (maintenanceWorkIndexRecord env claimed))
        listRevisions := revisions } ∧
      KeepsRevisions env now s.listRevisions revisions := by
  unfold claimMaintenanceWork at h
  obtain ⟨hrequest, h⟩ := throwIf_eq_ok.mp h
  obtain ⟨entry, hentry, h⟩ := bind_eq_ok.mp h
  obtain ⟨work, hwork, h⟩ := bind_eq_ok.mp h
  obtain ⟨⟨⟩, -, h⟩ := bind_eq_ok.mp h
  have hentry : s.workIndex (maintenanceWorkIndexKey index) = some entry := by
    unfold claimedIndex at hentry
    split at hentry
    · cases hentry
    next found =>
    split at hentry
    · cases hentry
      exact found
    · cases hentry
  have hwork : s.works (maintenanceWorkKey index.workID) = some work := by
    unfold indexedWork at hwork
    split at hwork
    · cases hwork
    next found =>
    split at hwork
    · cases hwork
      exact found
    · cases hwork
  split at h
  · split at h
    · cases h
      exact .inl rfl
    · cases h
  · next hfree =>
    obtain ⟨s1, h1, h⟩ := bind_eq_ok.mp h
    obtain ⟨s2, h2, h⟩ := bind_eq_ok.mp h
    cases h
    obtain ⟨revisions1, rfl, hrevs1⟩ := deleteMaintenanceWorkIndexStore_eq_ok h1
    obtain ⟨revisions, rfl, hrevs⟩ := putIndexedWork_eq_ok h2
    exact .inr ⟨entry, work, revisions, hentry, hwork,
      .leased work _ leaseDuration (fun howner => hrequest (.inr (.inl howner))) hfree, rfl, rfl,
      fun hvalid hnow => hrevs (hrevs1 hvalid hnow) hnow⟩

theorem renewMaintenanceWorkLease_eq_ok
    (h : s.renewMaintenanceWorkLease env now claim leaseOwner leaseDuration = .ok (renewed, s')) :
    ∃ work revisions, s.works (maintenanceWorkKey claim.workID) = some work ∧
      work.state = .leased ∧ renewed = renewedWork env now work leaseDuration ∧
      s' = { s with
        works := update s.works (maintenanceWorkKey work.workID) (some renewed)
        workIndex := update (removeEntry env s.workIndex (some work))
          (maintenanceWorkIndexKey (maintenanceWorkIndexRecord env renewed))
          (some (maintenanceWorkIndexRecord env renewed))
        listRevisions := revisions } ∧
      KeepsRevisions env now s.listRevisions revisions := by
  unfold renewMaintenanceWorkLease at h
  obtain ⟨-, h⟩ := throwIf_eq_ok.mp h
  split at h
  · cases h
  next work hwork =>
  obtain ⟨hholds, h⟩ := throwIf_eq_ok.mp h
  obtain ⟨⟨⟩, -, h⟩ := bind_eq_ok.mp h
  obtain ⟨s1, h1, h⟩ := bind_eq_ok.mp h
  obtain ⟨s2, h2, h⟩ := bind_eq_ok.mp h
  cases h
  obtain ⟨revisions1, rfl, hrevs1⟩ := deleteMaintenanceWorkIndexStore_eq_ok h1
  obtain ⟨revisions, rfl, hrevs⟩ := putIndexedWork_eq_ok h2
  exact ⟨work, revisions, hwork, (not_not.mp (not_or.mp hholds).2).2.1, rfl, rfl,
    fun hvalid hnow => hrevs (hrevs1 hvalid hnow) hnow⟩

theorem deleteIndexedWork_eq_ok (h : s.deleteIndexedWork env now key = .ok s') :
    ∃ revisions index, s' = { s with
        works := update s.works key none
        workIndex := index
        listRevisions := revisions } ∧
      (IndexExact env s.works s.workIndex → index = removeEntry env s.workIndex (s.works key)) ∧
      KeepsRevisions env now s.listRevisions revisions := by
  unfold deleteIndexedWork at h
  split at h
  · next hnone =>
    cases h
    refine ⟨s.listRevisions, s.workIndex, ?_, fun _ => ?_, fun h _ => h⟩
    · rw [update_eq_self_iff.mpr hnone.symm]
    · rw [hnone]
      rfl
  · next work hwork =>
    split at h
    · cases h
    split at h
    · obtain ⟨s1, h1, h⟩ := bind_eq_ok.mp h
      cases h
      obtain ⟨revisions, rfl, hrevs⟩ := deleteMaintenanceWorkIndexStore_eq_ok h1
      refine ⟨revisions, _, rfl, fun _ => ?_, hrevs⟩
      rw [hwork]
      rfl
    · next hstate =>
      cases h
      refine ⟨s.listRevisions, s.workIndex, rfl, fun hexact => ?_, fun h _ => h⟩
      -- a work without an entry has none to take away
      rw [hwork, removeEntry]
      refine (update_eq_self_iff.mpr ?_).symm
      cases hindex : s.workIndex
          (maintenanceWorkIndexKey (maintenanceWorkIndexRecord env work)) with
      | none => rfl
      | some entry =>
        obtain ⟨work', -, hstate', rfl, hkey⟩ := (hexact _ _).mp hindex
        have heq : work.state = work'.state := congrArg MaintenanceWorkIndexKey.state hkey
        exact absurd (heq ▸ hstate') hstate

theorem deleteIndexedWork_reindexed (hvalid : WorkValid env s)
    (h : s.deleteIndexedWork env now key = .ok s') :
    WorkMove env now key (s.works key) none ∧ Reindexed env now key s s' none := by
  obtain ⟨revisions, index, rfl, hindex, hrevs⟩ := deleteIndexedWork_eq_ok h
  refine ⟨?_, rfl, hindex hvalid.index, hrevs⟩
  cases s.works key with
  | none => exact .same none
  | some before => exact .removed before

theorem completeDrainWork_eq_ok (h : s.completeDrainWork env now transition = .ok s') :
    s'.works = s.works ∧ s'.workIndex = s.workIndex ∧ s'.listRevisions = s.listRevisions := by
  unfold completeDrainWork at h
  split at h
  · cases h
    exact ⟨rfl, rfl, rfl⟩
  dsimp only at h
  split at h
  · cases h
    exact ⟨rfl, rfl, rfl⟩
  split at h
  · cases h
  split at h
  · cases h
    exact ⟨rfl, rfl, rfl⟩
  split at h
  · cases h
  split at h
  · cases h
  · cases h
    exact ⟨rfl, rfl, rfl⟩

end MaintenanceStore

namespace MaintenanceSystem

open MaintenanceStore

variable {s : MaintenanceSystem δ}

variable (env) in
/-- The invariant of the maintenance run. -/
structure WellFormed (s : MaintenanceSystem δ) : Prop where
  work : WorkValid env s.store
  clock : clockSecond ≤ s.now

variable (env) in
def workOf (s : MaintenanceSystem δ) (transition : PlacementTransitionRecord) :
    Option (MaintenanceWorkRecord δ) :=
  s.store.works (maintenanceWorkKey
    (maintenanceWorkID env transition.volumeID transition.placementRef))

variable (env) in
/-- When an event keeps to the index: a transition is written only while its work record, if it
has one, is ready or leased, and its placement is complete when a new record is asked for. No
revision is at its last value, and the index is not rebuilt. -/
def Indexable (s : MaintenanceSystem δ) : MaintenanceEvent δ → Prop
  | .putTransition transition =>
    (∀ b ∈ s.workOf env transition,
      indexedMaintenanceWorkState b.state ∧ b.workRevision + 1 < counterBound) ∧
    (transition.active → maintenanceTransitionReadyEligible env transition →
      (s.workOf env transition).filter (LeasedFor env · transition) = none →
        AuthorityReady env s.store transition (s.workOf env transition))
  | .claim index _ _ =>
    ∀ b ∈ s.store.works (maintenanceWorkKey index.workID), b.workRevision + 1 < counterBound
  | .renew claim _ _ =>
    ∀ b ∈ s.store.works (maintenanceWorkKey claim.workID), b.workRevision + 1 < counterBound
  | .rebuild _ | .sweep _ => False
  | _ => True

instance : (e : MaintenanceEvent δ) → Decidable (s.Indexable env e)
  | .putTransition _ => inferInstanceAs (Decidable (_ ∧ _))
  | .claim _ _ _ => inferInstanceAs (Decidable (∀ b ∈ s.store.works _, _))
  | .renew _ _ _ => inferInstanceAs (Decidable (∀ b ∈ s.store.works _, _))
  | .rebuild _ | .sweep _ => inferInstanceAs (Decidable False)
  | .tick _ | .setVolume _ _ | .setReplicaSet _ _ _ | .deleteTransition _ _ =>
    inferInstanceAs (Decidable True)

omit [DecidableEq δ] in
theorem WellFormed.commit (h : WellFormed env s)
    {result : Except MaintenanceErr (MaintenanceStore δ)}
    (hok : ∀ store, result = .ok store → WorkValid env store) : WellFormed env (s.commit result) := by
  cases result with
  | error err => exact h
  | ok store => exact ⟨hok store rfl, h.clock⟩

/-- Every event keeps the index exact. -/
theorem WellFormed.apply (h : WellFormed env s) {e : MaintenanceEvent δ}
    (he : s.Indexable env e) : WellFormed env (s.apply env e) := by
  cases e with
  | tick elapsed => exact ⟨h.work, h.clock.trans (Nat.le_add_right _ _)⟩
  | setVolume volumeID volume => exact ⟨⟨h.work.works, h.work.index, h.work.revisions⟩, h.clock⟩
  | setReplicaSet volumeID replicaSetID record =>
    exact ⟨⟨h.work.works, h.work.index, h.work.revisions⟩, h.clock⟩
  | putTransition transition =>
    refine h.commit fun store hput => ?_
    obtain ⟨synced, hsync, hdrain⟩ := bind_eq_ok.mp hput
    have hrecd : WorkValid env (s.store.recordTransition env transition) :=
      ⟨h.work.works, h.work.index, h.work.revisions⟩
    have hsynced : WorkValid env synced := by
      rcases syncMaintenanceWorkIndex_eq_ok hsync rfl with rfl | ⟨after, hmove, hre, -⟩
      · exact hrecd
      · exact hrecd.reindexed hre hmove h.clock fun _ b hb => (he.1 b hb).2
    obtain ⟨hworks, hindex, hrevs⟩ := completeDrainWork_eq_ok hdrain
    exact ⟨hworks ▸ hsynced.works, hworks ▸ hindex ▸ hsynced.index, hrevs ▸ hsynced.revisions⟩
  | deleteTransition volumeID placementRef =>
    refine h.commit fun store hdelete => ?_
    obtain ⟨store', hdelete', heq⟩ := bind_eq_ok.mp hdelete
    cases heq
    obtain ⟨hmove, hre⟩ := deleteIndexedWork_reindexed h.work hdelete'
    have hvalid := h.work.reindexed hre hmove h.clock nofun
    exact ⟨hvalid.works, hvalid.index, hvalid.revisions⟩
  | claim index leaseOwner leaseDuration =>
    refine h.commit fun store hstore => ?_
    obtain ⟨⟨claimed, _⟩, hclaim, rfl⟩ := map_eq_ok.mp hstore
    rcases claimMaintenanceWork_eq_ok hclaim with rfl |
      ⟨entry, work, revisions, hentry, hwork, hmove, rfl, rfl, hrevs⟩
    · exact h.work
    -- the entry a claim takes away is that of the work it leases
    obtain ⟨work', hwork', -, rfl, hindex⟩ := (h.work.index _ _).mp hentry
    have hsame : maintenanceWorkKey work'.workID = maintenanceWorkKey index.workID :=
      (congrArg MaintenanceWorkIndexKey.workID hindex).symm
    obtain rfl : work' = work := by
      rw [hsame, hwork] at hwork'
      exact (some.inj hwork').symm
    have hmove : WorkMove env s.now (maintenanceWorkKey index.workID) (s.store.works _) _ :=
      hwork ▸ hmove
    refine h.work.reindexed ⟨?_, ?_, hrevs⟩ hmove h.clock fun _ => he
    · rw [(h.work.works _ _ hwork).1]
    · rw [hwork, insertEntry, if_pos (by exact .inr rfl)]
      rfl
  | renew claim leaseOwner leaseDuration =>
    refine h.commit fun store hstore => ?_
    obtain ⟨⟨renewed, _⟩, hrenew, rfl⟩ := map_eq_ok.mp hstore
    obtain ⟨work, revisions, hwork, hstate, rfl, rfl, hrevs⟩ :=
      renewMaintenanceWorkLease_eq_ok hrenew
    have hmove : WorkMove env s.now (maintenanceWorkKey claim.workID) (s.store.works _) _ :=
      hwork ▸ WorkMove.renewed work leaseDuration hstate
    refine h.work.reindexed ⟨?_, ?_, hrevs⟩ hmove h.clock fun _ => he
    · rw [(h.work.works _ _ hwork).1]
    · rw [hwork, insertEntry, if_pos (by exact .inr hstate)]
  | rebuild key | sweep key => exact he.elim

/-- In every run that keeps to the index, the index lists the ready and the leased work records
and nothing else, and the next transition write is not refused because of it: it fails only if
the records of a drain do not let it complete. -/
theorem work_index_exact {events : List (MaintenanceEvent δ)} {s' : MaintenanceSystem δ}
    (hstart : WellFormed env s) (hguarded : Trace.Guarded (step env) (Indexable env) s events)
    (hrun : Trace.run (step env) s events = some s') :
    IndexExact env s'.store.works s'.store.workIndex ∧
      ∀ transition, s'.Indexable env (.putTransition transition) →
        ∃ synced, (s'.store.recordTransition env transition).syncMaintenanceWorkIndex env s'.now
            transition = .ok synced ∧
          s'.store.putPlacementTransition env s'.now transition =
            synced.completeDrainWork env s'.now transition := by
  have hend : WellFormed env s' := by
    refine Trace.run_induction (WellFormed env) ?_ hstart hguarded hrun
    intro s e s1 h he hstep
    cases hstep
    exact h.apply he
  refine ⟨hend.work.index, fun transition hallowed => ?_⟩
  have hrecd : WorkValid env (s'.store.recordTransition env transition) :=
    ⟨hend.work.works, hend.work.index, hend.work.revisions⟩
  obtain ⟨synced, hsynced⟩ := syncMaintenanceWorkIndex_ok hrecd hend.clock rfl hallowed.1 hallowed.2
  refine ⟨synced, hsynced, ?_⟩
  rw [putPlacementTransition, hsynced, ok_bind]

end MaintenanceSystem

end Work

/-! ## One placement -/

namespace OnePlacement

open MaintenanceSystem

inductive Field where
  | text (value : String)
  | number (value : Int)
  | state (value : MaintenanceWorkState)
  | flag (value : Bool)
  deriving DecidableEq

def fields : SummaryValue (List Field) → List Field
  | .transition volumeID placementRef reason currentReplicaSetID targetReplicaSetID startedAtUnix =>
    [.text volumeID, .text placementRef, .text reason, .text currentReplicaSetID,
      .text targetReplicaSetID, .number startedAtUnix]
  | .work r =>
    [.number r.schemaVersion, .text r.workID, .text r.reason, .state r.state, .number r.priority,
      .number r.virtualShard, .text r.volumeID, .text r.placementRef, .text r.currentReplicaSetID,
      .text r.targetReplicaSetID, .number r.expectedVolumeEpoch,
      .number r.expectedCurrentReplicaEpoch, .number r.expectedTargetReplicaEpoch,
      .number r.workRevision, .text r.leaseOwner, .number r.leaseGeneration,
      .number r.leaseExpiresAtUnix, .number r.startedAtUnix, .number r.updatedAtUnix] ++
        r.transitionDigest
  | .workIndex r =>
    [.number r.schemaVersion, .text r.workID, .text r.reason, .state r.state, .number r.priority,
      .number r.virtualShard, .text r.volumeID, .text r.placementRef, .number r.workRevision,
      .number r.leaseExpiresAtUnix] ++ r.workDigest
  | .listRevision r =>
    [.number r.schemaVersion, .text r.reason, .state r.state, .number r.shard, .number r.revision,
      .number r.updatedAtUnix]
  | .drainWork r =>
    [.number r.schemaVersion, .text r.operationID, .text r.nodeID, .text r.volumeID,
      .text r.placementRef, .text r.replicaSetID, .number r.extentCount, .number r.dataBytes,
      .flag (r.state = .completed), .number r.updatedAtUnix]
  | .drainProgress r =>
    [.number r.schemaVersion, .text r.nodeID, .text r.operationID, .text r.sourceCursor,
      .text r.extentCursor, .flag r.enqueueCompleted, .number r.totalExtents,
      .number r.remainingExtents, .number r.totalBytes, .number r.remainingBytes,
      .text r.sampleRef, .number r.updatedAtUnix]

def env : MaintenanceEnv (List Field) where
  canonicalVolumeID _ := none
  canonicalVolumeID_empty := rfl
  hashByte subject := subject.length
  emptyDigest := []
  digestSummaryValue := fields
  digestSummaryValue_ne_empty v := by cases v <;> exact nofun

def replicaSet (replicaSetID : String) : ReplicaSetState where
  replicaSetID
  placementRef := "p"
  epoch := 1
  replicas := []
  primaryReplicaID := ""
  writeQuorum := 1

/-- A volume with two replica sets, five seconds after the clock started. -/
def start : MaintenanceSystem (List Field) where
  store :=
    { volumes := fun id => if id = "v" then some { epoch := 1, revision := 0 } else none
      replicaSets := fun key =>
        if key.1 = "v" ∧ (key.2 = "a" ∨ key.2 = "b") then some (replicaSet key.2) else none }
  now := 5 * clockSecond

def transition (state : PlacementTransitionState) : PlacementTransitionRecord where
  volumeID := "v"
  placementRef := "p"
  state
  reason := "repair"
  currentReplicaSetID := "a"
  targetReplicaSetID := "b"
  startedAtUnix := 1

def work : MaintenanceWorkRecord (List Field) :=
  (MaintenanceStore.newMaintenanceWork env start.now (transition .queued) none
    { epoch := 1, revision := 0 } (replicaSet "a") (replicaSet "b")).sign env

def claiming : List (MaintenanceEvent (List Field)) :=
  [.putTransition (transition .queued),
    .claim (maintenanceWorkIndexRecord env work) "w" (30 * clockSecond)]

theorem start_wellFormed : WellFormed env start :=
  ⟨⟨nofun, fun _ _ => ⟨nofun, nofun⟩, nofun⟩, by decide +kernel⟩

/-- A transition that has completed cannot be queued again: the write that would do so is refused
by the work index. -/
theorem queued_after_completed_refused : ∃ s', WellFormed env start ∧
      Trace.run (step env) start
        [.putTransition (transition .queued), .putTransition (transition .completed)] = some s' ∧
      s'.store.putPlacementTransition env s'.now (transition .queued) =
        .error (.indexInvalid "maintenance work revision identity") :=
  ⟨_, start_wellFormed, rfl, eq_error_of_error? (by decide +kernel)⟩

/-- A work record that is claimed is listed as leased. -/
theorem claimed_work_listed : ∃ s', Trace.run (step env) start claiming = some s' ∧
      IndexExact env s'.store.works s'.store.workIndex ∧
      (s'.store.workIndex
        { reason := "repair", state := .leased, virtualShard := 3, priority := 1,
          workID := "v:p" }).isSome :=
  have hguarded : Trace.Guarded (step env) (Indexable env) start claiming := by decide +kernel
  ⟨_, rfl, (work_index_exact start_wellFormed hguarded rfl).1, by decide +kernel⟩

end OnePlacement

end Namrbd
