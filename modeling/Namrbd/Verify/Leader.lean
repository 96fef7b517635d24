import Namrbd.Lib.Trace
import Namrbd.Service.Leader

/-!
# At most one leader

`requireLeader` reads a flag, not the lease. A node *counts on* the lease when its flag
is set or the outcome of a successful refresh is still to be noted. As long as such a
node has the unexpired lease in the store (`LeaseKept`), at most one node passes the
check (`leads_unique`). The clock may pass the expiry while the flag is set, and a
release deletes the record before it clears the flag.
-/

namespace Namrbd.LeaderCluster

variable {nodeID other : String} {s s' : LeaderCluster}

/-- A release of the node has run, and its outcome is still to be noted. -/
def Releasing (s : LeaderCluster) (nodeID : String) : Prop :=
  (s.node nodeID).pending = some .released ∨ (s.node nodeID).pending = some .releaseFailed

/-- The node leads, or will when it notes its last refresh. -/
def CountsOn (s : LeaderCluster) (nodeID : String) : Prop :=
  (s.node nodeID).isLeader = true ∨
    ∃ record, (s.node nodeID).pending = some (.refreshed record true)

/-- The clock does not reach the end of a lease that a node counts on, and no refresh runs while
another node's release is still to be noted. -/
def LeaseKept (s : LeaderCluster) : LeaderEvent → Prop
  | .tick seconds => ∀ nodeID, s.CountsOn nodeID → ∀ record ∈ s.stored,
      record.nodeID = nodeID → s.now + seconds < record.expiresAtUnix
  | .refresh nodeID | .refreshFails nodeID .. => ∀ other ≠ nodeID, ¬ s.Releasing other
  | _ => True

/-- The stored lease is this node's and has not expired. -/
def Granted (s : LeaderCluster) (nodeID : String) : Prop :=
  ∃ record, s.stored = some record ∧ record.nodeID = nodeID ∧ s.now < record.expiresAtUnix

/-- Who counts on the lease is one node, and has it unless it is releasing it. -/
structure Exclusive (s : LeaderCluster) : Prop where
  unique : ∀ a b, s.CountsOn a → s.CountsOn b → a = b
  granted : ∀ a, s.CountsOn a → s.Releasing a ∨ s.Granted a

/-! ## Transactions -/

theorem acquiredLease_of_granted (h : s.Granted other) (hne : other ≠ nodeID) :
    acquiredLease nodeID s.now s.stored = s.stored ∧
      (acquireOrRenew nodeID s.now s.stored).2 = false := by
  obtain ⟨record, hstored, rfl, hlt⟩ := h
  have hkept : ¬ (record.nodeID = nodeID ∨ record.expiresAtUnix ≤ s.now) := by
    rintro (heq | hle)
    · exact hne heq
    · omega
  simp [acquiredLease, acquireOrRenew, hstored, hkept]

theorem granted_of_acquireOrRenew (h : (acquireOrRenew nodeID s.now s.stored).2 = true) :
    ∃ record, acquiredLease nodeID s.now s.stored = some record ∧ record.nodeID = nodeID ∧
      s.now < record.expiresAtUnix := by
  refine ⟨(acquireOrRenew nodeID s.now s.stored).1, if_pos h, ?_⟩
  unfold acquireOrRenew at h ⊢
  cases hstored : s.stored with
  | none => simp [leaseDuration]
  | some current =>
    rw [hstored] at h
    dsimp only at h ⊢
    split at h
    · next hfree => simp [hfree, leaseDuration]
    · cases h

section Step

@[simp] theorem transact_node_self (nodeID : String) (stored : Option LeaderLeaseRecord)
    (outcome : LeaseOutcome) : (s.transact nodeID stored outcome).node nodeID =
      { s.node nodeID with pending := some outcome } := by
  simp [transact]

theorem transact_node_of_ne (hne : other ≠ nodeID) (stored : Option LeaderLeaseRecord)
    (outcome : LeaseOutcome) :
    (s.transact nodeID stored outcome).node other = s.node other := by
  simp [transact, hne]

theorem countsOn_congr (h : s'.node nodeID = s.node nodeID) :
    s'.CountsOn nodeID ↔ s.CountsOn nodeID := by
  rw [CountsOn, CountsOn, h]

variable {stored : Option LeaderLeaseRecord} {outcome : LeaseOutcome}

/-- A refresh of a node, with an outcome that makes it count on the lease only if it has
succeeded; the transaction may be lost when the outcome is an error. -/
theorem Exclusive.refresh (h : s.Exclusive) (hidle : (s.node nodeID).pending = none)
    (hothers : ∀ other ≠ nodeID, ¬ s.Releasing other)
    (hstored : stored = acquiredLease nodeID s.now s.stored ∨
      stored = s.stored ∧ ∀ record, outcome ≠ .refreshed record true)
    (hleader : ∀ record, outcome = .refreshed record true →
      (acquireOrRenew nodeID s.now s.stored).2 = true) :
    (s.transact nodeID stored outcome).Exclusive := by
  have hother : ∀ other ≠ nodeID, (s.transact nodeID stored outcome).CountsOn other →
      s.CountsOn other ∧ s.Granted other := by
    intro other hne hcounts
    have hcounts := (countsOn_congr (transact_node_of_ne hne stored outcome)).mp hcounts
    refine ⟨hcounts, ?_⟩
    rcases h.granted other hcounts with hreleasing | hgranted
    · exact (hothers other hne hreleasing).elim
    · exact hgranted
  -- the node itself counts on the lease by its flag, which it had before, or by its new outcome
  have hself : (s.transact nodeID stored outcome).CountsOn nodeID →
      s.CountsOn nodeID ∨ ∃ record, outcome = .refreshed record true := by
    rintro (hflag | ⟨record, hpend⟩)
    · rw [transact_node_self] at hflag
      exact .inl (.inl hflag)
    · rw [transact_node_self] at hpend
      exact .inr ⟨record, Option.some.inj hpend⟩
  have hnotboth : ∀ other ≠ nodeID, (s.transact nodeID stored outcome).CountsOn other →
      ¬ (s.transact nodeID stored outcome).CountsOn nodeID := by
    intro other hne hcounts hcounts'
    obtain ⟨hcounts, hgranted⟩ := hother other hne hcounts
    rcases hself hcounts' with hcounts' | ⟨record, houtcome⟩
    · exact hne (h.unique other nodeID hcounts hcounts')
    · have hrefused := (acquiredLease_of_granted hgranted hne).2
      rw [hleader record houtcome] at hrefused
      cases hrefused
  constructor
  · intro a b ha hb
    by_cases hane : a = nodeID
    · subst hane
      by_contra hne
      exact hnotboth b (Ne.symm hne) hb ha
    by_cases hbne : b = nodeID
    · subst hbne
      exact (hnotboth a hane ha hb).elim
    · exact h.unique a b (hother a hane ha).1 (hother b hbne hb).1
  · intro a ha
    right
    by_cases hane : a = nodeID
    · subst hane
      rcases hself ha with hcounts | ⟨record, houtcome⟩
      · rcases h.granted a hcounts with hreleasing | hgranted
        · simp [Releasing, hidle] at hreleasing
        · rcases hstored with rfl | ⟨rfl, -⟩
          · apply granted_of_acquireOrRenew
            obtain ⟨record, hrecord, rfl, -⟩ := hgranted
            simp [acquireOrRenew, hrecord]
          · exact hgranted
      · rcases hstored with rfl | ⟨-, hnot⟩
        · exact granted_of_acquireOrRenew (hleader record houtcome)
        · exact (hnot record houtcome).elim
    · obtain ⟨-, hgranted⟩ := hother a hane ha
      have hsame := (acquiredLease_of_granted hgranted hane).1
      obtain ⟨record, hrec, hnode, hlt⟩ := hgranted
      rcases hstored with rfl | ⟨rfl, -⟩
      · exact ⟨record, hsame.trans hrec, hnode, hlt⟩
      · exact ⟨record, hrec, hnode, hlt⟩

theorem Exclusive.release (h : s.Exclusive) (hleads : (s.node nodeID).isLeader = true)
    (houtcome : outcome = .released ∨ outcome = .releaseFailed) :
    (s.transact nodeID stored outcome).Exclusive := by
  have hcounts : ∀ a, (s.transact nodeID stored outcome).CountsOn a → s.CountsOn a := by
    intro a ha
    by_cases hane : a = nodeID
    · subst hane
      exact .inl hleads
    · exact (countsOn_congr (transact_node_of_ne hane stored outcome)).mp ha
  constructor
  · exact fun a b ha hb => h.unique a b (hcounts a ha) (hcounts b hb)
  intro a ha
  -- the only node that counts on the lease is the one that releases it
  obtain rfl := h.unique a nodeID (hcounts a ha) (.inl hleads)
  left
  rcases houtcome with rfl | rfl
  · exact .inl (by rw [transact_node_self])
  · exact .inr (by rw [transact_node_self])

/-- A change of a node that does not make it count on the lease, and ends no release of a node
that does. -/
theorem Exclusive.update (h : s.Exclusive) {m : LeaderLeaseManager}
    (hcounts : m.isLeader = true ∨ (∃ record, m.pending = some (.refreshed record true)) →
      s.CountsOn nodeID ∧ ¬ s.Releasing nodeID) :
    Exclusive { s with node := Function.update s.node nodeID m } := by
  have hbefore : ∀ a, CountsOn { s with node := Function.update s.node nodeID m } a →
      s.CountsOn a ∧ (a = nodeID → ¬ s.Releasing nodeID) := by
    intro a ha
    by_cases hane : a = nodeID
    · subst hane
      unfold CountsOn at ha
      simp only [Function.update_self] at ha
      exact ⟨(hcounts ha).1, fun _ => (hcounts ha).2⟩
    · exact ⟨(countsOn_congr (by simp [hane])).mp ha, fun heq => (hane heq).elim⟩
  constructor
  · exact fun a b ha hb => h.unique a b (hbefore a ha).1 (hbefore b hb).1
  intro a ha
  obtain ⟨hcountsA, hnot⟩ := hbefore a ha
  rcases h.granted a hcountsA with hreleasing | hgranted
  · by_cases hane : a = nodeID
    · subst hane
      exact (hnot rfl hreleasing).elim
    · exact .inl (by simpa [Releasing, hane] using hreleasing)
  · exact .inr hgranted

/-- No event makes a second leader. -/
theorem Exclusive.step (h : s.Exclusive) {event : LeaderEvent} (hkept : s.LeaseKept event)
    (hstep : s.step event = some s') : s'.Exclusive := by
  cases event with
  | tick seconds =>
    cases hstep
    refine ⟨h.unique, fun a ha => ?_⟩
    rcases h.granted a ha with hreleasing | ⟨record, hstored, hnode, hlt⟩
    · exact .inl hreleasing
    · exact .inr ⟨record, hstored, hnode, hkept a ha record hstored hnode⟩
  | refresh nodeID =>
    simp only [LeaderCluster.step] at hstep
    split at hstep
    · cases hstep
    next hidle =>
    cases hstep
    refine h.refresh (by simpa using hidle) hkept (.inl rfl) ?_
    rintro record houtcome
    exact (LeaseOutcome.refreshed.inj houtcome).2
  | refreshFails nodeID applied record err =>
    simp only [LeaderCluster.step] at hstep
    split at hstep
    · cases hstep
    next hidle =>
    cases hstep
    refine h.refresh (by simpa using hidle) hkept ?_ nofun
    cases applied with
    | false => exact .inr ⟨rfl, nofun⟩
    | true => exact .inl rfl
  | release nodeID =>
    simp only [LeaderCluster.step] at hstep
    split at hstep
    · cases hstep
    next hready =>
    cases hstep
    refine h.release ?_ (.inl rfl)
    simp only [LeaderLeaseManager.releases] at hready
    simp_all
  | releaseFails nodeID applied =>
    simp only [LeaderCluster.step] at hstep
    split at hstep
    · cases hstep
    next hready =>
    cases hstep
    refine h.release ?_ (.inr rfl)
    simp only [LeaderLeaseManager.releases] at hready
    simp_all
  | note nodeID =>
    simp only [LeaderCluster.step] at hstep
    split at hstep
    · cases hstep
    next outcome hpend =>
    cases hstep
    apply h.update
    cases outcome with
    | refreshed record leader =>
      rintro (hleader | ⟨record', hnone⟩)
      · subst hleader
        exact ⟨.inr ⟨record, hpend⟩, by simp [Releasing, hpend]⟩
      · cases hnone
    | refreshFailed record err | released | releaseFailed =>
      rintro (hleader | ⟨record', hnone⟩) <;> contradiction
  | stop nodeID =>
    simp only [LeaderCluster.step] at hstep
    split at hstep
    · cases hstep
    next hidle =>
    cases hstep
    apply h.update
    rintro (hleader | ⟨record, hpend⟩)
    · cases hleader
    · simp_all

end Step

/-! ## Runs -/

theorem leads_iff : s.Leads nodeID ↔ (s.node nodeID).isLeader = true := by
  unfold Leads LeaderLeaseManager.requireLeader
  have herror : ∀ id : String, (if id = "" then .error "sbs-service leader is not available"
      else .error s!"local node is not leader; current leader={id}" : Except String Unit) ≠
        .ok () := by
    intro id
    split <;> nofun
  constructor
  · intro h
    by_contra hnot
    rw [if_neg hnot] at h
    exact herror _ h
  · exact fun h => if_pos h

/-- In a run that keeps the leases it counts on, at most one node gets past the check of the
mutating calls in every state that is reached. -/
theorem leads_unique {now : Nat} {stored : Option LeaderLeaseRecord} {events : List LeaderEvent}
    (hkept : Trace.Guarded step LeaseKept (initial now stored) events)
    (hrun : Trace.run step (initial now stored) events = some s) {a b : String}
    (ha : s.Leads a) (hb : s.Leads b) : a = b := by
  have hnone : ∀ a, ¬ (initial now stored).CountsOn a := by simp [CountsOn, initial]
  have hexcl : s.Exclusive := Trace.run_induction Exclusive
    (fun _ _ _ h hkept hstep => h.step hkept hstep)
    ⟨fun a _ ha _ => (hnone a ha).elim, fun a ha => (hnone a ha).elim⟩ hkept hrun
  exact hexcl.unique a b (.inl (leads_iff.mp ha)) (.inl (leads_iff.mp hb))

/-- A node whose refresh is late keeps its flag after its lease has gone to another node; a node
that has released its lease keeps its flag until the release has returned. -/
theorem two_nodes_lead : (∃ s, Trace.run step (initial 0 none)
        [.refresh "a", .note "a", .tick 10, .refresh "b", .note "b"] = some s ∧
      s.Leads "a" ∧ s.Leads "b") ∧
    ∃ s, Trace.run step (initial 0 none)
        [.refresh "a", .note "a", .release "a", .refresh "b", .note "b"] = some s ∧
      s.Leads "a" ∧ s.Leads "b" :=
  ⟨⟨_, rfl, rfl, rfl⟩, ⟨_, rfl, rfl, rfl⟩⟩

/-- The node renews its lease just before another one would take it over. -/
theorem renewing_node_leads_alone :
    ∃ s, Trace.run step (initial 0 none) [.refresh "a", .note "a", .tick 9, .refresh "b",
        .note "b", .refresh "a", .note "a"] = some s ∧
      s.Leads "a" ∧ ∀ b, s.Leads b → b = "a" := by
  have hidle : ∀ {s : LeaderCluster} {nodeID : String},
      (∀ a, (s.node a).pending ≠ some .released ∧ (s.node a).pending ≠ some .releaseFailed) →
        s.LeaseKept (.refresh nodeID) :=
    fun h other _ hreleasing => hreleasing.elim (h other).1 (h other).2
  have hkept : Trace.Guarded step LeaseKept (initial 0 none) [.refresh "a", .note "a", .tick 9,
      .refresh "b", .note "b", .refresh "a", .note "a"] := by
    refine ⟨hidle fun a => ⟨nofun, nofun⟩, ?_⟩
    rintro s ⟨⟩
    refine ⟨trivial, ?_⟩
    rintro s ⟨⟩
    refine ⟨?_, ?_⟩
    · rintro a _ record ⟨⟩ _
      decide
    rintro s ⟨⟩
    refine ⟨hidle fun a => ?_, ?_⟩
    · simp only [transact, initial, Function.update_apply]
      split_ifs <;> exact ⟨nofun, nofun⟩
    rintro s ⟨⟩
    refine ⟨trivial, ?_⟩
    rintro s ⟨⟩
    refine ⟨hidle fun a => ?_, ?_⟩
    · simp only [transact, initial, Function.update_apply]
      split_ifs <;> exact ⟨nofun, nofun⟩
    exact fun _ _ => ⟨trivial, fun _ _ => trivial⟩
  exact ⟨_, rfl, rfl, fun b hb => leads_unique hkept rfl hb rfl⟩

end Namrbd.LeaderCluster
